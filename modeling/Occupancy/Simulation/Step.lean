import Occupancy.Simulation.Scheduler

/-!
# Steps of a simulation

What can be done to a simulated server from outside. A step is either a change of the server's state
or a program that may have to wait; after each step all tasks go on until each of them waits.
-/

namespace Occupancy.Simulation

/-! ## Steps -/

/-- Whom a session step goes to: the operator's actions, or the store itself at a given time or at
the time of the clock. -/
inductive Via where
  | engine
  | store (now : Option Instant)

/-- The operations that can race with themselves. -/
inductive RaceVerb where
  | transition (t : Transition)
  | assign

/-- The tasks whose end can be asked for. -/
inductive Service where
  | link
  | sweeper

/-- A step. -/
inductive Step where
  | setClock (now : Instant)
  | advanceClock (ms : Int)
  | clock
  | insertRoom (r : Room)
  | insertDevice (d : Device)
  | device (id : DeviceId)
  | setActive (device : DeviceId) (active : Bool)
  | toggles
  | bill (room : RoomId) (cost : Word)
  | history (room : RoomId)
  | assign (via : Via) (room : RoomId) (customer : Option Word) (duration : Word)
  | transition (via : Via) (room : RoomId) (t : Transition)
  | finalizeExpired (via : Via)
  | view (room : RoomId)
  | views (rooms : List RoomId)
  | race (verb : RaceVerb) (room : RoomId) (count : Nat)
  | sweep
  | startSweeper (ms : Nat)
  | storeFault (op : StoreOp) (id : Option Word) (error : Option RoomError) (times : Nat)
  | brokerFault (op : BrokerOp) (topic : Option Topic) (error : Option BrokerError) (times : Nat)
  | connect
  | teardown
  | close
  | release (t : Topic)
  | declare (t : Topic) (limit : Nat)
  | publish (t : Topic) (payload : String)
  | receive (t : Topic) (ms : Nat)
  | startReceive (name : String) (t : Topic) (ms : Nat)
  | pollReceive (name : String)
  | ack (t : Topic)
  | sever
  | refuse (count : Nat)
  | depth (t : Topic)
  | broker
  | establish (endAt : Option Nat)
  | link
  | isUp
  | reportFailure (e : BrokerError)
  | watch (name : String)
  | pollWatch (name : String)
  | startLink
  | shutdown
  | isDone (s : Service)
  | wait (ms : Nat)
  | publishRoom (room : RoomId)
  | publishView (v : RoomView)
  | broadcast (room : RoomId)
  | pending
  | flush
  | newViewer (name : String) (buffer : Nat)
  | add (name : String) (t : Topic)
  | remove (name : String) (t : Topic)
  | snapshot (t : Topic)
  | registry
  | count (t : Topic)
  | deliver (name : String) (payload : String)
  | closeViewer (name : String)
  | viewerState (name : String)
  | dropInbox (name : String)
  | next (name : String)
  | drain (name : String)
  | fanOut (t : Topic) (payload : String)
  | ensure (t : Topic)
  | restart
  | active
  | stopConsumers
  | sameRegistry
  | http (r : Option Http.Request)
  | openSocket (name : String) (target : String) (stalled : Bool) (pipe : Nat) (dropped : Bool)
  | readSocket (name : String)
  | writeSocket (name : String) (frame : ClientFrame)
  | dropSocket (name : String)
  | shutdownApp

/-! ## Programs of steps -/

/-- An operator's action as a step. -/
def actionProgram {α : Type} (p : Operation.Action α) (answer : α → Answer) :
    Program Calls Next :=
  (p.lift fun c => .ask (S := Calls) (.store c) .done).bind fun a => .done (.answered (answer a))

def publishProgram (p : Publish.Publication PublishReport) : Program Calls Next :=
  (p.lift fun c => .ask (S := Calls) (.publish c) .done).bind fun r =>
    .done (.answered (.published r))

/-- The answer to an operation that yields nothing. -/
def Answer.ofUnit {ε : Type} (failed : ε → Answer) : Except ε Unit → Answer
  | .ok _ => .unit
  | .error e => failed e

/-- The answer to a change of a session. -/
def Answer.ofCommit : Except RoomError Commit → Answer
  | .ok c => .commit c
  | .error e => .refused e

def Answer.ofView : Except ViewError RoomView → Answer
  | .ok v => .view v
  | .error (.refused e) => .refused e
  | .error .overflow => .overflow

def Answer.ofViews : Except ViewError (List RoomView) → Answer
  | .ok vs => .views vs
  | .error (.refused e) => .refused e
  | .error .overflow => .overflow

/-- A call to the store itself, at a given time or at the time of the clock. -/
def storeProgram (now : Option Instant) (p : Instant → Operation.Action Answer) :
    Program Calls Next :=
  match now with
  | some now => actionProgram (p now) id
  | none => actionProgram (.ask .now p) id

/-- Opening a session. -/
def assignProgram (via : Via) (room : RoomId) (customer : Option Word) (duration : Word) :
    Program Calls Next :=
  match via with
  | .engine => actionProgram (Operation.assign room customer duration) fun
      | .ok id => .opened id
      | .error e => .refused e
  | .store now => storeProgram now fun now =>
      .ask (.assign room customer duration now) fun r => .done (.ofCommit r)

def transitionProgram (via : Via) (room : RoomId) (t : Transition) : Program Calls Next :=
  match via with
  | .engine => actionProgram (Operation.transition room t) .ofCommit
  | .store now => storeProgram now fun now =>
      .ask (.apply room t now) fun r => .done (.ofCommit r)

def expireProgram (via : Via) : Program Calls Next :=
  match via with
  | .engine => actionProgram Operation.finalizeExpired fun
      | .ok rooms => .rooms rooms
      | .error e => .refused e
  | .store now => storeProgram now fun now =>
      .ask (.finalizeExpired now) fun
        | .ok cs => .done (.commits cs)
        | .error e => .done (.refused e)

/-- Reading a view and going on with it. -/
def viewThen (room : RoomId) (next : RoomView → Program Calls Answer) : Program Calls Next :=
  ((Operation.view room).lift fun c => .ask (S := Calls) (.store c) .done).bind fun
    | .ok v => (next v).bind fun a => .done (.answered a)
    | .error e => .done (.answered (.ofView (.error e)))

/-- Waits for tasks and counts their successes, in order. -/
def joinAll : List TaskId → Nat → List RoomError → Program Calls Next
  | [], succeeded, errors => .done (.answered (.race succeeded errors))
  | t :: rest, succeeded, errors =>
    .ask (.join t) fun
      | .refused e => joinAll rest succeeded (errors ++ [e])
      | _ => joinAll rest (succeeded + 1) errors

/-- A request of a route as part of a step. -/
def routeCall : (c : Http.RouteCall) → Program Calls c.Reply
  | .store c => .ask (S := Calls) (.store c) .done
  | .broadcast v => .ask (S := Calls) (.spawnPublish v) fun _ => .done ()
  | .health => .ask (S := Calls) .health .done

/-- A request to the operator's interface. -/
def httpProgram (r : Http.Request) : Program Calls Next :=
  ((Http.handle r).lift routeCall).bind fun response => .done (.answered (.response response))

/-- Receiving a message within a step that measures its time. -/
def receiveProgram (t : Topic) (ms : Nat) : Program Calls Next :=
  .ask .time fun (start : Nat) =>
  .ask (.receive t ms) fun
    | .error e => .done (.answered (.broken e))
    | .ok d => .ask .time fun (now : Nat) => .done (.answered (.received d (some (now - start))))

/-- Receiving a message on a task of its own. -/
def readerProgram (t : Topic) (ms : Nat) : Program Calls Next :=
  .ask (.receive t ms) fun
    | .error e => .done (.answered (.broken e))
    | .ok d => .done (.answered (.received d none))

/-- A call of the broker that yields nothing, as a step. -/
def brokerProgram (c : Call) (h : c.Reply = Except BrokerError Unit) : Program Calls Next :=
  .ask c fun r => .done (.answered (.ofUnit .broken (h ▸ r)))

/-- Calls the end at a given time from now. -/
def endProgram (ms : Nat) : Program Calls Next :=
  .ask (.sleep ms) fun _ => .ask .shutdown fun _ => .done (.answered .unit)

/-- The sweeper's start: the first sweep is due at once. -/
def sweeperStart (period : Nat) : Program Calls Next :=
  .ask .time fun (now : Nat) => .done (.sweeper now period)

/-! ## Steps at once -/

namespace World

def viewer? (w : World) (name : String) : Option ViewerId :=
  w.viewerNames.get? name

def viewerName? (w : World) (v : ViewerId) : Option String :=
  (w.viewerNames.entries.find? (·.2 = v)).map Prod.fst

def withViewer (w : World) (name : String) (f : ViewerId → Answer × World) : Answer × World :=
  match w.viewer? name with
  | some v => f v
  | none => (.unit, w)

def readQueue (w : World) (v : ViewerId) : Nat → List String → (List String × QueueEnd) × World
  | 0, read => ((read, .opened), w)
  | most + 1, read =>
    match w.registry.next v with
    | (.payload p, registry) => readQueue { w with registry } v most (read ++ [p])
    | (.empty, _) => ((read, .empty), w)
    | (.closed, _) => ((read, .closed), w)

/-- The number of payloads that wait for a viewer. -/
def waitingFor (w : World) (v : ViewerId) : Nat :=
  ((w.registry.viewers.get? v).map (·.waiting.length)).getD 0

/-- Reads payloads of a viewer whose queue is still attached. -/
def readViewer (w : World) (name : String) (most : Nat) : Answer × World :=
  w.withViewer name fun v =>
    if ((w.registry.viewers.get? v).map (·.attached)).getD false then
      let ((ms, ending), w) := w.readQueue v most []
      (.messages ms ending, w)
    else (.messages [] .closed, w)

/-- Starts consumers for topics and counts those started. -/
def ensureAll (w : World) : List Topic → Nat → Nat × World
  | [], n => (n, w)
  | t :: rest, n =>
    let (started, w) := w.ensure t
    w.ensureAll rest (if started then n + 1 else n)

/-- Cancels every consumer. -/
def stopConsumers (w : World) : World :=
  w.supervisor.slots.keys.foldl dropConsumer w

/-- Is somebody listening for the end? -/
def hasListeners (w : World) : Bool :=
  let running (t : Option TaskId) : Bool := (t.map w.tasks.contains).getD false
  running w.manager || running w.sweeper

/-- Has a task ended, or never been started? -/
def isDone (w : World) (t : Option TaskId) : Bool :=
  !(t.map w.tasks.contains).getD false

/-- Opens a viewer's connection to a topic. -/
def openSocket (w : World) (name : String) (t : Topic) (stalled : Bool) (pipe : Nat)
    (dropped : Bool) : World :=
  let s := w.nextSocket
  let w := { w with
    nextSocket := s + 1
    connections := w.connections.set s { stalled, capacity := pipe, gone := dropped }
    clients := w.clients.set name s }
  (w.spawn (socketProgram s t (Socket.start t))).2

/-- Changes the connection of a client and lets the server look at it. -/
def touchSocket (w : World) (name : String) (f : Connection → Connection) : World :=
  match w.clients.get? name with
  | none => w
  | some s => (w.modifyConnection s f).wake (.socket s)

def connection? (w : World) (name : String) : Option Connection :=
  (w.clients.get? name).bind w.connections.get?

/-- Does a step at once, or answers with the program that it is. -/
def start (w : World) : Step → (Answer × World) ⊕ (Program Calls Next × World)
  | .setClock now => .inl (.instant now, { w with now })
  | .advanceClock ms =>
    match (Span.ofMillis? ms).bind w.now.add? with
    | some now => .inl (.instant now, { w with now })
    | none => .inl (.overflow, w)
  | .clock => .inl (.instant w.now, w)
  | .insertRoom r => .inl (.unit, { w with store := w.store.insertRoom r })
  | .insertDevice d => .inl (.unit, { w with store := w.store.insertDevice d })
  | .device id => .inl (.device (w.store.device? id), w)
  | .setActive device active =>
    .inr (actionProgram (.ask (.setActive device active) .done) (.ofUnit .refused), w)
  | .toggles => .inl (.toggles w.store.toggles, w)
  | .bill room cost =>
    match w.store.bill room cost with
    | .ok store => .inl (.unit, { w with store })
    | .error e => .inl (.refused e, w)
  | .history room => .inl (.sessions (w.store.history room), w)
  | .assign via room customer duration => .inr (assignProgram via room customer duration, w)
  | .transition via room t => .inr (transitionProgram via room t, w)
  | .finalizeExpired via => .inr (expireProgram via, w)
  | .view room => .inr (actionProgram (Operation.view room) .ofView, w)
  | .views rooms => .inr (actionProgram (Operation.views rooms) .ofViews, w)
  | .race verb room count =>
    let program := match verb with
      | .transition t => transitionProgram .engine room t
      | .assign => assignProgram .engine room none 3600
    let (ts, w) := (List.range count).foldl (fun (ts, w) _ =>
      let (t, w) := w.spawn program
      (ts ++ [t], w)) ([], w)
    .inr (joinAll ts 0 [], w)
  | .sweep => .inr (sweepProgram.bind fun r => .done (.answered (.swept r)), w)
  | .startSweeper ms =>
    let (t, w) := w.spawn (sweeperStart ms)
    .inl (.unit, { w with sweeper := some t })
  | .storeFault op id error times =>
    .inl (.unit, { w with storeFaults := w.storeFaults ++ [Simulation.storeFault op id error times] })
  | .brokerFault op topic error times =>
    .inl (.unit, { w with
      brokerFaults := w.brokerFaults ++ [Simulation.brokerFault op topic error times] })
  | .connect => .inr (brokerProgram .connect rfl, w)
  | .teardown => .inl (.unit, (w.count "teardown").teardownNow)
  | .close => .inl (.unit, (w.count "close").teardownNow)
  | .release t => .inl (.unit, w.count ("release " ++ t.text))
  | .declare t limit => .inr (brokerProgram (.declare t limit) rfl, w)
  | .publish t payload => .inr (brokerProgram (.put t payload) rfl, w)
  | .receive t ms => .inr (receiveProgram t ms, w)
  | .startReceive name t ms =>
    let (task, w) := w.spawn (readerProgram t ms)
    .inl (.unit, { w with readers := w.readers.set name task })
  | .pollReceive name =>
    .inl (((w.readers.get? name).bind w.results.get?).getD .waiting, w)
  | .ack t => .inr (brokerProgram (.ack t) rfl, w)
  | .sever =>
    let w := { w with broker := w.broker.sever }
    .inl (.unit, w.notifyQueues)
  | .refuse count => .inl (.unit, { w with broker := w.broker.refuse count })
  | .depth t => .inl (.number (w.broker.depth t), w)
  | .broker =>
    .inl (.broker w.broker.connected w.broker.connects.toNat w.brokerCalls.entries, w)
  | .establish endAt =>
    let w := match endAt with
      | some ms => (w.spawn (endProgram ms)).2
      | none => w
    .inr (establishProgram w.time 0, w)
  | .link => .inl (.link w.link.state, w)
  | .isUp => .inl (.flag w.link.isUp, w)
  | .reportFailure e => let w := w.reportFailure e; .inl (.link w.link.state, w)
  | .watch name => .inl (.unit, { w with watches := w.watches.set name w.link.version })
  | .pollWatch name =>
    .inl (.observed (w.watches.get? name ≠ some w.link.version) w.link.state,
      { w with watches := w.watches.set name w.link.version })
  | .startLink =>
    let (t, w) := w.spawn (dialProgram 0)
    .inl (.unit, { w with manager := some t })
  | .shutdown => .inl (.flag w.hasListeners, { w with ends := w.ends + 1 }.wake .shutdown)
  | .isDone .link => .inl (.flag (w.isDone w.manager), w)
  | .isDone .sweeper => .inl (.flag (w.isDone w.sweeper), w)
  | .wait ms => .inr (.ask (.sleep ms) fun _ => .done (.answered .unit), w)
  | .publishRoom room =>
    .inr (viewThen room fun v => .ask (.spawnPublish v) fun (t : TaskId) => .ask (.join t) .done, w)
  | .publishView v => .inr (publishProgram (Publish.publishView v), w)
  | .broadcast room =>
    .inr (viewThen room fun v => .ask (.spawnPublish v) fun _ => .done .unit, w)
  | .pending => .inl (.topics w.pending.topics, w)
  | .flush => .inr (publishProgram Publish.flush, w)
  | .newViewer name buffer =>
    let (v, registry) := w.registry.newViewer buffer
    .inl (.unit, { w with registry, viewerNames := w.viewerNames.set name v })
  | .add name t => .inl (w.withViewer name fun v =>
      let (created, registry) := w.registry.add t v
      (.flag created, { w with registry }))
  | .remove name t => .inl (w.withViewer name fun v =>
      let (found, registry) := w.registry.remove t v
      (.name (if found then some name else none), { w with registry }))
  | .snapshot t => .inl (.names ((w.registry.snapshot t).filterMap w.viewerName?), w)
  | .registry =>
    .inl (.registry (w.registry.buckets.entries.map fun (t, vs) => (t, vs.length))
      w.registry.total, w)
  | .count t => .inl (.number (w.registry.count t), w)
  | .deliver name payload => .inl (w.withViewer name fun v =>
      match w.registry.deliver v payload with
      | .ok registry => (.delivery (.ok ()), w.setRegistry registry [v])
      | .error e => (.delivery (.error e), w))
  | .closeViewer name => .inl (w.withViewer name fun v =>
      (.unit, w.setRegistry (w.registry.close v) [v]))
  | .viewerState name => .inl (w.withViewer name fun v =>
      match w.registry.viewers.get? v with
      | some viewer =>
        (.viewer viewer.isClosed (if viewer.attached then some viewer.closed else none), w)
      | none => (.unit, w))
  | .dropInbox name => .inl (w.withViewer name fun v =>
      (.unit, { w with registry := w.registry.detachSocket v }))
  | .next name => .inl (w.readViewer name 1)
  | .drain name => .inl (w.withViewer name fun v => w.readViewer name (w.waitingFor v + 1))
  | .fanOut t payload => let (r, w) := w.fanOut t payload; .inl (.fannedOut r, w)
  | .ensure t => let (started, w) := w.ensure t; .inl (.flag started, w)
  | .restart =>
    let w := w.stopConsumers
    let (n, w) := w.ensureAll w.registry.topics 0
    .inl (.number n, w)
  | .active => .inl (.topics w.supervisor.active, w)
  | .stopConsumers => .inl (.unit, w.stopConsumers)
  | .sameRegistry => .inl (.flag true, w)
  | .http none => .inl (.badTarget, w)
  | .http (some r) => .inr (httpProgram r, w)
  | .openSocket name target stalled pipe dropped =>
    match Http.Target.read? target with
    | none => .inl (.badTarget, w)
    | some t =>
      match Http.Route.ofPath? t with
      | some .viewers =>
        match Http.openViewer t with
        | .error response => .inl (.response response, w)
        | .ok topic => .inl (.upgraded, w.openSocket name topic stalled pipe dropped)
      | _ => .inr (httpProgram ⟨"GET", t, none, ""⟩, w)
  | .readSocket name =>
    match w.connection? name with
    | none => .inl (.frames [], w)
    | some c => .inl (.frames c.got, w.touchSocket name fun c => { c with got := [] })
  | .writeSocket name frame =>
    match w.connection? name with
    | none => .inl (.flag false, w)
    | some c =>
      .inl (.flag (!c.ended && !c.gone),
        w.touchSocket name fun c => { c with sent := c.sent ++ [frame] })
  | .dropSocket name => .inl (.unit, w.touchSocket name fun c => { c with gone := true })
  | .shutdownApp => .inl (.unit, { w with appShutdown := true }.wake .appShutdown)

/-- Does a step, and then lets all tasks go on until each of them waits. -/
def step (w : World) (s : Step) : Answer × World :=
  match w.start s with
  | .inl (a, w) => (a, w.drain maxTurns)
  | .inr (program, w) => w.runProgram program

def run (w : World) : List Step → List Answer × World
  | [] => ([], w)
  | s :: rest =>
    let (a, w) := w.step s
    let (as, w) := w.run rest
    (a :: as, w)

end World

end Occupancy.Simulation
