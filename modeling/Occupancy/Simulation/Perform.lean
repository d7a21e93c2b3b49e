import Occupancy.Simulation.State

/-!
# How a simulated server answers

Each call is answered at once or has to wait. A call that waits is made again when its task goes on;
what it has to remember until then is the task's `Hold`.
-/

namespace Occupancy.Simulation

/-- A call answered, or a call that waits: what it remembers, what it waits for, and until when. -/
inductive Progress (β : Type) where
  | reply (b : β) (w : World)
  | wait (hold : Hold) (interests : List Interest) (due : Option Nat) (w : World)

namespace Progress

/-- Applies a function to the answer. -/
def map {β γ : Type} (f : β → γ) : Progress β → Progress γ
  | .reply b w => .reply (f b) w
  | .wait hold interests due w => .wait hold interests due w

def never {β : Type} (interests : List Interest) (w : World) : Progress β :=
  .wait .forever interests none w

end Progress

/-- Milliseconds that cover a wait. -/
def ceilMillis (d : Wait) : Nat :=
  (d.nanos + 999999) / 1000000

namespace World

/-! ## Faults -/

/-- Makes a call to the store, unless a fault applies. -/
def onStore {β : Type} (w : World) (target : StoreTarget) (failed : RoomError → β)
    (run : World → β × World) : Progress β :=
  let (verdict, faults) := judge target w.storeFaults
  let w := { w with storeFaults := faults }
  match verdict with
  | .pass => let (b, w) := run w; .reply b w
  | .fail e => .reply (failed e) w
  | .hang => .never [] w

/-- Makes a call to the broker, unless a fault applies. -/
def onBroker {β : Type} (w : World) (target : BrokerTarget) (failed : BrokerError → β)
    (hang : World → Progress β) (run : World → Progress β) : Progress β :=
  let (verdict, faults) := judge target w.brokerFaults
  let w := { w with brokerFaults := faults }
  match verdict with
  | .pass => run w
  | .fail e => .reply (failed e) w
  | .hang => hang w

/-! ## The store -/

/-- Answers a call to the clock, the store or the devices. -/
def performStore (w : World) : (c : StoreCall) → Progress c.Reply
  | .now => .reply w.now w
  | .assign room customer duration now =>
    w.onStore (β := Except RoomError Commit) (.assign, room) .error fun w =>
      match w.store.assign (.ofNat (w.opened + 1)) room customer duration now with
      | .ok (c, store) => (.ok c, { w with store, opened := w.opened + 1 })
      | .error e => (.error e, w)
  | .apply room t now =>
    w.onStore (β := Except RoomError Commit) (.apply, room) .error fun w =>
      match w.store.apply room t now with
      | .ok (c, store) => (.ok c, { w with store })
      | .error e => (.error e, w)
  | .finalizeExpired now =>
    w.onStore (β := Except RoomError (List Commit)) (.finalizeExpired, 0) .error fun w =>
      let (cs, store) := w.store.finalizeExpired now
      (.ok cs, { w with store })
  | .view room now =>
    w.onStore (β := Except ViewError RoomView) (.roomView, room) (fun e => .error (.refused e))
      fun w => (w.store.view room now, w)
  | .views rooms now =>
    w.onStore (β := Except ViewError (List RoomView)) (.roomViews, 0)
      (fun e => .error (.refused e)) fun w => (w.store.views rooms now, w)
  | .setActive device active =>
    w.onStore (β := Except RoomError Unit) (.setActive, device) .error fun w =>
      match w.store.setActive device active with
      | .ok store => (.ok (), { w with store })
      | .error e => (.error e, w)

/-! ## The broker -/

def declareNow (w : World) (t : Topic) (limit : Nat) : Except BrokerError Unit × World :=
  match w.broker.declare t limit with
  | .ok broker => (.ok (), { w with broker })
  | .error e => (.error e, w)

/-- Puts a message into the queue of a topic and tells a reader. -/
def putNow (w : World) (t : Topic) (payload : String) : Except BrokerError Unit × World :=
  match w.broker.publish t payload with
  | .error e => (.error e, w)
  | .ok broker =>
    let w := { w with broker }
    match broker.queues.get? t with
    | some q => (.ok (), w.notifyOne q.id)
    | none => (.ok (), w)

/-- Declares the queue of a topic, unless a fault applies. -/
def declare (w : World) (t : Topic) (limit : Nat)
    (hang : World → Progress (Except BrokerError Unit) := .never []) :
    Progress (Except BrokerError Unit) :=
  w.onBroker (.declare, some t) .error hang fun w =>
    let (r, w) := w.declareNow t limit
    .reply r w

/-- Puts a message into the queue of a topic, unless a fault applies. -/
def put (w : World) (t : Topic) (payload : String)
    (hang : World → Progress (Except BrokerError Unit) := .never []) :
    Progress (Except BrokerError Unit) :=
  w.onBroker (.publish, some t) .error hang fun w =>
    let (r, w) := w.putNow t payload
    .reply r w

/-- Declares the queue of a topic and puts a message into it, within the time limit of publishing. -/
def send (w : World) (hold : Hold) (t : Topic) (payload : String) :
    Progress (Except BrokerError Unit) :=
  let late : Except BrokerError Unit :=
    .error (.timeout (.ofMillis (.ofNat w.settings.publishTimeout)))
  let waitUntil (due : Nat) (w : World) : Progress (Except BrokerError Unit) :=
    if due ≤ w.time then .reply late w else .wait (.sleeping due) [] (some due) w
  match hold with
  | .sleeping due => waitUntil due w
  | _ =>
    let hang := fun w : World => waitUntil (w.time + w.settings.publishTimeout) w
    match w.declare t 1 hang with
    | .reply (.ok _) w => w.put t payload hang
    | other => other

def connect (w : World) : Progress (Except BrokerError Unit) :=
  (w.count "connect").onBroker (.connect, none) .error (.never []) fun w =>
    let (r, broker) := w.broker.connect
    .reply r { w with broker }

/-- Tears the connection down. Readers notice. -/
def teardownNow (w : World) : World :=
  let w := w.notifyQueues
  { w with broker := w.broker.teardown }

/-- Confirms a message. -/
def ack (w : World) (t : Topic) : Progress (Except BrokerError Unit) :=
  w.onBroker (.ack, some t) .error (.never []) fun w => .reply w.broker.ack w

/-- Takes a message of a queue, or waits for one until the time `due`. -/
def read (w : World) (t : Topic) (queue due : Nat) (also : List Interest) :
    Progress (Except BrokerError (Option Delivery)) :=
  if !w.broker.connected then .reply (.error .disconnected) w
  else
    match w.broker.pop t queue with
    | (some d, broker) => .reply (.ok (some d)) { w with broker }
    | (none, _) =>
      if due ≤ w.time then .reply (.ok none) w
      else .wait (.reading queue due) (.queue queue :: also) (some due) w

/-- Receives a message of a topic, waiting for `ms` at most. A call that was told of a message looks
again; one whose time is over gives up. -/
def receive (w : World) (hold : Hold) (notice : Notice) (t : Topic) (ms : Nat)
    (also : List Interest) : Progress (Except BrokerError (Option Delivery)) :=
  match hold with
  | .reading queue due =>
    if notice ≠ .none then w.read t queue due also
    else if due ≤ w.time then .reply (.ok none) w
    else .wait hold (.queue queue :: also) (some due) w
  | .forever => .never also w
  | _ =>
    w.onBroker (.receive, some t) .error (.never also) fun w =>
      if !w.broker.connected then .reply (.error .disconnected) w
      else
        match w.broker.queue t with
        | .error e => .reply (.error e) w
        | .ok q => w.read t q.id (w.time + ms) also

/-! ## Publishing -/

/-- Answers a publication. -/
def performPublish (w : World) (hold : Hold) : (c : PublishCall) → Progress c.Reply
  | .stamp => .reply w.pending.nextStamp
      { w with pending := { w.pending with nextStamp := w.pending.nextStamp + 1 } }
  | .linkUp => .reply w.link.isUp w
  | .send t payload => w.send hold t payload
  | .report e => .reply () (w.reportFailure e)
  | .hold t h => .reply () { w with pending := w.pending.hold t h }
  | .settle t => .reply () { w with pending := w.pending.settle t }
  | .settleSame t stamp => .reply () { w with pending := w.pending.settleSame t stamp }
  | .heldTopics => .reply w.pending.topics w
  | .held t => .reply (w.pending.held.get? t) w

/-! ## Consumers -/

/-- The task of a consumer of a generation. -/
def consumerProgram (t : Topic) (g : Generation) (p : Consume.Stretch) : Program Calls Next :=
  (p.lift fun c => .ask (S := Calls) (.consume c) .done).bind fun n => .done (.consumer t g n)

/-- Starts a consumer for a topic unless one runs or the link is not up. Answers whether it was
started. -/
def ensure (w : World) (t : Topic) : Bool × World :=
  if !w.link.isUp then (false, w)
  else
    let stale := w.supervisor.slots.get? t
    let (started, supervisor) := w.supervisor.ensure t
    match started with
    | none => (false, w)
    | some g =>
      let w := { w with supervisor }
      let (_, w) := w.spawn (consumerProgram t g (Consume.start t))
      match stale with
      | some old => (true, w.wake (.cancelled old))
      | none => (true, w)

/-- Cancels the consumer in the slot of a topic. -/
def dropConsumer (w : World) (t : Topic) : World :=
  match w.supervisor.slots.get? t with
  | none => w
  | some g => { w with supervisor := w.supervisor.drop t }.wake (.cancelled g)

/-- Passes the news of a message on, if the task was the only one told. -/
def passOn (w : World) (hold : Hold) (notice : Notice) : World :=
  match hold, notice with
  | .reading queue _, .alone => w.notifyOne queue
  | _, _ => w

/-- Fans a payload out and lets the readers of the viewers go on. -/
def fanOut (w : World) (t : Topic) (payload : String) : FanOutReport × World :=
  let viewers := w.registry.snapshot t
  let (report, registry) := w.registry.fanOut t payload
  (report, w.setRegistry registry viewers)

/-- Answers a consumer. -/
def performConsume (w : World) (hold : Hold) (notice : Notice) :
    (c : ConsumeCall) → Progress c.Reply
  | .declare t => w.declare t 1
  | .receive t g =>
    if w.supervisor.isCancelled g then .reply Received.cancelled (w.passOn hold notice)
    else
      (w.receive hold notice t w.settings.receiveWait [.cancelled g]).map fun
        | .ok d => Received.message d
        | .error e => Received.failed e
  | .fanOut t payload => let (report, w) := w.fanOut t payload; .reply report w
  | .ack t _ => w.ack t
  | .pause g =>
    if w.supervisor.isCancelled g then .reply true w
    else
      let due := match hold with
        | .sleeping due => due
        | _ => w.time + min w.settings.receiveWait 1000
      if due ≤ w.time then .reply false w
      else .wait (.sleeping due) [.cancelled g] (some due) w
  | .count t => .reply (w.registry.count t) w
  | .retire t g =>
    let (retired, supervisor) := w.supervisor.retire t g (w.registry.count t)
    .reply retired { w with supervisor }
  | .release t => .reply () (w.count ("release " ++ t.text))
  | .report e => .reply () (w.reportFailure e)

/-! ## The manager of the link -/

/-- Waits for the time `due`, or for the end to be called. Answers whether the end was called. -/
def sleepOrEnd (w : World) (endsSeen due : Nat) : Progress Bool :=
  if due ≤ w.time then .reply false w
  else if endsSeen < w.ends then .reply true w
  else .wait (.sleeping due) [.shutdown] (some due) w

/-- Answers the manager of the link. -/
def performManage (w : World) (hold : Hold) (endsSeen : Nat) :
    (c : ManageCall) → Progress c.Reply
  | .become s => .reply () (w.setLink (w.link.become s))
  | .teardown => .reply () ((w.count "teardown").teardownNow)
  | .connect => w.connect
  | .backoff attempt =>
    match hold with
    | .sleeping due => w.sleepOrEnd endsSeen due
    | _ => w.sleepOrEnd endsSeen (w.time + ceilMillis (w.settings.retry.delay attempt))
  | .served => .reply w.supervisor.slots.keys w
  | .drop t => .reply () (w.dropConsumer t)
  | .wanted => .reply w.registry.topics w
  | .ensure t => let (started, w) := w.ensure t; .reply started w
  | .publish c => w.performPublish hold c
  | .awaitLoss =>
    if w.link.state = .down then .reply false w
    else if endsSeen < w.ends then .reply true w
    else .wait .fresh [.linkDown, .shutdown] none w
  | .close => .reply () ((w.count "close").teardownNow)

/-! ## Viewers' connections -/

/-- The octets that a text takes on the wire. -/
def frameSize (payload : String) : Nat :=
  let n := payload.utf8ByteSize
  n + if n < 126 then 2 else if n < 65536 then 4 else 10

def modifyConnection (w : World) (s : SocketId) (f : Connection → Connection) : World :=
  { w with connections := w.connections.modify s f }

/-- Writes a frame to a client. A client that does not read has to have room for it, which is waited
for until the time `due`. Answers whether the frame was written. -/
def writeFrame (w : World) (s : SocketId) (frame : Frame) (size : Nat) (due : Option Nat) :
    Progress Bool :=
  match w.connections.get? s with
  | none => .reply false w
  | some c =>
    if c.gone then .reply false w
    else if !c.stalled then
      .reply true (w.modifyConnection s fun c => { c with got := c.got ++ [frame] })
    else if c.used + size ≤ c.capacity then
      .reply true (w.modifyConnection s fun c => { c with used := c.used + size })
    else
      match due with
      | none => .wait .forever [.socket s] none w
      | some due =>
        if due ≤ w.time then .reply false w
        else .wait (.sleeping due) [.socket s] (some due) w

/-- What happens next to a connection, if anything. -/
def nextEvent (w : World) (s : SocketId) (v : ViewerId) : Option SocketEvent × World :=
  match w.connections.get? s with
  | none => (some .left, w)
  | some c =>
    match c.sent with
    | .close :: _ => (some .left, w)
    | .data :: rest => (some .inbound, w.modifyConnection s fun c => { c with sent := rest })
    | [] =>
      if c.gone then (some .left, w)
      else
        match w.registry.next v with
        | (.payload text, registry) => (some (.payload text), { w with registry })
        | (.closed, _) => (some .closed, w)
        | (.empty, _) => if w.appShutdown then (some .shutdown, w) else (none, w)

/-- Answers a connection. -/
def performSocket (w : World) (hold : Hold) (s : SocketId) : (c : SocketCall) → Progress c.Reply
  | .register t =>
    let (v, registry) := w.registry.newViewer w.settings.viewerBuffer
    .reply v { w with registry := (registry.add t v).2 }
  | .ensure t => .reply () (w.ensure t).2
  | .store c => w.performStore c
  | .writeFirst payload =>
    (w.writeFrame s (.text payload) (frameSize payload) none).map fun _ => ()
  | .write payload =>
    let due := match hold with
      | .sleeping due => due
      | _ => w.time + w.settings.writeTimeout
    w.writeFrame s (.text payload) (frameSize payload) (some due)
  | .writeClose => (w.writeFrame s .close 2 none).map fun _ => ()
  | .await v =>
    match w.nextEvent s v with
    | (some e, w) => .reply e w
    | (none, w) => .wait .fresh [.socket s, .inbox v, .appShutdown] none w
  | .remove t v =>
    let (found, registry) := w.registry.remove t v
    .reply () (w.setRegistry (if found then registry.close v else registry) [v])

/-! ## Everything -/

/-- The program of a publication on a task of its own. -/
def publicationProgram (v : RoomView) : Program Calls Next :=
  ((Publish.publishView v).lift fun c => .ask (S := Calls) (.publish c) .done).bind fun r =>
    .done (.answered (.published r))

/-- Hands a view to the publisher. -/
def broadcast (w : World) (v : RoomView) : TaskId × World :=
  w.spawn (publicationProgram v)

/-- Answers a call of a task. -/
def perform (w : World) (task : Task) : (c : Call) → Progress c.Reply
  | .store c => w.performStore c
  | .publish c => w.performPublish task.hold c
  | .consume c => w.performConsume task.hold task.notice c
  | .manage c => w.performManage task.hold task.endsSeen c
  | .socket s c => w.performSocket task.hold s c
  | .spawnPublish v => let (t, w) := w.broadcast v; .reply t w
  | .health => .reply ⟨w.link.state, w.registry.total, w.supervisor.active.length⟩ w
  | .time => .reply w.time w
  | .sleep ms =>
    let due := match task.hold with
      | .sleeping due => due
      | _ => w.time + ms
    if due ≤ w.time then .reply () w else .wait (.sleeping due) [] (some due) w
  | .tick due =>
    if task.endsSeen < w.ends then .reply none w
    else if due ≤ w.time then .reply (some w.time) w
    else .wait .fresh [.shutdown] (some due) w
  | .join t =>
    match w.results.get? t with
    | some a => .reply a w
    | none => .wait .fresh [.finished t] none w
  | .shutdown => .reply () ({ w with ends := w.ends + 1 }.wake .shutdown)
  | .connect => w.connect
  | .declare t limit => w.declare t limit
  | .put t payload => w.put t payload
  | .receive t ms => w.receive task.hold task.notice t ms []
  | .ack t => w.ack t

end World

end Occupancy.Simulation
