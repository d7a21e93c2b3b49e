import Occupancy.Fanout.Socket
import Occupancy.Http.Routes
import Occupancy.Operation.Sweep
import Occupancy.Proofs.Fanout.Conflation
import Occupancy.Proofs.Fanout.Floor
import Occupancy.Proofs.Fanout.Frames
import Occupancy.Proofs.Operation.Interleaving

/-!
# A server and the frames that its viewers get

The store with its clock, the payloads held back, the feed from the broker to the viewers, and the
connections of the viewers. Requests, sweeps and flushes are errands: one of them at a time is under way,
with whatever it publishes, and the next begins when it is over. Connections, consumers, the connection to
the broker and the clock go on at any time in between. A list of turns is therefore any run in which every
publication is complete before the next request starts.

Errands and connections run their own programs, one request a turn. What is written to a client is noted.
-/

namespace Occupancy

/-! ## Errands -/

/-- Something that the server does from its begin to its end before it does the next such thing. -/
inductive Errand where
  | request (r : Http.Request) (health : Http.Health)
  | sweep
  /-- The link sends what was held back. -/
  | flush

namespace Errand

/-- A call of a route, with the publication of a view where the view is handed over. No route does
anything after that. -/
def call (health : Http.Health) : (c : Http.RouteCall) → Sweep.Pass c.Reply
  | .store c => .ask (.store c) .done
  | .broadcast v => (Sweep.ofPublication (Publish.publishView v)).bind fun _ => .done ()
  | .health => .done health

def serve {α : Type} (health : Http.Health) (p : Program Http.RouteCalls α) : Sweep.Pass α :=
  p.lift (call health)

def program : Errand → Sweep.Pass Unit
  | .request r health => (serve health (Http.handle r)).bind fun _ => .done ()
  | .sweep => Sweep.once.bind fun _ => .done ()
  | .flush => (Sweep.ofPublication Publish.flush).bind fun _ => .done ()

end Errand

/-! ## Connections -/

/-- What a connection that waits may meet, apart from what is in its viewer's queue. -/
inductive Stir where
  | inbound
  | left
  | shutdown

def Stir.event : Stir → SocketEvent
  | .inbound => .inbound
  | .left => .left
  | .shutdown => .shutdown

/-- What the surroundings decide in a turn. -/
structure Chance where
  /-- The number of a session that is opened. -/
  id : SessionId := .ofNat 1
  /-- Is the link up? -/
  up : Bool := true
  /-- A failure of a call before it comes to the broker. -/
  failure : Option BrokerError := none
  /-- The room for payloads of a viewer that joins. -/
  buffer : Nat := 8
  /-- Does a frame come through to the client? -/
  written : Bool := true
  /-- What a waiting connection meets before it turns to the queue. -/
  stir : Option Stir := none

/-- A viewer's connection, with the frames that came through to its client. -/
structure Client where
  topic : Topic
  rest : Socket.Stretch
  viewer : Option ViewerId := none
  /-- When the clock was read for the first view. -/
  asked : Option Instant := none
  /-- Was nothing on its way to the viewer then? -/
  calm : Bool := false
  /-- The first view. -/
  greeting : Option String := none
  /-- The payloads that were forwarded. -/
  forwarded : List String := []

namespace Client

/-- A client that opens a connection. -/
def new (t : Topic) : Client :=
  { topic := t, rest := Socket.start t }

/-- The views written to the client, in order. -/
def frames (c : Client) : List String :=
  c.greeting.toList ++ c.forwarded

def note (c : Client) (calm written : Bool) : (call : SocketCall) → call.Reply → Client
  | .register _, v => { c with viewer := some v }
  | .store .now, now => { c with asked := some now, calm }
  | .writeFirst p, _ => if written then { c with greeting := some p } else c
  | .write p, _ => if written then { c with forwarded := c.forwarded ++ [p] } else c
  | _, _ => c

end Client

/-! ## The system -/

/-- The server with its clients. -/
structure Venue where
  store : Store
  clock : Instant
  pending : Pending := {}
  feed : Feed := {}
  /-- What is left of the errand under way. -/
  errand : Sweep.Pass Unit := .done ()
  clients : List Client := []

/-- Is the turn one of consumers or of the connection to the broker? -/
def Feed.Turn.isBrokers : Feed.Turn → Bool
  | .consume _ | .resume _ _ | .connect | .sever | .refuse _ | .teardown | .declare _ => true
  | _ => false

namespace Venue

/-- The server before its first turn. -/
def start (seed : Seed) (clock : Instant) : Venue :=
  { store := Store.ofSeed seed, clock }

def isIdle (w : Venue) : Bool :=
  match w.errand with
  | .done _ => true
  | .ask _ _ => false

def onFeed (w : Venue) (turn : Feed.Turn) : Venue :=
  { w with feed := w.feed.step turn }

/-- Is nothing on its way to a viewer of a topic? No errand is under way, nothing is held back for the
topic, and nothing is unread in its queue or in that of the viewer. -/
def isCalm (w : Venue) (t : Topic) (v : Option ViewerId) : Bool :=
  w.isIdle && (w.pending.held.get? t).isNone && w.feed.broker.depth t = 0 &&
    (v.bind w.feed.registry.viewers.get?).all fun viewer => viewer.waiting.isEmpty

/-- Answers a publication. -/
def publish (w : Venue) (o : Chance) : (c : PublishCall) → c.Reply × Venue
  | .stamp =>
    (w.pending.nextStamp, { w with pending := { w.pending with nextStamp := w.pending.nextStamp + 1 } })
  | .linkUp => (o.up, w)
  | .send t payload =>
    match o.failure with
    | some e => (.error e, w)
    | none =>
      let w := w.onFeed (.declare t)
      match w.feed.broker.publish t payload with
      | .ok _ => (.ok (), w.onFeed (.publish t payload))
      | .error e => (.error e, w)
  | .report _ => ((), w)
  | .hold t h => ((), { w with pending := w.pending.hold t h })
  | .settle t => ((), { w with pending := w.pending.settle t })
  | .settleSame t stamp => ((), { w with pending := w.pending.settleSame t stamp })
  | .heldTopics => (w.pending.topics, w)
  | .held t => (w.pending.held.get? t, w)

def serve (w : Venue) (o : Chance) : (c : SweepCall) → c.Reply × Venue
  | .store c =>
    let (r, store) := w.store.answer w.clock o.id c
    (r, { w with store })
  | .publish c => w.publish o c

/-- The next turn of the errand. -/
def work (w : Venue) (o : Chance) : Venue :=
  match w.errand with
  | .done _ => w
  | .ask c next =>
    let (r, w) := w.serve o c
    { w with errand := next r }

/-- Answers a connection, unless it has to wait. -/
def attend (w : Venue) (o : Chance) : (c : SocketCall) → Option (c.Reply × Venue)
  | .register t => some (w.feed.registry.nextViewer, w.onFeed (.join t o.buffer))
  -- a consumer may turn to the queue at any time
  | .ensure _ => some ((), w)
  | .store c =>
    let (r, store) := w.store.answer w.clock o.id c
    some (r, { w with store })
  | .writeFirst _ => some ((), w)
  | .write _ => some (o.written, w)
  | .writeClose => some ((), w)
  | .await v =>
    match o.stir with
    | some e => some (e.event, w)
    | none =>
      match (w.feed.registry.next v).1 with
      | .payload p => some (SocketEvent.payload p, w.onFeed (.take v))
      | .closed => some (SocketEvent.closed, w)
      | .empty => none
  | .remove t v =>
    let found := v ∈ w.feed.registry.snapshot t
    let w := (w.onFeed (.leave t v)).onFeed (.prune t)
    some ((), if found then w.onFeed (.close v) else w)

/-- The next turn of a connection. -/
def clientTurn (w : Venue) (i : Nat) (o : Chance) : Venue :=
  match w.clients[i]? with
  | none => w
  | some c =>
    match c.rest with
    | .done (.again v) => { w with clients := w.clients.set i { c with rest := Socket.round c.topic v } }
    | .done .ended => w
    | .ask call next =>
      match w.attend o call with
      | none => w
      | some (r, w') =>
        let c := c.note (w.isCalm c.topic c.viewer) o.written call r
        { w' with clients := w.clients.set i { c with rest := next r } }

/-- What may happen next. -/
inductive Turn where
  /-- An errand begins, unless one is under way. -/
  | begin (e : Errand)
  | work (o : Chance)
  /-- The clock goes on to an instant, but not back. -/
  | tick (now : Instant)
  /-- A consumer turns to a queue, or something happens to the connection to the broker. -/
  | broker (turn : Feed.Turn) (own : turn.isBrokers = true)
  /-- A client opens a connection. -/
  | arrive (t : Topic)
  | client (i : Nat) (o : Chance)

def step (w : Venue) : Turn → Venue
  | .begin e => if w.isIdle then { w with errand := e.program } else w
  | .work o => w.work o
  | .tick now => if w.clock ≤ now then { w with clock := now } else w
  | .broker turn _ => w.onFeed turn
  | .arrive t => { w with clients := w.clients ++ [.new t] }
  | .client i o => w.clientTurn i o

def run (seed : Seed) (clock : Instant) (turns : List Turn) : Venue :=
  turns.foldl step (start seed clock)

end Venue

/-! ## The simulated server -/

namespace Simulation

theorem Progress.map_id {β : Type} (p : Progress β) : p.map id = p := by
  cases p <;> rfl

/-- A connection is answered as in a venue, with some chance, or it waits and leaves the store and the
registry alone. -/
def Progress.Attends (v : Venue) (c : SocketCall) : Progress c.Reply → Prop
  | .reply r w => ∃ o v', v.attend o c = some (r, v') ∧ v'.store = w.store ∧
      v'.feed.registry = w.registry
  | .wait _ _ _ w => w.store = v.store ∧ w.registry = v.feed.registry

namespace World

/-- What connections share, apart from the clock. -/
def shared (w : World) : Store × Registry :=
  (w.store, w.registry)

theorem aloof_shared : Aloof shared :=
  ⟨fun _ _ => rfl, fun _ _ => rfl, fun _ _ => rfl, fun _ _ => rfl⟩

/-- The store's calls leave the registry. -/
theorem leaves_performStore (w : World) (c : StoreCall) :
    (w.performStore c).Leaves registry w.registry := by
  cases c with
  | now => rfl
  | assign | apply | finalizeExpired | view | views | setActive =>
    simp only [performStore, onStore]
    repeat' split
    all_goals rfl

theorem leaves_writeFrame (w : World) (s : SocketId) (frame : Frame) (size : Nat) (due : Option Nat) :
    (w.writeFrame s frame size due).Leaves shared w.shared := by
  unfold writeFrame
  repeat' split
  all_goals rfl

/-- Starting a consumer leaves the store and the registry. -/
theorem shared_ensure (w : World) (t : Topic) : (w.ensure t).2.shared = w.shared := by
  unfold ensure
  split
  · rfl
  · simp only
    split
    · rfl
    · split
      · exact aloof_shared.wake _ _
      · rfl

section

variable {w : World} {v : Venue} (same : (v.store, v.feed.registry) = w.shared)

include same

/-- What leaves all that is shared alone may be answered in any way that is possible in the venue. -/
theorem attends_of_leaves {β : Type} {c : SocketCall} {f : β → c.Reply} {p : Progress β}
    (leaves : p.Leaves shared w.shared) (possible : ∀ b, ∃ o, v.attend o c = some (f b, v)) :
    (p.map f).Attends v c := by
  cases p with
  | reply b w' =>
    obtain ⟨o, hattend⟩ := possible b
    obtain ⟨hstore, hregistry⟩ := Prod.mk.inj (same.trans leaves.symm)
    exact ⟨o, v, hattend, hstore, hregistry⟩
  | wait hold interests due w' => exact Prod.mk.inj (leaves.trans same.symm)

/-- What a connection waits for happens in the venue as it does in the world. -/
theorem attends_await (hold : Hold) (s : SocketId) (i : ViewerId) :
    (w.performSocket hold s (.await i)).Attends v (.await i) := by
  obtain ⟨store, registry⟩ := Prod.mk.inj same
  have stirred : ∀ (stir : Stir) {w' : World}, w'.shared = w.shared →
      Progress.Attends v (.await i) (.reply stir.event w') := fun stir w' leaves =>
    attends_of_leaves (c := .await i) (f := Stir.event) (p := .reply stir w') same leaves fun stir =>
      ⟨{ stir := some stir }, rfl⟩
  simp only [performSocket, nextEvent]
  cases w.connections.get? s with
  | none => exact stirred .left rfl
  | some connection =>
    simp only
    cases connection.sent with
    -- first whatever the peer sent, then whether it is gone
    | cons first rest =>
      cases first with
      | close => exact stirred .left rfl
      | data => exact stirred .inbound rfl
    | nil =>
      simp only
      cases connection.gone with
      | true => exact stirred .left rfl
      | false =>
        simp only [Bool.false_eq_true, if_false]
        -- the connection turns to the queue only when nothing else happened
        rcases hnext : w.registry.next i with ⟨next, registry'⟩
        cases next with
        | payload p =>
          refine ⟨{}, v.onFeed (.take i), ?_, store, ?_⟩
          · simp only [Venue.attend, registry, hnext]
          · simp only [Venue.onFeed, Feed.step, registry, hnext]
        | closed =>
          refine ⟨{}, v, ?_, store, registry⟩
          simp only [Venue.attend, registry, hnext]
        | empty =>
          -- nothing to take, so the connection waits, unless everything is shut down
          simp only
          cases w.appShutdown with
          | true => exact stirred .shutdown rfl
          | false => exact ⟨store.symm, registry.symm⟩

/-- Removing a viewer is leaving, pruning and closing. -/
theorem attends_remove (hold : Hold) (s : SocketId) (t : Topic) (i : ViewerId) :
    (w.performSocket hold s (.remove t i)).Attends v (.remove t i) := by
  obtain ⟨store, registry⟩ := Prod.mk.inj same
  have hset : ∀ r, (w.setRegistry r [i]).shared = (w.store, r) := fun r =>
    aloof_shared.wake { w with registry := r } (.inbox i)
  have hfound : ∀ r : Registry, (r.remove t i).1 = decide (i ∈ r.snapshot t) := by
    intro r
    unfold Registry.remove Registry.takeOut
    by_cases hlisted : i ∈ r.snapshot t <;> simp [hlisted]
  simp only [performSocket, ← registry, hfound, decide_eq_true_eq]
  -- a viewer that was listed is told to close
  by_cases hlisted : i ∈ v.feed.registry.snapshot t
  · rw [if_pos hlisted]
    obtain ⟨hstore, hregistry⟩ := Prod.mk.inj (hset ((v.feed.registry.remove t i).2.close i))
    refine ⟨{}, ((v.onFeed (.leave t i)).onFeed (.prune t)).onFeed (.close i), ?_,
      store.trans hstore.symm, hregistry.symm⟩
    simp only [Venue.attend, if_pos hlisted]
  · rw [if_neg hlisted]
    obtain ⟨hstore, hregistry⟩ := Prod.mk.inj (hset (v.feed.registry.remove t i).2)
    refine ⟨{}, (v.onFeed (.leave t i)).onFeed (.prune t), ?_, store.trans hstore.symm, hregistry.symm⟩
    simp only [Venue.attend, if_neg hlisted]

/-- **Connections.** The simulated server answers a connection as in a venue with its store, its clock and
its registry. -/
theorem attends_performSocket (clock : v.clock = w.now) (faultless : w.storeFaults = []) (hold : Hold)
    (s : SocketId) (c : SocketCall) : (w.performSocket hold s c).Attends v c := by
  obtain ⟨store, registry⟩ := Prod.mk.inj same
  -- each call is a turn of the feed or leaves the venue alone
  cases c with
  | register t =>
    refine ⟨{ buffer := w.settings.viewerBuffer }, v.onFeed (.join t w.settings.viewerBuffer), ?_,
      store, ?_⟩
    · exact registry ▸ rfl
    · exact registry ▸ rfl
  | ensure t =>
    have leaves : Progress.Leaves shared w.shared (.reply () (w.ensure t).2) := shared_ensure w t
    exact attends_of_leaves (c := .ensure t) (f := id) same leaves fun _ => ⟨{}, rfl⟩
  | store c =>
    obtain ⟨w', hw', hstore⟩ := performStore_eq w faultless c
    have hregistry := leaves_performStore w c
    simp only [performSocket]
    -- without faults the store answers, and it is the venue's store
    rw [hw'] at hregistry ⊢
    rw [← store, ← clock] at hstore ⊢
    exact ⟨{ id := .ofNat (w.opened + 1) }, _, rfl, hstore.symm, registry.trans hregistry.symm⟩
  | writeFirst p => exact attends_of_leaves same (leaves_writeFrame w s _ _ _) fun _ => ⟨{}, rfl⟩
  | writeClose => exact attends_of_leaves same (leaves_writeFrame w s _ _ _) fun _ => ⟨{}, rfl⟩
  | write p =>
    simp only [performSocket]
    rw [← Progress.map_id (w.writeFrame s (.text p) (frameSize p) _)]
    exact attends_of_leaves (c := .write p) (f := id) same (leaves_writeFrame w s _ _ _)
      fun written => ⟨{ written }, rfl⟩
  | await i => exact attends_await same hold s i
  | remove t i => exact attends_remove same hold s t i

end

end World

end Simulation

end Occupancy
