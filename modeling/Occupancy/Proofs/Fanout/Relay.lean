import Occupancy.Proofs.Fanout.Floor
import Occupancy.Proofs.Fanout.Supervisor

/-!
# Consumers, managers and viewers step by step

Everything that works on the link, the registry and the slots at once: consumers, viewers that arrive
and leave, managers of the link, lone restarts and shutdowns, and others that report failures. Each turn
is one indivisible step of one of them, and what the broker answers is left open, so that a list of turns
is any interleaving under any pattern of failures.

Consumers and keepers run the programs of `Consume` and `Manage`, one request a turn. Starting a consumer
is two turns, a look at the link and the step on the slot, since the link may change in between.
-/

namespace Occupancy

/-! ## Consumers -/

/-- How a consumer's life goes: it is live until something makes it stop. -/
inductive Course where
  | live
  /-- It noticed that it was told to stop. -/
  | cancelled
  /-- It left its slot, as nobody listened. -/
  | retired
  /-- It reported the loss of the connection. -/
  | lost
  /-- A declaration was answered with an error that is no loss of the connection. -/
  | refused
deriving DecidableEq

namespace Course

/-- The course of a live consumer after the reply to a request. -/
def met : (c : ConsumeCall) → c.Reply → Course
  | .declare _, (.error e : Except BrokerError Unit) => if e.isConnectionLoss then live else refused
  | .receive _ _, Received.cancelled => cancelled
  | .pause _, true => cancelled
  | .retire _ _, true => retired
  | .report e, _ => if e.isConnectionLoss then lost else live
  | _, _ => live

/-- The course after the reply to a request. What made the consumer stop first counts. -/
def after (k : Course) (c : ConsumeCall) (r : c.Reply) : Course :=
  if k = live then met c r else k

end Course

/-- A consumer task: what is left of its stretch, and how its life went. -/
structure Reader where
  topic : Topic
  rest : Consume.Stretch
  course : Course := .live

/-! ## Viewers that arrive -/

/-- A viewer that was added to a topic and has yet to see to a consumer. -/
structure Arrival where
  topic : Topic
  viewer : ViewerId
  /-- Did it find the link up? -/
  checked : Bool := false
deriving DecidableEq

/-! ## Keepers -/

/-- Whoever stops and restarts consumers: a manager of the link, a lone restart or a lone shutdown. -/
inductive Keeper where
  /-- A manager connects. -/
  | dialling (attempt : Nat) (p : Manage.Duty Manage.Dialled)
  /-- Consumers are restarted, by a manager or alone. `checked` tells that the link was found up for the
  consumer to be started next. -/
  | restarting (p : Manage.Duty Nat) (checked lone : Bool)
  /-- A manager flushes what was held back. -/
  | flushing (p : Publish.Publication PublishReport)
  /-- A manager waits for the loss of the connection. -/
  | waiting
  /-- A lone restart has ended. -/
  | rested
  /-- Consumers are stopped for good. -/
  | ending (p : Manage.Duty Unit)
  | ended

/-- Has the keeper restarted the consumers and not begun anew since? A manager that has brought the link up and is
yet to begin the restart has not, and a keeper that has begun to stop consumers for good never will. -/
def Keeper.isSettled : Keeper → Bool
  | .flushing _ | .waiting | .rested => true
  | _ => false

/-! ## The system -/

/-- The floor with everybody on it. -/
structure Relay extends Floor where
  readers : Table Generation Reader := ∅
  arrivals : List Arrival := []
  keepers : List Keeper := []

namespace Relay

/-- The step on the slot by which a consumer is started unless one runs. Answers whether it was. -/
def enter (w : Relay) (t : Topic) : Bool × Relay :=
  let (started, supervisor) := w.supervisor.ensure t
  match started with
  | none => (false, { w with supervisor })
  | some g => (true, { w with supervisor, readers := w.readers.set g ⟨t, Consume.start t, .live⟩ })

def consumerTurn (w : Relay) (g : Generation) (luck : Luck) : Relay :=
  match w.readers.get? g with
  | none => w
  | some r =>
    match r.rest with
    | .done .again =>
      { w with readers := w.readers.set g { r with rest := Consume.round r.topic g } }
    | .done .stopped => { w with supervisor := w.supervisor.finish g }
    | .ask c next =>
      -- the task goes on with the reply, and its course is noted beside it
      let (reply, floor) := w.toFloor.consume luck c
      { w with
        toFloor := floor
        readers := w.readers.set g { r with rest := next reply, course := r.course.after c reply } }

/-- The next turn of a viewer that arrives: it looks at the link, and sees to a consumer if that is up. -/
def arrivalTurn (w : Relay) (i : Nat) : Relay :=
  match w.arrivals[i]? with
  | none => w
  | some a =>
    -- the link is not looked at again, whatever became of it since
    if a.checked then { (w.enter a.topic).2 with arrivals := w.arrivals.eraseIdx i }
    else if w.link.isUp then { w with arrivals := w.arrivals.set i { a with checked := true } }
    else { w with arrivals := w.arrivals.eraseIdx i }

/-- The next turn of one keeper, with what it leaves of the keeper. -/
def keep (w : Relay) (luck : Luck) : Keeper → Keeper × Relay
  -- `Manage.serve` in its three parts: the restart, the flush, the wait for a loss
  | .dialling _ (.done .up) => (.restarting Manage.restart false false, w)
  | .dialling n (.done .retry) => (.dialling (n + 1) (Manage.dial (n + 1)), w)
  | .dialling _ (.done .shutdown) => (.ending Manage.finish, w)
  | .dialling n (.ask c next) =>
    let (reply, floor) := w.toFloor.manage luck c
    (.dialling n (next reply), { w with toFloor := floor })
  | .restarting (.done _) _ true => (.rested, w)
  | .restarting (.done _) _ false => (.flushing Publish.flush, w)
  -- a consumer is started in two turns
  | .restarting (.ask (.ensure t) next) true lone =>
    let (started, w) := w.enter t
    (.restarting (next started) false lone, w)
  | .restarting (.ask (.ensure t) next) false lone =>
    if w.link.isUp then (.restarting (.ask (.ensure t) next) true lone, w)
    else (.restarting (next false) false lone, w)
  | .restarting (.ask c next) _ lone =>
    let (reply, floor) := w.toFloor.manage luck c
    (.restarting (next reply) false lone, { w with toFloor := floor })
  | .flushing (.done _) => (.waiting, w)
  | .flushing (.ask c next) =>
    let (reply, floor) := w.toFloor.publish luck c
    (.flushing (next reply), { w with toFloor := floor })
  | .waiting =>
    if w.link.state = .down then (.dialling 0 (Manage.dial 0), w)
    else if luck.ended then (.ending Manage.finish, w)
    else (.waiting, w)
  | .rested => (.rested, w)
  | .ending (.done _) => (.ended, w)
  | .ending (.ask c next) =>
    let (reply, floor) := w.toFloor.manage luck c
    (.ending (next reply), { w with toFloor := floor })
  | .ended => (.ended, w)

/-- The next turn of the keeper at a place. -/
def keeperTurn (w : Relay) (i : Nat) (luck : Luck) : Relay :=
  match w.keepers[i]? with
  | none => w
  | some k =>
    let (k, w) := w.keep luck k
    { w with keepers := w.keepers.set i k }

/-- What may happen next. -/
inductive Turn where
  /-- A viewer's queue is made. -/
  | newViewer (buffer : Nat)
  /-- A viewer is added to a topic. -/
  | arrive (t : Topic) (v : ViewerId)
  /-- An arrival goes on. -/
  | arrival (i : Nat)
  /-- A viewer is taken out of a topic, as it leaves or a fan-out drops it. -/
  | takeOut (t : Topic) (v : ViewerId)
  | prune (t : Topic)
  | close (v : ViewerId)
  | detachSocket (v : ViewerId)
  /-- A viewer takes a payload from its queue. -/
  | take (v : ViewerId)
  | consumer (g : Generation) (luck : Luck)
  | keeper (i : Nat) (luck : Luck)
  /-- A manager begins, or a lone restart, or a lone shutdown. -/
  | manage
  | restart
  | shutdown
  /-- Somebody else, such as a publication, reports a failure. -/
  | report (e : BrokerError)

def step (w : Relay) : Turn → Relay
  | .newViewer buffer => { w with registry := (w.registry.newViewer buffer).2 }
  | .arrive t v =>
    { w with registry := (w.registry.add t v).2, arrivals := w.arrivals ++ [{ topic := t, viewer := v }] }
  | .arrival i => w.arrivalTurn i
  | .takeOut t v => { w with registry := (w.registry.takeOut t v).2 }
  | .prune t => { w with registry := w.registry.prune t }
  | .close v => { w with registry := w.registry.close v }
  | .detachSocket v => { w with registry := w.registry.detachSocket v }
  | .take v => { w with registry := (w.registry.next v).2 }
  | .consumer g luck => w.consumerTurn g luck
  | .keeper i luck => w.keeperTurn i luck
  | .manage => { w with keepers := w.keepers ++ [.dialling 0 (Manage.dial 0)] }
  | .restart => { w with keepers := w.keepers ++ [.restarting Manage.restart false true] }
  | .shutdown => { w with keepers := w.keepers ++ [.ending Manage.stopConsumers] }
  | .report e => { w with link := w.link.report e }

/-- The system after a list of turns, from nothing at all. -/
def run (turns : List Turn) : Relay :=
  turns.foldl step {}

/-- What holds at first and is kept by every turn of some kind holds after every list of such turns. -/
theorem run_induction {P : Relay → Prop} {A : Turn → Prop} (start : P {})
    (keeps : ∀ w turn, A turn → P w → P (w.step turn)) (turns : List Turn)
    (h : ∀ turn ∈ turns, A turn) : P (run turns) := by
  -- from any state, as the first turn changes where the rest begins
  have hfrom : ∀ w, P w → P (turns.foldl step w) := by
    induction turns with
    | nil => exact fun w hw => hw
    | cons turn rest ih =>
      intro w hw
      exact ih (fun turn hturn => h turn (List.mem_cons_of_mem _ hturn)) _
        (keeps w turn (h turn List.mem_cons_self) hw)
  exact hfrom {} start

/-! ## What is said of the system -/

/-- The consumer of a generation reads for a topic: it was neither told to stop, nor has it stopped or
retired. -/
def Serves (w : Relay) (t : Topic) (g : Generation) : Prop :=
  ∃ r c, w.readers.get? g = some r ∧ w.supervisor.consumers.get? g = some c ∧ r.topic = t ∧
    c.isRunning = true ∧ r.course ≠ .retired

/-- Was the consumer in the slot of a topic refused the declaration of its queue? -/
def Refused (w : Relay) (g : Generation) : Prop :=
  ∃ r, w.readers.get? g = some r ∧ r.course = .refused

/-- Is a viewer between its entry into a topic and the step that sees to a consumer? -/
def Arriving (w : Relay) (t : Topic) (v : ViewerId) : Prop :=
  ∃ a ∈ w.arrivals, a.topic = t ∧ a.viewer = v

/-- The link is up and every keeper has restarted the consumers since. This leaves out the moment between the link
coming up and the start of the restart, and every run in which a shutdown was begun: nobody restarts what it
stops, so its keeper stays unsettled to the end. -/
def Settled (w : Relay) : Prop :=
  w.link.isUp = true ∧ ∀ k ∈ w.keepers, k.isSettled = true

end Relay

/-- Does the broker answer every call that is made in the turn? -/
def Relay.Turn.Faultless : Relay.Turn → Prop
  | .consumer _ luck | .keeper _ luck => luck.Faultless
  | .report _ => False
  | _ => True

end Occupancy
