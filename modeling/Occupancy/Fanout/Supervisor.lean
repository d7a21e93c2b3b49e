import Occupancy.Table
import Occupancy.Topic

/-!
# Consumers

Bookkeeping of the tasks that read the queues: one consumer for each topic with viewers. Every
consumer has a generation of its own. The slot of a topic names the generation that serves it;
starting a consumer, retiring one and cancelling one are each one indivisible step on the slot.
-/

namespace Occupancy

/-- Number of a consumer, never used twice. -/
abbrev Generation := Nat

/-- What is known of a consumer task. -/
structure Consumer where
  topic : Topic
  cancelled : Bool := false
  finished : Bool := false
deriving DecidableEq

/-- Has the consumer neither been told to stop nor stopped? -/
def Consumer.isRunning (c : Consumer) : Bool :=
  !c.cancelled && !c.finished

/-- The slots of the topics and all consumers started so far. -/
structure Supervisor where
  slots : Table Topic Generation := ∅
  consumers : Table Generation Consumer := ∅
  nextGeneration : Generation := 1

namespace Supervisor

def isRunning (s : Supervisor) (g : Generation) : Bool :=
  ((s.consumers.get? g).map Consumer.isRunning).getD false

/-- Was the consumer of a generation told to stop? -/
def isCancelled (s : Supervisor) (g : Generation) : Bool :=
  ((s.consumers.get? g).map (·.cancelled)).getD true

/-- Tells the consumer of a generation to stop. -/
def cancel (s : Supervisor) (g : Generation) : Supervisor :=
  { s with consumers := s.consumers.modify g fun c => { c with cancelled := true } }

/-- Notes that the consumer of a generation has stopped. -/
def finish (s : Supervisor) (g : Generation) : Supervisor :=
  { s with consumers := s.consumers.modify g fun c => { c with finished := true } }

/-- Starts a consumer for a topic unless the slot holds a running one. Answers the generation of the
started consumer. A consumer that had left its slot behind is cancelled. -/
def ensure (s : Supervisor) (t : Topic) : Option Generation × Supervisor :=
  let start (s : Supervisor) : Option Generation × Supervisor :=
    (some s.nextGeneration, { s with
      slots := s.slots.set t s.nextGeneration
      consumers := s.consumers.set s.nextGeneration ⟨t, false, false⟩
      nextGeneration := s.nextGeneration + 1 })
  match s.slots.get? t with
  | none => start s
  | some g => if s.isRunning g then (none, s) else start (s.cancel g)

/-- Empties the slot of a topic if it holds generation `g` and the topic has no viewers. Answers
whether it did. -/
def retire (s : Supervisor) (t : Topic) (g : Generation) (viewers : Nat) : Bool × Supervisor :=
  if s.slots.get? t = some g ∧ viewers = 0 then (true, { s with slots := s.slots.erase t })
  else (false, s)

/-- Cancels the consumer in the slot of a topic and empties the slot. -/
def drop (s : Supervisor) (t : Topic) : Supervisor :=
  match s.slots.get? t with
  | none => s
  | some g => { s.cancel g with slots := s.slots.erase t }

/-- Cancels every consumer that is in a slot. -/
def dropAll (s : Supervisor) : Supervisor :=
  s.slots.keys.foldl drop s

/-- The topics with a running consumer, in order. -/
def active (s : Supervisor) : List Topic :=
  Topic.sort ((s.slots.entries.filter fun (_, g) => s.isRunning g).map Prod.fst)

end Supervisor

end Occupancy
