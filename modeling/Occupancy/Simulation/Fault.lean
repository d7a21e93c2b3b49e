import Occupancy.Error
import Occupancy.Topic

/-!
# Injected faults

A simulation can make the next calls of a kind fail, or never return. Of several faults that match a
call the first one that is not used up counts.
-/

namespace Occupancy.Simulation

/-- The kinds of calls to the store. -/
inductive StoreOp where
  | assign
  | apply
  | roomView
  | roomViews
  | setActive
  | finalizeExpired
deriving DecidableEq

/-- The kinds of calls to the broker that can fail. -/
inductive BrokerOp where
  | connect
  | declare
  | publish
  | receive
  | ack
deriving DecidableEq

/-- A fault: the calls it matches, what becomes of them, and for how many of them. Without an error
the calls never return. -/
structure Fault (κ : Type) (ε : Type) where
  /-- Does a call match? -/
  applies : κ → Bool
  error : Option ε
  times : Nat

/-- What becomes of a call. -/
inductive Verdict (ε : Type) where
  | pass
  | fail (e : ε)
  | hang

/-- A call to the store: its kind, and the room or device it is about, or zero. -/
abbrev StoreTarget := StoreOp × Word

/-- A call to the broker: its kind, and its topic if it has one. -/
abbrev BrokerTarget := BrokerOp × Option Topic

/-- What becomes of a call, and the faults that are left. -/
def judge {κ ε : Type} (k : κ) : List (Fault κ ε) → Verdict ε × List (Fault κ ε)
  | [] => (.pass, [])
  | f :: rest =>
    if f.applies k && 0 < f.times then
      (match f.error with
        | some e => .fail e
        | none => .hang,
       { f with times := f.times - 1 } :: rest)
    else
      let (v, rest) := judge k rest
      (v, f :: rest)

/-- A fault of the store. Without a number it matches every room or device. -/
def storeFault (op : StoreOp) (id : Option Word) (error : Option RoomError) (times : Nat) :
    Fault StoreTarget RoomError where
  applies := fun (op', id') => op' = op && (id.isNone || id = some id')
  error := error
  times := times

/-- A fault of the broker. Without a topic it matches every call of its kind. -/
def brokerFault (op : BrokerOp) (topic : Option Topic) (error : Option BrokerError) (times : Nat) :
    Fault BrokerTarget BrokerError where
  applies := fun (op', topic') => op' = op && (topic.isNone || topic = topic')
  error := error
  times := times

end Occupancy.Simulation
