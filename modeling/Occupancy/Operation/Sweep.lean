import Occupancy.Fanout.Publisher
import Occupancy.Operation.Engine

/-!
# Sweeps

A sweep finalizes every expired session and publishes the rooms it touched. A room whose view cannot
be read or published is passed over. A second sweep right after finds nothing to do.
-/

namespace Occupancy

inductive SweepCall where
  | store (c : StoreCall)
  | publish (c : PublishCall)

def SweepCall.Reply : SweepCall → Type
  | .store c => c.Reply
  | .publish c => c.Reply

abbrev SweepCalls : Signature :=
  ⟨SweepCall, SweepCall.Reply⟩

/-- Outcome of a sweep. -/
structure SweepReport where
  /-- Rooms whose session was finalized. -/
  finalized : List RoomId := []
  /-- Rooms whose view reached every topic. -/
  published : List RoomId := []
deriving DecidableEq

namespace Sweep

abbrev Pass (α : Type) :=
  Program SweepCalls α

/-- An operator action as part of a sweep. -/
def ofAction {α : Type} (p : Operation.Action α) : Pass α :=
  p.lift fun c => .ask (.store c) .done

def ofPublication {α : Type} (p : Publish.Publication α) : Pass α :=
  p.lift fun c => .ask (.publish c) .done

/-- Reads the views of rooms one by one and leaves out those that fail. -/
def viewEach : List RoomId → Pass (List RoomView)
  | [] => .done []
  | room :: rest =>
    (ofAction (Operation.view room)).bind fun
      | .ok v => (viewEach rest).bind fun vs => .done (v :: vs)
      | .error _ => viewEach rest

/-- Reads the views of rooms, together if possible. -/
def readViews (rooms : List RoomId) : Pass (List RoomView) :=
  (ofAction (Operation.views rooms)).bind fun
    | .ok vs => .done vs
    | .error _ => viewEach rooms

/-- Publishes views and results in the rooms whose view reached every topic. -/
def publishEach : List RoomView → Pass (List RoomId)
  | [] => .done []
  | v :: rest =>
    (ofPublication (Publish.publishView v)).bind fun report =>
    (publishEach rest).bind fun rooms =>
    .done (if report.failed.isEmpty then v.room :: rooms else rooms)

/-- One sweep. -/
def once : Pass SweepReport :=
  (ofAction Operation.finalizeExpired).bind fun
    | .error _ => .done {}
    | .ok [] => .done {}
    | .ok rooms =>
      (readViews rooms).bind fun views =>
      (publishEach views).bind fun published =>
      .done { finalized := rooms, published }

end Sweep

end Occupancy
