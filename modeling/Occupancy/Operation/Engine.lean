import Occupancy.Program
import Occupancy.Store.Basic

/-!
# Operator actions

Every action on a room takes the time, has the store commit the change, and then brings the linked
device in line with the new state. The change is durable once committed, so a failing device is
passed over and the action still succeeds.
-/

namespace Occupancy

/-- What an action asks of the clock, the store and the devices. -/
inductive StoreCall where
  | now
  | assign (room : RoomId) (customer : Option Word) (duration : Word) (now : Instant)
  | apply (room : RoomId) (t : Transition) (now : Instant)
  | finalizeExpired (now : Instant)
  | view (room : RoomId) (now : Instant)
  | views (rooms : List RoomId) (now : Instant)
  | setActive (device : DeviceId) (active : Bool)
deriving DecidableEq

/-- The replies of the clock, the store and the devices. -/
def StoreCall.Reply : StoreCall → Type
  | .now => Instant
  | .assign _ _ _ _ => Except RoomError Commit
  | .apply _ _ _ => Except RoomError Commit
  | .finalizeExpired _ => Except RoomError (List Commit)
  | .view _ _ => Except ViewError RoomView
  | .views _ _ => Except ViewError (List RoomView)
  | .setActive _ _ => Except RoomError Unit

/-- The requests of operator actions. -/
abbrev StoreCalls : Signature :=
  ⟨StoreCall, StoreCall.Reply⟩

namespace Operation

/-- A program over the clock, the store and the devices. -/
abbrev Action (α : Type) :=
  Program StoreCalls α

/-- Tells the device of a room its activity. A failure is passed over. -/
def syncDevice : Option DeviceId → Bool → Action Unit
  | none, _ => .done ()
  | some device, active => .ask (.setActive device active) fun _ => .done ()

/-- Tells the devices of several changes that they are inactive, in order. -/
def deactivateAll : List Commit → Action Unit
  | [] => .done ()
  | c :: rest => (syncDevice c.device false).bind fun _ => deactivateAll rest

/-- Opens a session and activates the device of the room. -/
def assign (room : RoomId) (customer : Option Word) (duration : Word) :
    Action (Except RoomError SessionId) :=
  .ask .now fun now =>
  .ask (.assign room customer duration now) fun
    | .error e => .done (.error e)
    | .ok c => (syncDevice c.device true).bind fun _ => .done (.ok c.session.id)

/-- Applies a transition and gives the device its activity, if the transition has one. -/
def transition (room : RoomId) (t : Transition) : Action (Except RoomError Commit) :=
  .ask .now fun now =>
  .ask (.apply room t now) fun
    | .error e => .done (.error e)
    | .ok c =>
      match t.deviceEffect with
      | none => .done (.ok c)
      | some active => (syncDevice c.device active).bind fun _ => .done (.ok c)

/-- Finalizes every expired session, then deactivates the devices of their rooms. Results in those
rooms. -/
def finalizeExpired : Action (Except RoomError (List RoomId)) :=
  .ask .now fun now =>
  .ask (.finalizeExpired now) fun
    | .error e => .done (.error e)
    | .ok commits =>
      (deactivateAll commits).bind fun _ => .done (.ok (commits.map (·.session.room)))

def view (room : RoomId) : Action (Except ViewError RoomView) :=
  .ask .now fun now => .ask (.view room now) .done

/-- The views of several rooms as of now. -/
def views (rooms : List RoomId) : Action (Except ViewError (List RoomView)) :=
  .ask .now fun now => .ask (.views rooms now) .done

end Operation

end Occupancy
