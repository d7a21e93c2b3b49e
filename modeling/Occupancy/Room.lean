import Occupancy.Error
import Occupancy.Json.Reader

/-!
# Rooms and devices

The fixed data of a rental branch: rooms, and the devices whose activity follows the session of the
room they are linked to. Both are read from seed files and shown inside views.
-/

namespace Occupancy

/-- Operational state of a room. -/
inductive RoomState where
  | active
  | inactive
  | deleted
deriving DecidableEq

namespace RoomState

/-- The stored name of a state. -/
def text : RoomState → String
  | .active => "active"
  | .inactive => "inactive"
  | .deleted => "deleted"

/-- The state with a stored name. -/
def ofText? (s : String) : Option RoomState :=
  if s = "active" then some .active
  else if s = "inactive" then some .inactive
  else if s = "deleted" then some .deleted
  else none

end RoomState

/-- A room that is let by the hour. -/
structure Room where
  id : RoomId
  branch : BranchId
  name : String
  state : RoomState
  /-- The device that follows the room's session. -/
  device : Option DeviceId
deriving DecidableEq

/-- A device whose activity follows a room's session. -/
structure Device where
  id : DeviceId
  name : String
  owner : Option UserId
  active : Bool
deriving DecidableEq

/-! ## JSON -/

open Json

def Room.toJson (r : Room) : Value :=
  .object
    [("id", .word r.id), ("branchId", .word r.branch), ("name", .text r.name),
     ("state", .text r.state.text), ("deviceId", .option .word r.device)]

def Device.toJson (d : Device) : Value :=
  .object
    [("id", .word d.id), ("name", .text d.name), ("ownerUserId", .option .word d.owner),
     ("active", .bool d.active)]

/-- A room of which some fields have been read. -/
structure Room.Draft where
  id : Option RoomId := none
  branch : Option BranchId := none
  name : Option String := none
  state : Option RoomState := none
  device : Option (Option DeviceId) := none

/-- The fields of a room. The device may be left out. -/
def Room.fields : List (Member Room.Draft) :=
  [.of "id" Tree.readWord (·.id) fun d v => { d with id := some v },
   .of "branchId" Tree.readWord (·.branch) fun d v => { d with branch := some v },
   .of "name" Tree.readText (·.name) fun d v => { d with name := some v },
   .of "state" (Tree.readName RoomState.ofText?) (·.state) fun d v => { d with state := some v },
   .of "deviceId" (Tree.readOption Tree.readWord) (·.device)
    (fun d v => { d with device := some v }) true]

/-- The room of a draft, unless a field is missing. -/
def Room.Draft.finish (d : Room.Draft) : Option Room := do
  some ⟨← d.id, ← d.branch, ← d.name, ← d.state, d.device.getD none⟩

def Room.read : Reader Room :=
  readRecord Room.fields {} Room.Draft.finish

/-- A device of which some fields have been read. -/
structure Device.Draft where
  id : Option DeviceId := none
  name : Option String := none
  owner : Option (Option UserId) := none
  active : Option Bool := none

/-- The fields of a device. Owner and activity may be left out. -/
def Device.fields : List (Member Device.Draft) :=
  [.of "id" Tree.readWord (·.id) fun d v => { d with id := some v },
   .of "name" Tree.readText (·.name) fun d v => { d with name := some v },
   .of "ownerUserId" (Tree.readOption Tree.readWord) (·.owner)
    (fun d v => { d with owner := some v }) true,
   .of "active" Tree.readBool (·.active) (fun d v => { d with active := some v }) true]

/-- The device of a draft, unless a field is missing. -/
def Device.Draft.finish (d : Device.Draft) : Option Device := do
  some ⟨← d.id, ← d.name, d.owner.getD none, d.active.getD false⟩

def Device.read : Reader Device :=
  readRecord Device.fields {} Device.Draft.finish

end Occupancy
