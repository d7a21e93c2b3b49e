import Occupancy.CommandLine
import Occupancy.Text.Decimal

/-!
# Arguments of the viewer

The viewer watches one room, every room of a branch, the room of a device, or all rooms. At most one
of these may be asked for, and a device needs its owner.
-/

namespace Occupancy.Viewer

open CommandLine

/-- What the command line of the viewer says. -/
structure Arguments where
  url : Option String := none
  room : Option Word := none
  branch : Option Word := none
  device : Option Word := none
  user : Option Word := none
  /-- Seconds between reports. -/
  reportInterval : Option UInt64 := none

namespace Arguments

def readable {β : Type} (value : Option β) : Except Refusal β :=
  match value with
  | some b => .ok b
  | none => .error .unreadableValue

def options : List (Opt Arguments) :=
  [{ name := "url", isGiven := (·.url.isSome), take := fun s a => .ok { a with url := some s } },
   { name := "room-id", isGiven := (·.room.isSome)
     take := fun s a => (readable (Decimal.readWord? s)).map fun w => { a with room := some w } },
   { name := "branch-id", isGiven := (·.branch.isSome)
     take := fun s a => (readable (Decimal.readWord? s)).map fun w => { a with branch := some w } },
   { name := "device-id", isGiven := (·.device.isSome)
     take := fun s a => (readable (Decimal.readWord? s)).map fun w => { a with device := some w } },
   { name := "user-id", isGiven := (·.user.isSome)
     take := fun s a => (readable (Decimal.readWord? s)).map fun w => { a with user := some w } },
   { name := "report-interval-seconds", letter := some 'r', isGiven := (·.reportInterval.isSome)
     take := fun s a => (readable (Decimal.readNat? 18446744073709551615 s)).map fun n =>
       { a with reportInterval := some (UInt64.ofNat n) } }]

/-- Is more than one of room, branch and device asked for? -/
def isContradictory (a : Arguments) : Bool :=
  (a.room.isSome && (a.branch.isSome || a.device.isSome)) || (a.branch.isSome && a.device.isSome)

/-- Is half of device and owner missing? A device is not missed next to a room or a branch. -/
def isIncomplete (a : Arguments) : Bool :=
  (a.device.isSome && a.user.isNone) ||
    (a.user.isSome && a.device.isNone && a.room.isNone && a.branch.isNone)

/-- Reads the command line of the viewer. -/
def ofWords (words : List String) : Except Refusal Arguments := do
  let a ← read options (fun _ => none) {} words
  if a.isContradictory then .error .conflict
  else if a.isIncomplete then .error .missingOption
  else .ok a

/-- The address to connect to: the base address, and the query for what is watched. -/
def endpoint (a : Arguments) : String :=
  let base := a.url.getD "ws://127.0.0.1:9010/ws"
  match a.room, a.branch, a.device, a.user with
  | some room, _, _, _ => base ++ "?roomId=" ++ Decimal.word room
  | none, some branch, _, _ => base ++ "?branchId=" ++ Decimal.word branch
  | none, none, some device, some user =>
    base ++ "?deviceId=" ++ Decimal.word device ++ "&userId=" ++ Decimal.word user
  | _, _, _, _ => base

def reportSeconds (a : Arguments) : Nat :=
  (a.reportInterval.map (·.toNat)).getD 60

end Arguments

end Occupancy.Viewer
