import Occupancy.Http.Target
import Occupancy.Topic

/-!
# What a viewer asks for

The query of a viewer's connection names at most one topic: a room, a branch, or a device together
with its owner. Without any of them the viewer listens to all rooms. Keys that mean nothing here are
passed over; a known key must stand once, with a number.
-/

namespace Occupancy.Http

/-- The numbers that a viewer gave. -/
structure ViewerQuery where
  room : Option RoomId := none
  branch : Option BranchId := none
  device : Option DeviceId := none
  user : Option UserId := none
deriving DecidableEq

namespace ViewerQuery

/-- Resolves the escapes of a key or value: plus signs are blanks, then octets. -/
def unescape (cs : List Char) : List Char :=
  Target.unescape (cs.map fun c => if c = '+' then ' ' else c)

/-- Key and value of one piece of the query. A piece without an equals sign has an empty value. -/
def keyValue (cs : List Char) : String × List Char :=
  let key := cs.takeWhile (· ≠ '=')
  (String.ofList (unescape key), unescape (cs.drop (key.length + 1)))

/-- Takes a number for a field that has none yet. -/
def take? (old : Option Word) (cs : List Char) : Option Word :=
  match old with
  | some _ => none
  | none => (Decimal.integer? cs).bind Decimal.word?

def add? (q : ViewerQuery) (key : String) (cs : List Char) : Option ViewerQuery :=
  if key = "roomId" then (take? q.room cs).map fun w => { q with room := some w }
  else if key = "branchId" then (take? q.branch cs).map fun w => { q with branch := some w }
  else if key = "deviceId" then (take? q.device cs).map fun w => { q with device := some w }
  else if key = "userId" then (take? q.user cs).map fun w => { q with user := some w }
  else some q

def read? (query : List Char) : Option ViewerQuery :=
  ((Target.pieces '&' query).filter (· ≠ [])).foldlM (fun q piece =>
    let (key, value) := keyValue piece
    q.add? key value) {}

def topic (q : ViewerQuery) : Except RoomError Topic :=
  match q.room, q.branch, q.device, q.user with
  | some room, none, none, none => .ok (.room room)
  | none, some branch, none, none => .ok (.branch branch)
  | none, none, some device, some user => .ok (.deviceOwner device user)
  | none, none, none, none => .ok .allRooms
  | none, none, some _, none => .error (.invalidInput "deviceId and userId must be given together")
  | none, none, none, some _ => .error (.invalidInput "deviceId and userId must be given together")
  | _, _, _, _ =>
    .error (.invalidInput "use exactly one of roomId, branchId or deviceId+userId")

end ViewerQuery

end Occupancy.Http
