import Occupancy.View

/-!
# Topics

Every viewer listens to one topic: a room, a branch, all rooms, or the room linked to a device for the
owner of that device. A topic is also the address of a queue on the broker. Its written form is read
back exactly; reading also accepts a sign and leading zeros in the numbers.
-/

namespace Occupancy

/-- What a viewer can listen to. -/
inductive Topic where
  /-- `room:<id>` -/
  | room (id : RoomId)
  /-- `branch:<id>` -/
  | branch (id : BranchId)
  /-- `rooms` -/
  | allRooms
  /-- `device-owner:<device>:<user>` -/
  | deviceOwner (device : DeviceId) (user : UserId)
deriving DecidableEq

namespace Topic

/-- The written form of a topic. -/
def text : Topic → String
  | .room id => "room:" ++ Decimal.word id
  | .branch id => "branch:" ++ Decimal.word id
  | .allRooms => "rooms"
  | .deviceOwner device user => "device-owner:" ++ Decimal.word device ++ ":" ++ Decimal.word user

/-- The texts before and after the first colon. -/
def splitColon (cs : List Char) : Option (List Char × List Char) :=
  match cs.dropWhile (· ≠ ':') with
  | [] => none
  | _ :: rest => some (cs.takeWhile (· ≠ ':'), rest)

/-- Reads a word that fills a text. -/
def readId? (cs : List Char) : Option Word :=
  (Decimal.integer? cs).bind Decimal.word?

def read? (s : String) : Option Topic :=
  if s = "rooms" then some .allRooms
  else do
    let (kind, rest) ← splitColon s.toList
    if kind = ['r', 'o', 'o', 'm'] then (readId? rest).map .room
    else if kind = ['b', 'r', 'a', 'n', 'c', 'h'] then (readId? rest).map .branch
    else if kind = ['d', 'e', 'v', 'i', 'c', 'e', '-', 'o', 'w', 'n', 'e', 'r'] then do
      let (device, user) ← splitColon rest
      some (.deviceOwner (← readId? device) (← readId? user))
    else none

/-! ## Order -/

/-- The place of a topic's kind: rooms, branches, all rooms, device owners. -/
def rank : Topic → Nat
  | .room _ => 0
  | .branch _ => 1
  | .allRooms => 2
  | .deviceOwner _ _ => 3

def numbers : Topic → Int × Int
  | .room id => (id.toInt, 0)
  | .branch id => (id.toInt, 0)
  | .allRooms => (0, 0)
  | .deviceOwner device user => (device.toInt, user.toInt)

/-- Topics by kind, then by their numbers. -/
def le (a b : Topic) : Bool :=
  if a.rank ≠ b.rank then a.rank < b.rank
  else if a.numbers.1 ≠ b.numbers.1 then a.numbers.1 < b.numbers.1
  else a.numbers.2 ≤ b.numbers.2

/-- Topics in order. -/
def sort (ts : List Topic) : List Topic :=
  ts.mergeSort le

end Topic

/-- The topics that a view is published to: its room, its branch, all rooms, and the owner of its
device if it has one. -/
def RoomView.topics (v : RoomView) : List Topic :=
  [.room v.room, .branch v.branch, .allRooms] ++
    match v.device with
    | some ⟨id, _, some user, _⟩ => [.deviceOwner id user]
    | _ => []

end Occupancy
