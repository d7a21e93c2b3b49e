import Occupancy.Room

/-!
# Seeds

The rooms and devices that an in-memory store starts with, as they are read from a seed file.
-/

namespace Occupancy

open Json

/-- Rooms and devices to start with. -/
structure Seed where
  rooms : List Room := []
  devices : List Device := []

namespace Seed

/-- A seed of which some fields have been read. -/
structure Draft where
  rooms : Option (List Room) := none
  devices : Option (List Device) := none

/-- The fields of a seed; both may be left out. -/
def fields : List (Member Draft) :=
  [.of "rooms" (Tree.readList Room.read) (·.rooms) (fun d v => { d with rooms := some v }) true,
   .of "devices" (Tree.readList Device.read) (·.devices)
    (fun d v => { d with devices := some v }) true]

def Draft.finish (d : Draft) : Option Seed :=
  some ⟨d.rooms.getD [], d.devices.getD []⟩

def read : Reader Seed :=
  readRecord fields {} Draft.finish

def ofText? (s : String) : Option Seed :=
  (readText read s).toOption

end Seed

end Occupancy
