import Occupancy.Session.Lifecycle
import Occupancy.Store.Seed
import Occupancy.Table
import Occupancy.View

/-!
# The store in memory

Rooms with their session histories, devices with their activity, and a log of every change of
activity. Each operation is one indivisible step: it either answers with the store after the change
or fails and leaves the store alone. Histories only grow; the last row is the current or the most
recent session.
-/

namespace Occupancy

/-- A room with all its sessions, oldest first. -/
structure RoomRecord where
  room : Room
  history : List Session

namespace RoomRecord

/-- The most recent session. -/
def current? (r : RoomRecord) : Option Session :=
  r.history.getLast?

/-- The open session. -/
def open? (r : RoomRecord) : Option Session :=
  r.current?.filter (·.status.isOpen)

def append (r : RoomRecord) (s : Session) : RoomRecord :=
  { r with history := r.history ++ [s] }

/-- The record with its most recent session replaced. -/
def replaceCurrent (r : RoomRecord) (s : Session) : RoomRecord :=
  { r with history := r.history.dropLast ++ [s] }

/-- The finalized session of a record, if its session has expired. -/
def expired? (r : RoomRecord) (now : Instant) : Option Session :=
  r.current?.bind fun current => current.expire? now

end RoomRecord

/-- A committed change of a session: the session as stored, and the device linked to its room at
that moment. -/
structure Commit where
  session : Session
  device : Option DeviceId
deriving DecidableEq

/-- Why a view could not be read: a request failure, or a billed time that is out of range. -/
inductive ViewError where
  | refused (e : RoomError)
  | overflow
deriving DecidableEq

/-- Rooms, devices and the log of activity changes. -/
structure Store where
  rooms : Table RoomId RoomRecord
  devices : Table DeviceId Device
  toggles : List (DeviceId × Bool)

namespace Store

/-! ## Filling the store -/

/-- The store without rooms and devices. -/
def empty : Store :=
  ⟨∅, ∅, []⟩

/-- Adds or replaces a room. The history of a known room is kept. -/
def insertRoom (s : Store) (room : Room) : Store :=
  { s with rooms := s.rooms.alter room.id fun
      | some record => { record with room }
      | none => ⟨room, []⟩ }

/-- Adds or replaces a device. -/
def insertDevice (s : Store) (device : Device) : Store :=
  { s with devices := s.devices.set device.id device }

/-- The store filled from a seed. Of two entries with one number the later wins. -/
def ofSeed (seed : Seed) : Store :=
  seed.rooms.foldl insertRoom (seed.devices.foldl insertDevice empty)

/-! ## Reading -/

def device? (s : Store) (device : DeviceId) : Option Device :=
  s.devices.get? device

/-- All sessions of a room, oldest first. -/
def history (s : Store) (room : RoomId) : List Session :=
  ((s.rooms.get? room).map (·.history)).getD []

def linkedDevice? (s : Store) (room : Room) : Option Device :=
  room.device.bind s.device?

def view (s : Store) (room : RoomId) (now : Instant) : Except ViewError RoomView :=
  match s.rooms.get? room with
  | none => .error (.refused (.noRoom room))
  | some r =>
    match RoomView.project? r.room (s.linkedDevice? r.room) r.current? now with
    | some v => .ok v
    | none => .error .overflow

/-- The views of several rooms at `now`, in the order of the request. Unknown rooms are left out. -/
def views (s : Store) : List RoomId → Instant → Except ViewError (List RoomView)
  | [], _ => .ok []
  | room :: rest, now =>
    match s.view room now with
    | .error .overflow => .error .overflow
    | .error (.refused _) => s.views rest now
    | .ok v => (s.views rest now).map (v :: ·)

/-! ## Changing sessions -/

/-- Opens session `id` in a room. -/
def assign (s : Store) (id : SessionId) (room : RoomId) (customer : Option Word) (duration : Word)
    (now : Instant) : Except RoomError (Commit × Store) :=
  match (s.rooms.get? room).filter (·.room.state ≠ .deleted) with
  | none => .error (.noRoom room)
  | some record =>
    if record.open?.isSome then .error (.conflict room)
    else
      match Session.book id room customer duration now with
      | .error e => .error e
      | .ok session =>
        .ok (⟨session, record.room.device⟩,
          { s with rooms := s.rooms.set room (record.append session) })

/-- Applies a transition to the most recent session of a room. -/
def apply (s : Store) (room : RoomId) (t : Transition) (now : Instant) :
    Except RoomError (Commit × Store) :=
  match s.rooms.get? room with
  | none => .error (.noRoom room)
  | some record =>
    match record.current? with
    | none => .error (.invalidState room t.verb "room has no session")
    | some current =>
      match current.apply t now with
      | .error e => .error e
      | .ok next =>
        .ok (⟨next, record.room.device⟩,
          { s with rooms := s.rooms.set room (record.replaceCurrent next) })

/-- Finalizes every session that has expired. The changes are listed by room. -/
def finalizeExpired (s : Store) (now : Instant) : List Commit × Store :=
  let commits := s.rooms.values.filterMap fun record =>
    (record.expired? now).map fun session => Commit.mk session record.room.device
  (commits.mergeSort fun a b => a.session.room.toInt ≤ b.session.room.toInt,
    { s with rooms := s.rooms.mapValues fun _ record =>
        match record.expired? now with
        | some session => record.replaceCurrent session
        | none => record })

/-- Sets the running cost of the open session of a room. -/
def bill (s : Store) (room : RoomId) (cost : Word) : Except RoomError Store :=
  match s.rooms.get? room with
  | none => .error (.noRoom room)
  | some record =>
    match record.open? with
    | none => .error (.invalidState room .bill "no open session")
    | some session =>
      .ok { s with
        rooms := s.rooms.set room (record.replaceCurrent { session with billedTimeCost := cost }) }

/-! ## Changing devices -/

/-- Sets the activity of a device and logs it. -/
def setActive (s : Store) (device : DeviceId) (active : Bool) : Except RoomError Store :=
  match s.devices.get? device with
  | none => .error (.noDevice device)
  | some d =>
    .ok { s with
      devices := s.devices.set device { d with active }
      toggles := s.toggles ++ [(device, active)] }

end Store

end Occupancy
