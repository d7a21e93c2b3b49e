import Occupancy.Room
import Occupancy.Session.Basic
import Occupancy.Time.Timestamp

/-!
# Room views

What viewers see of a room at one moment: the room, its device and its open session, with the
billing clock read off in whole seconds. Views are always projected afresh; they are written as JSON
and read back from it.
-/

namespace Occupancy

/-- An open session inside a view. -/
structure SessionView where
  id : SessionId
  customer : Option Word
  status : SessionStatus
  startedAt : Timestamp
  scheduledEndAt : Timestamp
  pausedAt : Option Timestamp
  accumulatedPauseSeconds : Word
  billedTimeCost : Word
deriving DecidableEq

/-- A room at one moment. -/
structure RoomView where
  room : RoomId
  branch : BranchId
  name : String
  state : RoomState
  device : Option Device
  session : Option SessionView
  elapsedBillableSeconds : Option Word
  remainingSeconds : Option Word
  generatedAt : Timestamp
deriving DecidableEq

/-! ## Projection -/

def Session.view (s : Session) : SessionView where
  id := s.id
  customer := s.customer
  status := s.status
  startedAt := s.startedAt
  scheduledEndAt := s.scheduledEndAt
  pausedAt := s.pausedAt.map fun i => ⟨i, false⟩
  accumulatedPauseSeconds := .ofInt s.accumulatedPause.seconds
  billedTimeCost := s.billedTimeCost

namespace RoomView

/-- The view of a room without an open session. -/
def idle (room : Room) (device : Option Device) (now : Instant) : RoomView where
  room := room.id
  branch := room.branch
  name := room.name
  state := room.state
  device := device
  session := none
  elapsedBillableSeconds := none
  remainingSeconds := none
  generatedAt := now

/-- The view of a room at `now`. A session that has ended is not shown. There is no view where the
billed time of an open session is out of range. -/
def project? (room : Room) (device : Option Device) (session : Option Session) (now : Instant) :
    Option RoomView :=
  match session.filter (·.status.isOpen) with
  | none => some (idle room device now)
  | some s => (s.elapsedBillable? now).map fun elapsed =>
    { idle room device now with
      session := some s.view
      elapsedBillableSeconds := some (.ofInt elapsed.seconds)
      remainingSeconds := some (.ofInt (s.remaining now).seconds) }

/-- Does the room have an open session? -/
def isOccupied (v : RoomView) : Bool :=
  v.session.isSome

end RoomView

/-! ## Writing -/

open Json

def Timestamp.toJson (t : Timestamp) : Value :=
  .text t.text

def SessionView.toJson (s : SessionView) : Value :=
  .object
    [("id", .text s.id.text), ("customerId", .option .word s.customer),
     ("status", .text s.status.text), ("startedAt", s.startedAt.toJson),
     ("scheduledEndAt", s.scheduledEndAt.toJson),
     ("pausedAt", .option Timestamp.toJson s.pausedAt),
     ("accumulatedPauseSeconds", .word s.accumulatedPauseSeconds),
     ("billedTimeCost", .word s.billedTimeCost)]

def RoomView.toJson (v : RoomView) : Value :=
  .object
    [("roomId", .word v.room), ("branchId", .word v.branch), ("name", .text v.name),
     ("state", .text v.state.text), ("device", .option Device.toJson v.device),
     ("session", .option SessionView.toJson v.session),
     ("elapsedBillableSeconds", .option .word v.elapsedBillableSeconds),
     ("remainingSeconds", .option .word v.remainingSeconds),
     ("generatedAt", v.generatedAt.toJson)]

/-- The text in which a view is sent. -/
def RoomView.payload (v : RoomView) : String :=
  v.toJson.render

/-! ## Reading -/

def Timestamp.read : Reader Timestamp :=
  Tree.readAs Timestamp.read?

def Uuid.read : Reader Uuid :=
  Tree.readAs Uuid.read?

/-- A session view of which some fields have been read. -/
structure SessionView.Draft where
  id : Option SessionId := none
  customer : Option (Option Word) := none
  status : Option SessionStatus := none
  startedAt : Option Timestamp := none
  scheduledEndAt : Option Timestamp := none
  pausedAt : Option (Option Timestamp) := none
  accumulatedPauseSeconds : Option Word := none
  billedTimeCost : Option Word := none

def SessionView.fields : List (Member SessionView.Draft) :=
  [.of "id" Uuid.read (·.id) fun d v => { d with id := some v },
   .of "customerId" (Tree.readOption Tree.readWord) (·.customer)
    fun d v => { d with customer := some v },
   .of "status" (Tree.readName SessionStatus.ofText?) (·.status)
    fun d v => { d with status := some v },
   .of "startedAt" Timestamp.read (·.startedAt) fun d v => { d with startedAt := some v },
   .of "scheduledEndAt" Timestamp.read (·.scheduledEndAt)
    fun d v => { d with scheduledEndAt := some v },
   .of "pausedAt" (Tree.readOption Timestamp.read) (·.pausedAt)
    fun d v => { d with pausedAt := some v },
   .of "accumulatedPauseSeconds" Tree.readWord (·.accumulatedPauseSeconds)
    fun d v => { d with accumulatedPauseSeconds := some v },
   .of "billedTimeCost" Tree.readWord (·.billedTimeCost)
    fun d v => { d with billedTimeCost := some v }]

/-- The session view of a draft, unless a field is missing. In objects, absent optional values are
none. -/
def SessionView.Draft.finish (d : SessionView.Draft) : Option SessionView := do
  some ⟨← d.id, d.customer.getD none, ← d.status, ← d.startedAt, ← d.scheduledEndAt,
    d.pausedAt.getD none, ← d.accumulatedPauseSeconds, ← d.billedTimeCost⟩

def SessionView.read : Reader SessionView :=
  readRecord SessionView.fields {} SessionView.Draft.finish

/-- A view of which some fields have been read. -/
structure RoomView.Draft where
  room : Option RoomId := none
  branch : Option BranchId := none
  name : Option String := none
  state : Option RoomState := none
  device : Option (Option Device) := none
  session : Option (Option SessionView) := none
  elapsedBillableSeconds : Option (Option Word) := none
  remainingSeconds : Option (Option Word) := none
  generatedAt : Option Timestamp := none

def RoomView.fields : List (Member RoomView.Draft) :=
  [.of "roomId" Tree.readWord (·.room) fun d v => { d with room := some v },
   .of "branchId" Tree.readWord (·.branch) fun d v => { d with branch := some v },
   .of "name" Tree.readText (·.name) fun d v => { d with name := some v },
   .of "state" (Tree.readName RoomState.ofText?) (·.state) fun d v => { d with state := some v },
   .of "device" (Tree.readOption Device.read) (·.device) fun d v => { d with device := some v },
   .of "session" (Tree.readOption SessionView.read) (·.session)
    fun d v => { d with session := some v },
   .of "elapsedBillableSeconds" (Tree.readOption Tree.readWord) (·.elapsedBillableSeconds)
    fun d v => { d with elapsedBillableSeconds := some v },
   .of "remainingSeconds" (Tree.readOption Tree.readWord) (·.remainingSeconds)
    fun d v => { d with remainingSeconds := some v },
   .of "generatedAt" Timestamp.read (·.generatedAt) fun d v => { d with generatedAt := some v }]

/-- The view of a draft, unless a field is missing. -/
def RoomView.Draft.finish (d : RoomView.Draft) : Option RoomView := do
  some ⟨← d.room, ← d.branch, ← d.name, ← d.state, d.device.getD none, d.session.getD none,
    d.elapsedBillableSeconds.getD none, d.remainingSeconds.getD none, ← d.generatedAt⟩

def RoomView.read : Reader RoomView :=
  readRecord RoomView.fields {} RoomView.Draft.finish

def RoomView.ofText? (s : String) : Option RoomView :=
  (readText RoomView.read s).toOption

end Occupancy
