import Occupancy.Store.Basic

/-!
# Rows

The rows that statements answer with, and the sessions and views that are read from them. The cells
of a row are read in a fixed order and the first one that does not fit decides the failure: it is
missing, null where a value is needed, or of another type. Names of states are checked as soon as
they matter.
-/

namespace Occupancy.Postgres

inductive Cell where
  | null
  | integer (w : Word)
  | text (s : String)
  | bool (b : Bool)
  | instant (i : Instant)
  | uuid (u : Uuid)
deriving DecidableEq

namespace Cell

def integer? : Cell → Option Word
  | .integer w => some w
  | _ => none

def text? : Cell → Option String
  | .text s => some s
  | _ => none

/-- The truth value in a cell. -/
def bool? : Cell → Option Bool
  | .bool b => some b
  | _ => none

def instant? : Cell → Option Instant
  | .instant i => some i
  | _ => none

def uuid? : Cell → Option Uuid
  | .uuid u => some u
  | _ => none

end Cell

/-- Why the store on Postgres did not do what was asked. -/
inductive Failure where
  /-- A rule of the store forbids it, or the tables hold what they must not hold. -/
  | refused (e : RoomError)
  /-- The database answered a statement with an error. -/
  | database (code : String)
  /-- A column is missing, null or of another type. -/
  | column (name : String)
  /-- A span of time is out of range. -/
  | overflow
deriving DecidableEq

/-- The failure for a value that a table must not hold. -/
def unexpected (what value : String) : Failure :=
  .refused (.internal ("unexpected " ++ what ++ " '" ++ value ++ "' in database"))

/-- A row: its cells with the names of their columns. -/
abbrev Row := List (String × Cell)

namespace Row

def cell (row : Row) (name : String) : Except Failure Cell :=
  match row.lookup name with
  | some c => .ok c
  | none => .error (.column name)

/-- The value of a column that is never null. -/
def get {α : Type} (row : Row) (kind : Cell → Option α) (name : String) : Except Failure α := do
  match kind (← row.cell name) with
  | some a => .ok a
  | none => .error (.column name)

/-- The value of a column that may be null. -/
def get? {α : Type} (row : Row) (kind : Cell → Option α) (name : String) :
    Except Failure (Option α) := do
  match ← row.cell name with
  | .null => .ok none
  | c =>
    match kind c with
    | some a => .ok (some a)
    | none => .error (.column name)

/-! ## Sessions -/

def pause (milliseconds : Word) : Except Failure Span :=
  match Span.ofMillis? milliseconds.toInt with
  | some s => .ok s
  | none => .error .overflow

def status (name : String) : Except Failure SessionStatus :=
  match SessionStatus.ofText? name with
  | some s => .ok s
  | none => .error (unexpected "session status" name)

/-- The session with a known name of its status, identifier and room. -/
def sessionOf (row : Row) (statusName : String) (id : SessionId) (room : RoomId) :
    Except Failure Session := do
  let customer ← row.get? Cell.integer? "customer_id"
  let startedAt ← row.get Cell.instant? "started_at"
  let scheduledEndAt ← row.get Cell.instant? "scheduled_end_at"
  let pausedAt ← row.get? Cell.instant? "paused_at"
  let accumulatedPause ← pause (← row.get Cell.integer? "accumulated_pause_ms")
  let status ← status statusName
  let billedTimeCost ← row.get Cell.integer? "billed_time_cost"
  let endedAt ← row.get? Cell.instant? "ended_at"
  .ok { id, room, customer, startedAt, scheduledEndAt, pausedAt, accumulatedPause, status,
        billedTimeCost, endedAt }

def session (row : Row) : Except Failure Session := do
  let statusName ← row.get Cell.text? "status"
  let id ← row.get Cell.uuid? "id"
  let room ← row.get Cell.integer? "room_id"
  row.sessionOf statusName id room

/-- A finalized session with the device of its room. -/
def commit (row : Row) : Except Failure Commit := do
  let session ← row.session
  let device ← row.get? Cell.integer? "device_id"
  .ok ⟨session, device⟩

/-! ## Views -/

def room (row : Row) : Except Failure Room := do
  let stateName ← row.get Cell.text? "state"
  let id ← row.get Cell.integer? "id"
  let branch ← row.get Cell.integer? "branch_id"
  let name ← row.get Cell.text? "name"
  let state ← match RoomState.ofText? stateName with
    | some s => .ok s
    | none => .error (unexpected "room state" stateName)
  let device ← row.get? Cell.integer? "device_id"
  .ok { id, branch, name, state, device }

/-- The device of a row, if the room is linked to one that there is. -/
def device (row : Row) (linked : Option DeviceId) : Except Failure (Option Device) := do
  match linked, ← row.get? Cell.text? "device_name" with
  | some id, some name => do
    let owner ← row.get? Cell.integer? "owner_user_id"
    let active ← row.get? Cell.bool? "device_active"
    .ok (some { id, name, owner, active := active.getD false })
  | _, _ => .ok none

def openSession (row : Row) (room : RoomId) : Except Failure (Option Session) := do
  match ← row.get? Cell.uuid? "session_id" with
  | none => .ok none
  | some id => do
    let statusName ← row.get Cell.text? "status"
    (row.sessionOf statusName id room).map some

def view (row : Row) (now : Instant) : Except Failure RoomView := do
  let room ← row.room
  let device ← row.device room.device
  let session ← row.openSession room.id
  match RoomView.project? room device session now with
  | some v => .ok v
  | none => .error .overflow

end Row

end Occupancy.Postgres
