import Occupancy.Postgres.Row
import Occupancy.Postgres.Statement
import Occupancy.Program

/-!
# The store on Postgres

Every change of a session is a transaction that first locks the row of the room, so that changes of
one room follow each other. A transaction is committed at its end; whatever fails before rolls it
back. The batch of expired sessions is a single statement, and so is every read.

The rules of sessions are those of every store; the tables only hold their results.
-/

namespace Occupancy.Postgres

/-! ## Requests -/

/-- The answer to a statement: its rows, and how many rows it touched. -/
structure Result where
  rows : List Row := []
  touched : Nat := 0

/-- What the store asks of the database. -/
inductive Call where
  | start
  | commit
  | rollback
  | createTables
  | execute (s : Statement)

/-- The replies of the database. An error is given by its code. -/
def Call.Reply : Call → Type
  | .start => Except String Unit
  | .commit => Except String Unit
  | .rollback => Unit
  | .createTables => Except String Unit
  | .execute _ => Except String Result

def Call.unreachable : (c : Call) → c.Reply
  | .start => .error ""
  | .commit => .error ""
  | .rollback => ()
  | .createTables => .error ""
  | .execute _ => .error ""

/-- The requests of the store. -/
abbrev Calls : Signature :=
  ⟨Call, Call.Reply⟩

abbrev Exchange (α : Type) :=
  ExceptT Failure (Program Calls) α

/-- The failure of a statement that the database answered with an error. -/
def orDatabase {α : Type} (reply : Except String α) : Except Failure α :=
  match reply with
  | .ok a => .ok a
  | .error code => .error (.database code)

def execute (s : Statement) : Exchange Result :=
  .mk (.ask (.execute s) fun reply => .done (orDatabase reply))

/-- Fails, or goes on with a value. -/
def given {α : Type} (value : Except Failure α) : Exchange α :=
  .mk (.done value)

/-- A transaction: committed if `body` succeeds, and rolled back otherwise. -/
def transaction {α : Type} (body : Exchange α) : Exchange α :=
  .mk <| .ask .start fun
    | .error code => .done (.error (.database code))
    | .ok () =>
      body.run.bind fun
        | .error e => .ask .rollback fun _ => .done (.error e)
        | .ok a =>
          .ask .commit fun
            | .error code => .ask .rollback fun _ => .done (.error (.database code))
            | .ok () => .done (.ok a)

/-! ## Changing sessions -/

/-- The one row that a statement answers with, or `failure` if there is none. -/
def firstRow (r : Result) (failure : RoomError) : Except Failure Row :=
  match r.rows with
  | row :: _ => .ok row
  | [] => .error (.refused failure)

/-- An insertion that breaks the rule of one open session per room is a conflict. -/
def inserted (room : RoomId) (reply : Except String Result) : Except Failure Unit :=
  match reply with
  | .ok _ => .ok ()
  | .error code =>
    if code = "23505" then .error (.refused (.conflict room)) else .error (.database code)

/-- Refuses a room that is deleted. -/
def bookable (room : RoomId) (stateName : String) : Except Failure Unit :=
  if RoomState.ofText? stateName = some .deleted then .error (.refused (.noRoom room)) else .ok ()

/-- Opens session `id` in a room. -/
def assign (id : SessionId) (room : RoomId) (customer : Option Word) (duration : Word)
    (now : Instant) : Exchange Commit := do
  let session ← given ((Session.book id room customer duration now).mapError .refused)
  transaction do
    let row ← given (firstRow (← execute (.lockRoomState room)) (.noRoom room))
    given (bookable room (← given (row.get Cell.text? "state")))
    let device ← given (row.get? Cell.integer? "device_id")
    let opened ← execute (.findOpen room)
    if opened.rows ≠ [] then given (.error (.refused (.conflict room)))
    else
      ExceptT.mk (.ask (.execute (.insert session)) fun reply => .done (inserted room reply))
      given (.ok ⟨session, device⟩)

/-- Applies a transition to the session of a room that started last. -/
def apply (room : RoomId) (t : Transition) (now : Instant) : Exchange Commit :=
  transaction do
    let row ← given (firstRow (← execute (.lockRoom room)) (.noRoom room))
    let device ← given (row.get? Cell.integer? "device_id")
    let latest ← execute (.latest room)
    let current ← given
      ((firstRow latest (.invalidState room t.verb "room has no session")).bind Row.session)
    let next ← given ((current.apply t now).mapError .refused)
    let updated ← execute (.update next)
    if updated.touched = 0 then
      given (.error (.refused (.invalidState room t.verb "session changed concurrently")))
    else given (.ok ⟨next, device⟩)

/-- Finalizes every session that has expired. The changes are listed by room. -/
def finalizeExpired (now : Instant) : Exchange (List Commit) := do
  let expired ← execute (.finalizeExpired now)
  given (expired.rows.mapM Row.commit)

/-! ## Reading -/

/-- The views of several rooms at `now`, by room. Unknown rooms are left out. -/
def views (rooms : List RoomId) (now : Instant) : Exchange (List RoomView) := do
  let found ← execute (.views rooms)
  given (found.rows.mapM fun row => row.view now)

def view (room : RoomId) (now : Instant) : Exchange RoomView := do
  match ← views [room] now with
  | v :: _ => given (.ok v)
  | [] => given (.error (.refused (.noRoom room)))

/-! ## The rest -/

def setActive (device : DeviceId) (active : Bool) : Exchange Unit := do
  let updated ← execute (.setActive device active)
  if updated.touched = 0 then given (.error (.refused (.noDevice device))) else given (.ok ())

/-- Asks whether the database is there. -/
def ping : Exchange Unit := do
  let _ ← execute .ping
  given (.ok ())

def createTables : Exchange Unit :=
  .mk (.ask .createTables fun reply => .done (orDatabase reply))

end Occupancy.Postgres
