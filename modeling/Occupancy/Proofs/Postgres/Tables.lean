import Occupancy.Postgres.Client
import Occupancy.Proofs.Postgres.Rows

/-!
# The tables

What the statements of the store mean for the tables of its schema. Statements that write check the rules
of the schema on the whole table of sessions; what breaks a rule, or does not fit its column, is answered
with the code of the error and leaves the tables alone. A transaction that is rolled back leaves the tables as
they were at its start.

Of the rows that started last, a query for one of them may return any; this is all that the statements leave
open, and a `Choice` settles it. Main statements: `run_transaction` and the laws beside it, which run the
programs of the store statement by statement.
-/

namespace Occupancy.Postgres

/-! ## Columns -/

/-- The first instant that a column holds: the start of Julian days, 24 November 4714 BC. The last one is far
after the last instant. -/
def earliest : Instant :=
  ⟨-210866803200 * 1000000000, by decide⟩

/-- What a column keeps of an instant: whole microseconds. -/
def cut (i : Instant) : Instant where
  nanos := i.toMicros * 1000
  inRange := by
    have hrange := i.inRange
    unfold Instant.toMicros
    rw [Int.tdiv_eq_ediv]
    split
    · omega
    · simp only [Int.sign]
      omega

def column (i : Instant) : Except String Instant :=
  if earliest ≤ i then .ok (cut i) else .error "22008"

/-- An instant that may be absent, as it is written into a column. -/
def column? : Option Instant → Except String (Option Instant)
  | none => .ok none
  | some i => (column i).map some

/-- What a column keeps of a pause: whole milliseconds. -/
def cutPause (s : Span) : Span where
  nanos := s.millis * 1000000
  inRange := by
    have hrange := s.inRange
    unfold Span.millis
    rw [Int.tdiv_eq_ediv]
    split
    · omega
    · simp only [Int.sign]
      omega

/-- An instant that a column holds as it is. -/
structure Held (i : Instant) : Prop where
  whole : 1000000 ∣ i.nanos
  late : earliest ≤ i

/-- What a column holds is written as it is. -/
theorem column_of_held {i : Instant} (h : Held i) : column i = .ok i := by
  have hcut : cut i = i := by
    refine Instant.eq_of_nanos_eq ?_
    -- whole microseconds before or after the epoch of the columns, so that nothing is cut
    obtain ⟨k, hk⟩ := h.whole
    have hsplit : i.nanos - 946684800 * 1000000000 = 1000 * (1000 * k - 946684800 * 1000000) := by omega
    show i.toMicros * 1000 = i.nanos
    rw [Instant.toMicros, hsplit, Int.mul_tdiv_cancel_left _ (by decide)]
    omega
  rw [column, if_pos h.late, hcut]

theorem column?_of_held {o : Option Instant} (h : ∀ i, o = some i → Held i) : column? o = .ok o := by
  cases o with
  | none => rfl
  | some i => rw [column?, column_of_held (h i rfl)]; rfl

theorem cutPause_of_whole {s : Span} (h : 1000000 ∣ s.nanos) : cutPause s = s :=
  Span.eq_of_nanos_eq (Int.tdiv_mul_cancel h)

/-! ## Rows -/

/-- The rows of the three tables. Rows of sessions stand in the order in which they were inserted. -/
structure Tables where
  rooms : List Room
  devices : List Device
  sessions : List Session

/-- How the database chooses one of the rows that started last. -/
structure Choice where
  latest : List Session → Option Session
  eq_nil_of_latest : ∀ rows, latest rows = none → rows = []
  mem_of_latest : ∀ rows x, latest rows = some x → x ∈ rows
  le_latest : ∀ rows x, latest rows = some x → ∀ y ∈ rows, y.startedAt ≤ x.startedAt

/-- Of the rows that started last, the one that was inserted first. -/
def lastStarted? : List Session → Option Session
  | [] => none
  | x :: rest =>
    match lastStarted? rest with
    | none => some x
    | some y => if y.startedAt ≤ x.startedAt then some x else some y

/-- A row that started last is found, if there are rows at all. -/
theorem lastStarted?_spec (rows : List Session) :
    (rows = [] ∧ lastStarted? rows = none) ∨
    ∃ x ∈ rows, lastStarted? rows = some x ∧ ∀ y ∈ rows, y.startedAt ≤ x.startedAt := by
  induction rows with
  | nil => exact .inl ⟨rfl, rfl⟩
  | cons x rest ih =>
    right
    rcases ih with ⟨rfl, -⟩ | ⟨y, hy, hfound, hle⟩
    · exact ⟨x, List.mem_cons_self, rfl, by simp [Instant.le_refl]⟩
    -- the first row is compared with the last started of the rest
    · simp only [lastStarted?, hfound]
      split
      · rename_i hyx
        refine ⟨x, List.mem_cons_self, rfl, fun z hz => ?_⟩
        rcases List.mem_cons.mp hz with rfl | hz
        · exact Instant.le_refl _
        · exact Instant.le_trans (hle z hz) hyx
      · rename_i hyx
        refine ⟨y, List.mem_cons_of_mem x hy, rfl, fun z hz => ?_⟩
        rcases List.mem_cons.mp hz with rfl | hz
        · exact Int.le_of_lt (Int.not_le.mp hyx)
        · exact hle z hz

/-- The choice of the row that was inserted first. -/
def Choice.first : Choice where
  latest := lastStarted?
  eq_nil_of_latest rows h := by
    rcases lastStarted?_spec rows with ⟨hnil, -⟩ | ⟨y, -, hy, -⟩
    · exact hnil
    · cases h.symm.trans hy
  mem_of_latest rows x h := by
    rcases lastStarted?_spec rows with ⟨-, hnone⟩ | ⟨y, hmem, hy, -⟩
    · cases h.symm.trans hnone
    · cases h.symm.trans hy
      exact hmem
  le_latest rows x h := by
    rcases lastStarted?_spec rows with ⟨-, hnone⟩ | ⟨y, -, hy, hle⟩
    · cases h.symm.trans hnone
    · cases h.symm.trans hy
      exact hle

namespace Tables

def room? (t : Tables) (room : RoomId) : Option Room :=
  t.rooms.find? (·.id = room)

def device? (t : Tables) (device : DeviceId) : Option Device :=
  t.devices.find? (·.id = device)

def history (t : Tables) (room : RoomId) : List Session :=
  t.sessions.filter (·.room = room)

def opened (t : Tables) (room : RoomId) : List Session :=
  (t.history room).filter (·.status.isOpen)

/-! ## Rules -/

/-- The rules for a single session: it ends no earlier than it starts, and a pause is marked while it lasts. -/
def Checked (s : Session) : Prop :=
  s.startedAt ≤ s.scheduledEndAt ∧ (s.status = .paused ↔ s.pausedAt.isSome = true)

instance : DecidablePred Checked :=
  fun _ => inferInstanceAs (Decidable (_ ∧ _))

/-- The rules for two sessions: they have different numbers, and not both are open in one room. -/
def Apart (a b : Session) : Prop :=
  a.id ≠ b.id ∧ ¬ (a.status.isOpen = true ∧ b.status.isOpen = true ∧ a.room = b.room)

instance (a b : Session) : Decidable (Apart a b) :=
  inferInstanceAs (Decidable (_ ∧ _))

/-- The tables with other sessions, if these keep the rules. -/
def write (t : Tables) (sessions : List Session) : Except String Tables :=
  if ∃ s ∈ sessions, ¬ Checked s then .error "23514"
  else if ¬ sessions.Pairwise Apart then .error "23505"
  else if ∃ s ∈ sessions, t.room? s.room = none then .error "23503"
  else .ok { t with sessions }

/-- Sessions that keep the rules are written. -/
theorem write_eq_ok {t : Tables} {sessions : List Session} (checked : ∀ s ∈ sessions, Checked s)
    (apart : sessions.Pairwise Apart) (housed : ∀ s ∈ sessions, t.room? s.room ≠ none) :
    t.write sessions = .ok { t with sessions } := by
  unfold write
  rw [if_neg (by simpa using checked), if_neg (not_not_intro apart), if_neg (by simpa using housed)]

/-! ## Statements -/

/-- The rows that a query answers with. -/
def answered (rows : List Row) : Result :=
  ⟨rows, rows.length⟩

def inserting (s : Session) (startedAt scheduledEndAt : Instant) : Session :=
  { s with
    startedAt, scheduledEndAt
    pausedAt := none
    accumulatedPause := .zero
    billedTimeCost := 0
    endedAt := none }

def updating (s : Session) (scheduledEndAt : Instant) (pausedAt endedAt : Option Instant)
    (x : Session) : Session :=
  if x.id = s.id ∧ x.status.isOpen then
    { x with
      scheduledEndAt, pausedAt, endedAt
      accumulatedPause := cutPause s.accumulatedPause
      status := s.status }
  else x

/-- Is a session finalized by a batch? -/
def due (now : Instant) (x : Session) : Bool :=
  x.status = .inUse && x.scheduledEndAt ≤ now

/-- A session as a batch leaves it. -/
def finalizing (now : Instant) (x : Session) : Session :=
  { x with status := .finalized, endedAt := some now }

/-- The finalized sessions of a batch with the devices of their rooms, by room. -/
def batch (t : Tables) (now : Instant) : List Commit :=
  let finalized := (t.sessions.filter (due now)).map (finalizing now)
  let joined := finalized.flatMap fun x =>
    (t.rooms.filter (·.id = x.room)).map fun r => Commit.mk x r.device
  joined.mergeSort fun a b => a.session.room.toInt ≤ b.session.room.toInt

def listed (t : Tables) (rooms : List RoomId) : List Room :=
  (t.rooms.filter (·.id ∈ rooms)).mergeSort fun a b => a.id.toInt ≤ b.id.toInt

theorem mem_listed {t : Tables} {rooms : List RoomId} {room : Room} :
    room ∈ t.listed rooms ↔ room ∈ t.rooms ∧ room.id ∈ rooms := by
  rw [listed, List.mem_mergeSort, List.mem_filter, decide_eq_true_eq]

/-- What a statement answers, and the tables after it. -/
def exec (choice : Choice) (t : Tables) : Statement → Except String (Result × Tables)
  | .ping => .ok (answered [[("?column?", .integer 1)]], t)
  | .lockRoomState room =>
    .ok (answered ((t.rooms.filter (·.id = room)).map fun r =>
      [("state", .text r.state.text), ("device_id", Row.optional .integer r.device)]), t)
  | .lockRoom room =>
    .ok (answered ((t.rooms.filter (·.id = room)).map fun r =>
      [("device_id", Row.optional .integer r.device)]), t)
  | .findOpen room => .ok (answered ((t.opened room).map fun _ => [("?column?", .integer 1)]), t)
  | .insert s => do
    let row := inserting s (← column s.startedAt) (← column s.scheduledEndAt)
    let t' ← t.write (t.sessions ++ [row])
    .ok ({ touched := 1 }, t')
  | .latest room => .ok (answered ((choice.latest (t.history room)).toList.map Row.ofSession), t)
  | .update s => do
    let row := updating s (← column s.scheduledEndAt) (← column? s.pausedAt) (← column? s.endedAt)
    let t' ← t.write (t.sessions.map row)
    .ok ({ touched := (t.sessions.filter fun x => x.id = s.id ∧ x.status.isOpen).length }, t')
  | .finalizeExpired now => do
    let now ← column now
    let t' ← t.write (t.sessions.map fun x => if due now x then finalizing now x else x)
    .ok (answered ((t.batch now).map Row.ofCommit), t')
  | .views rooms =>
    .ok (answered ((t.listed rooms).map fun r =>
      Row.ofRoom r (r.device.bind t.device?) (choice.latest (t.opened r.id))), t)
  | .setActive device active =>
    .ok ({ touched := (t.devices.filter (·.id = device)).length },
      { t with devices := t.devices.map fun d => if d.id = device then { d with active } else d })

end Tables

/-! ## Transactions -/

/-- The tables, and what they were at the start of the transaction under way. -/
structure Database where
  tables : Tables
  saved : Option Tables := none

namespace Database

/-- Answers a request of the store. After an error nothing but the end of the transaction is requested. -/
def answer (choice : Choice) : (c : Call) → Database → c.Reply × Database
  | .start, d => (.ok (), { d with saved := some d.tables })
  | .commit, d => (.ok (), { d with saved := none })
  | .rollback, d => ((), ⟨d.saved.getD d.tables, none⟩)
  | .createTables, d => (.ok (), d)
  | .execute s, d =>
    match d.tables.exec choice s with
    | .ok (result, tables) => (.ok result, { d with tables })
    | .error code => (.error code, d)

/-- Runs an operation of the store. -/
def run {α : Type} (choice : Choice) (p : Exchange α) (d : Database) : Except Failure α × Database :=
  Program.run (answer choice) p.run d

/-! ## Laws of running -/

section

variable {α β : Type} {choice : Choice} {d : Database}

@[simp] theorem run_given (value : Except Failure α) : run choice (given value) d = (value, d) :=
  rfl

/-- What follows is left out where the first part fails. -/
theorem run_bind (p : Exchange α) (f : α → Exchange β) :
    run choice (p >>= f) d =
      match run choice p d with
      | (.ok a, d) => run choice (f a) d
      | (.error e, d) => (.error e, d) := by
  have h : run choice (p >>= f) d =
      Program.run (S := Calls) (answer choice) (ExceptT.bindCont f (run choice p d).1) (run choice p d).2 :=
    Program.run_bind (S := Calls) (answer choice) p.run (ExceptT.bindCont f) d
  rw [h]
  rcases run choice p d with ⟨e | a, d⟩ <;> rfl

/-- A value that is needed is there, or it decides the failure. -/
theorem run_given_bind (value : Except Failure α) (f : α → Exchange β) :
    run choice (given value >>= f) d =
      match value with
      | .ok a => run choice (f a) d
      | .error e => (.error e, d) := by
  rw [run_bind, run_given]
  cases value <;> rfl

/-- The answer to a statement is used, and what follows finds the tables as it left them. -/
theorem run_execute_bind (s : Statement) (f : Result → Exchange β) :
    run choice (execute s >>= f) d =
      match d.tables.exec choice s with
      | .ok (result, tables) => run choice (f result) { d with tables }
      | .error code => (.error (.database code), d) := by
  have h : run choice (execute s) d =
      match d.tables.exec choice s with
      | .ok (result, tables) => (.ok result, { d with tables })
      | .error code => (.error (.database code), d) := by
    -- the statement is the only call, and it either has a result or a code
    unfold run execute
    simp only [ExceptT.run_mk, Program.run, answer]
    rcases d.tables.exec choice s with code | ⟨result, tables⟩ <;> rfl
  rw [run_bind, h]
  rcases d.tables.exec choice s with code | ⟨result, tables⟩ <;> rfl

/-- How a transaction ends after its body. -/
def closing : Except Failure α → Program Calls (Except Failure α)
  | .error e => .ask .rollback fun _ => .done (.error e)
  | .ok a =>
    .ask .commit fun
      | .error code => .ask .rollback fun _ => .done (.error (.database code))
      | .ok () => .done (.ok a)

/-- The body of a transaction is run on the tables as they are, which are saved, and settles how it ends. -/
theorem run_transaction (body : Exchange α) (t : Tables) :
    run choice (transaction body) ⟨t, none⟩ =
      Program.run (S := Calls) (answer choice) (closing (run choice body ⟨t, some t⟩).1)
        (run choice body ⟨t, some t⟩).2 :=
  Program.run_bind (S := Calls) (answer choice) body.run closing ⟨t, some t⟩

/-- A transaction keeps what a body that succeeds did to the tables. -/
theorem run_transaction_of_ok {body : Exchange α} {t t' : Tables} {a : α}
    (h : run choice body ⟨t, some t⟩ = (.ok a, ⟨t', some t⟩)) :
    run choice (transaction body) ⟨t, none⟩ = (.ok a, ⟨t', none⟩) := by
  rw [run_transaction, h]
  rfl

/-- A transaction undoes what a body that fails did to the tables. -/
theorem run_transaction_of_error {body : Exchange α} {t t' : Tables} {e : Failure}
    (h : run choice body ⟨t, some t⟩ = (.error e, ⟨t', some t⟩)) :
    run choice (transaction body) ⟨t, none⟩ = (.error e, ⟨t, none⟩) := by
  rw [run_transaction, h]
  rfl

end

end Database

end Occupancy.Postgres
