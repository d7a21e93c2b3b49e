import Mathlib.Data.List.Forall2
import Occupancy.Postgres.Row
import Occupancy.Proofs.Time

/-!
# Reading rows

Why a row may fail to be read, and which rows hold a session or a view. Main statements:
`Row.unreadable_of_session`, all that can be wrong with the row of a session, and `Row.session_ofSession` and
`Row.view_ofRoom`, that what was written into the columns is read from them.
-/

namespace Occupancy.Postgres

/-! ## One reading after another -/

section Readings

variable {α β : Type} {x : Except Failure α} {f : α → Except Failure β}

theorem bind_eq_error {e : Failure} (h : (x >>= f) = .error e) :
    x = .error e ∨ ∃ a, x = .ok a ∧ f a = .error e := by
  cases x with
  | error e' =>
    cases h
    exact .inl rfl
  | ok a => exact .inr ⟨a, rfl, h⟩

theorem mapError_eq_ok {ε : Type} {y : Except ε α} {g : ε → Failure} {a : α} (h : y.mapError g = .ok a) :
    y = .ok a := by
  cases y <;> cases h
  rfl

theorem mapError_eq_error {ε : Type} {y : Except ε α} {g : ε → Failure} {e : Failure}
    (h : y.mapError g = .error e) : ∃ reason, y = .error reason ∧ e = g reason := by
  cases y <;> cases h
  exact ⟨_, rfl, rfl⟩

/-- Rows are read one after another. -/
theorem mapM_of_forall₂ {l : List α} {l' : List β} (h : List.Forall₂ (fun a b => f a = .ok b) l l') :
    l.mapM f = .ok l' := by
  induction h with
  | nil => rfl
  | cons hab _ ih =>
    rw [List.mapM_cons, hab, ih]
    rfl

end Readings

namespace Row

variable {row : Row} {α : Type} {kind : Cell → Option α} {name : String} {e : Failure}

/-! ## Cells -/

theorem cell_error (h : row.cell name = .error e) : e = .column name := by
  unfold cell at h
  split at h <;> cases h
  rfl

/-- A value that is never null is only missed for its column. -/
theorem get_error (h : row.get kind name = .error e) : e = .column name := by
  rcases bind_eq_error h with hcell | ⟨c, -, hvalue⟩
  · exact cell_error hcell
  · split at hvalue <;> cases hvalue
    rfl

/-- A value that may be null is only missed for its column. -/
theorem get?_error (h : row.get? kind name = .error e) : e = .column name := by
  rcases bind_eq_error h with hcell | ⟨c, -, hvalue⟩
  · exact cell_error hcell
  · split at hvalue
    · cases hvalue
    · split at hvalue <;> cases hvalue
      rfl

/-! ## Sessions -/

/-- What is wrong with the row of a session: a column, the name of the status, or a pause out of range. -/
inductive Unreadable (row : Row) : Failure → Prop where
  | column (name : String) : Unreadable row (.column name)
  | status {name : String} (stored : row.get Cell.text? "status" = .ok name)
      (unknown : SessionStatus.ofText? name = none) : Unreadable row (unexpected "session status" name)
  | pause {w : Word} (stored : row.get Cell.integer? "accumulated_pause_ms" = .ok w)
      (outside : Span.ofMillis? w.toInt = none) : Unreadable row .overflow

theorem Unreadable.of_get (h : row.get kind name = .error e) : row.Unreadable e :=
  get_error h ▸ .column name

theorem Unreadable.of_get? (h : row.get? kind name = .error e) : row.Unreadable e :=
  get?_error h ▸ .column name

theorem Unreadable.of_pause {w : Word} (stored : row.get Cell.integer? "accumulated_pause_ms" = .ok w)
    (h : Row.pause w = .error e) : row.Unreadable e := by
  unfold Row.pause at h
  split at h <;> cases h
  exact .pause stored ‹_›

theorem Unreadable.of_status (stored : row.get Cell.text? "status" = .ok name)
    (h : Row.status name = .error e) : row.Unreadable e := by
  unfold Row.status at h
  split at h <;> cases h
  exact .status stored ‹_›

/-- A row that is not read as a session is unreadable. -/
theorem unreadable_of_session (h : row.session = .error e) : row.Unreadable e := by
  -- column by column: the first that cannot be read is the error
  rcases bind_eq_error h with h | ⟨statusName, hstatus, h⟩
  · exact .of_get h
  rcases bind_eq_error h with h | ⟨id, -, h⟩
  · exact .of_get h
  rcases bind_eq_error h with h | ⟨room, -, h⟩
  · exact .of_get h
  -- the columns from here on are those that views have as well
  rcases bind_eq_error h with h | ⟨customer, -, h⟩
  · exact .of_get? h
  rcases bind_eq_error h with h | ⟨startedAt, -, h⟩
  · exact .of_get h
  rcases bind_eq_error h with h | ⟨scheduledEndAt, -, h⟩
  · exact .of_get h
  rcases bind_eq_error h with h | ⟨pausedAt, -, h⟩
  · exact .of_get? h
  rcases bind_eq_error h with h | ⟨milliseconds, hmilliseconds, h⟩
  · exact .of_get h
  rcases bind_eq_error h with h | ⟨accumulatedPause, -, h⟩
  · exact .of_pause hmilliseconds h
  rcases bind_eq_error h with h | ⟨status, -, h⟩
  · exact .of_status hstatus h
  rcases bind_eq_error h with h | ⟨billedTimeCost, -, h⟩
  · exact .of_get h
  rcases bind_eq_error h with h | ⟨endedAt, -, h⟩
  · exact .of_get? h
  · cases h

/-! ## Writing -/

/-- A cell for a value that may be absent. -/
def optional (f : α → Cell) : Option α → Cell
  | none => .null
  | some a => f a

/-- The cells of a session that its row has in common with the row of a view. -/
def billing (s : Option Session) : Row :=
  [("customer_id", optional .integer (s.bind (·.customer))),
   ("started_at", optional .instant (s.map (·.startedAt))),
   ("scheduled_end_at", optional .instant (s.map (·.scheduledEndAt))),
   ("paused_at", optional .instant (s.bind (·.pausedAt))),
   ("accumulated_pause_ms", optional .integer (s.map fun s => .ofInt s.accumulatedPause.millis)),
   ("status", optional .text (s.map (·.status.text))),
   ("billed_time_cost", optional .integer (s.map (·.billedTimeCost))),
   ("ended_at", optional .instant (s.bind (·.endedAt)))]

def ofSession (s : Session) : Row :=
  ("id", .uuid s.id) :: ("room_id", .integer s.room) :: billing (some s)

/-- The row of a finalized session with the device of its room. -/
def ofCommit (c : Commit) : Row :=
  ofSession c.session ++ [("device_id", optional .integer c.device)]

/-- The row of a room with its device and its open session. -/
def ofRoom (room : Room) (device : Option Device) (session : Option Session) : Row :=
  [("id", .integer room.id), ("branch_id", .integer room.branch), ("name", .text room.name),
   ("state", .text room.state.text), ("device_id", optional .integer room.device),
   ("device_name", optional .text (device.map (·.name))),
   ("owner_user_id", optional .integer (device.bind (·.owner))),
   ("device_active", optional .bool (device.map (·.active))),
   ("session_id", optional .uuid (session.map (·.id)))] ++ billing session

/-- The pause of a session as a number of milliseconds and back. -/
theorem pause_millis {a : Span} (whole : 1000000 ∣ a.nanos) : Row.pause (.ofInt a.millis) = .ok a := by
  have hmillis : a.millis * 1000000 = a.nanos := Int.tdiv_mul_cancel whole
  have hrange := a.inRange
  have hword : (Int64.ofInt a.millis).toInt = a.millis :=
    Int64.toInt_ofInt_of_le (by omega) (by omega)
  have hspan : Span.ofMillis? a.millis = some a :=
    Span.ofNanos?_eq_some_iff.mpr hmillis.symm
  rw [Row.pause, hword, hspan]

theorem status_text (status : SessionStatus) : Row.status status.text = .ok status := by
  cases status <;> rfl

/-- What was written into a column is read from it. -/
theorem get?_of_cell {f : α → Cell} {o : Option α} (h : row.cell name = .ok (optional f o))
    (hkind : ∀ a, kind (f a) = some a) (hnull : ∀ a, f a ≠ .null) : row.get? kind name = .ok o := by
  unfold get?
  rw [h]
  cases o with
  | none => rfl
  -- a value is read by its own kind, and is not null
  | some a =>
    simp only [optional, bind, Except.bind]
    split
    · exact absurd ‹_› (hnull a)
    · rw [hkind]

theorem get?_integer {o : Option Word} (h : row.cell name = .ok (optional .integer o)) :
    row.get? Cell.integer? name = .ok o :=
  get?_of_cell h (fun _ => rfl) (fun _ => Cell.noConfusion)

theorem get?_instant {o : Option Instant} (h : row.cell name = .ok (optional .instant o)) :
    row.get? Cell.instant? name = .ok o :=
  get?_of_cell h (fun _ => rfl) (fun _ => Cell.noConfusion)

theorem get?_text {o : Option String} (h : row.cell name = .ok (optional .text o)) :
    row.get? Cell.text? name = .ok o :=
  get?_of_cell h (fun _ => rfl) (fun _ => Cell.noConfusion)

theorem get?_bool {o : Option Bool} (h : row.cell name = .ok (optional .bool o)) :
    row.get? Cell.bool? name = .ok o :=
  get?_of_cell h (fun _ => rfl) (fun _ => Cell.noConfusion)

theorem get?_uuid {o : Option Uuid} (h : row.cell name = .ok (optional .uuid o)) :
    row.get? Cell.uuid? name = .ok o :=
  get?_of_cell h (fun _ => rfl) (fun _ => Cell.noConfusion)

/-- A row whose cells are those of a session is read as the session. -/
theorem sessionOf_eq {s : Session} (whole : 1000000 ∣ s.accumulatedPause.nanos)
    (h : ∀ e ∈ billing (some s), row.cell e.1 = .ok e.2) :
    row.sessionOf s.status.text s.id s.room = .ok s := by
  simp only [billing, List.forall_mem_cons] at h
  obtain ⟨hcustomer, hstarted, hends, hpaused, hpause, -, hcost, hended, -⟩ := h
  simp only [sessionOf, get?_integer hcustomer, get, hstarted, hends, get?_instant hpaused, hpause, hcost,
    get?_instant hended, optional, Option.map_some, Option.bind_some, Cell.instant?, Cell.integer?,
    pause_millis whole, status_text, bind, Except.bind]

/-- The row of a session holds it. -/
theorem session_ofSession {s : Session} (whole : 1000000 ∣ s.accumulatedPause.nanos) :
    (ofSession s).session = .ok s := by
  have h : ∀ e ∈ billing (some s), (ofSession s).cell e.1 = .ok e.2 := by
    simp only [billing, List.forall_mem_cons]
    exact ⟨rfl, rfl, rfl, rfl, rfl, rfl, rfl, rfl, by simp⟩
  exact sessionOf_eq whole h

/-- The row of a finalized session holds it with the device. -/
theorem commit_ofCommit {c : Commit} (whole : 1000000 ∣ c.session.accumulatedPause.nanos) :
    (ofCommit c).commit = .ok c := by
  have h : ∀ e ∈ billing (some c.session), (ofCommit c).cell e.1 = .ok e.2 := by
    simp only [billing, List.forall_mem_cons]
    exact ⟨rfl, rfl, rfl, rfl, rfl, rfl, rfl, rfl, by simp⟩
  have hsession : (ofCommit c).session = .ok c.session := sessionOf_eq whole h
  have hdevice : (ofCommit c).get? Cell.integer? "device_id" = .ok c.device := get?_integer rfl
  simp only [commit, hsession, hdevice, bind, Except.bind]

/-! ## Views -/

section Views

variable {description : Room} {linked : Option Device} {shown : Option Session}

/-- The room of a row is read back as it is. -/
theorem room_ofRoom : (ofRoom description linked shown).room = .ok description := by
  have hdevice : (ofRoom description linked shown).get? Cell.integer? "device_id" = .ok description.device :=
    get?_integer rfl
  have hstate : (ofRoom description linked shown).get Cell.text? "state" = .ok description.state.text := rfl
  have hread : RoomState.ofText? description.state.text = some description.state := by
    cases description.state <;> rfl
  unfold Row.room
  rw [hdevice, hstate]
  simp only [bind, Except.bind, hread]
  rfl

/-- A device is found in the row if the room is linked to it. -/
theorem device_ofRoom (h : ∀ d, linked = some d → description.device = some d.id) :
    (ofRoom description linked shown).device description.device = .ok linked := by
  have hname : (ofRoom description linked shown).get? Cell.text? "device_name" =
      .ok (linked.map (·.name)) := get?_text rfl
  have howner : (ofRoom description linked shown).get? Cell.integer? "owner_user_id" =
      .ok (linked.bind (·.owner)) := get?_integer rfl
  have hactive : (ofRoom description linked shown).get? Cell.bool? "device_active" =
      .ok (linked.map (·.active)) := get?_bool rfl
  unfold Row.device
  rw [hname, howner, hactive]
  cases linked with
  | none => cases description.device <;> rfl
  | some d =>
    -- the linked device is the one the room names
    rw [h d rfl]
    rfl

/-- An open session is found in the row. -/
theorem openSession_ofRoom
    (h : ∀ s, shown = some s → s.room = description.id ∧ 1000000 ∣ s.accumulatedPause.nanos) :
    (ofRoom description linked shown).openSession description.id = .ok shown := by
  have hid : (ofRoom description linked shown).get? Cell.uuid? "session_id" = .ok (shown.map (·.id)) :=
    get?_uuid rfl
  unfold openSession
  rw [hid]
  cases shown with
  | none => rfl
  | some s =>
    obtain ⟨hroom, whole⟩ := h s rfl
    -- all the columns of the session are there, read or not
    have hcells : ∀ e ∈ billing (some s), (ofRoom description linked (some s)).cell e.1 = .ok e.2 := by
      simp only [billing, List.forall_mem_cons]
      exact ⟨rfl, rfl, rfl, rfl, rfl, rfl, rfl, rfl, by simp⟩
    have hstatus : (ofRoom description linked (some s)).get Cell.text? "status" = .ok s.status.text := rfl
    simp only [bind, Except.bind, Option.map_some, hstatus, ← hroom, sessionOf_eq whole hcells]
    rfl

/-- The row of a room is read as the view of the room, with its device and its open session. -/
theorem view_ofRoom {now : Instant} (hdevice : ∀ d, linked = some d → description.device = some d.id)
    (hsession : ∀ s, shown = some s → s.room = description.id ∧ 1000000 ∣ s.accumulatedPause.nanos) :
    (ofRoom description linked shown).view now =
      match RoomView.project? description linked shown now with
      | some v => .ok v
      | none => .error .overflow := by
  have read : ∀ {α β : Type} (a : α) (f : α → Except Failure β), (Except.ok a >>= f) = f a := fun _ _ => rfl
  unfold Row.view
  rw [room_ofRoom, read, device_ofRoom hdevice, read, openSession_ofRoom hsession]
  exact read shown _

end Views

end Row

end Occupancy.Postgres
