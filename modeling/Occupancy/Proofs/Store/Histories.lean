import Mathlib.Data.List.Infix
import Mathlib.Tactic.ByContra
import Occupancy.Proofs.Store.Commands

/-!
# Histories stay well formed

Along every run of a store, whatever the clock does, only the last row of a history can be open, and
every row belongs to its room and is well formed. The invariant is `RoomRecord.WellFormed`; its two
clauses need each other, because a booking turns the last row into an inner one.
-/

namespace Occupancy

namespace RoomRecord

/-- The rows of a record belong to its room and are well formed, and all but the last have ended. -/
structure WellFormed (room : RoomId) (r : RoomRecord) : Prop where
  rows : ∀ s ∈ r.history, s.room = room ∧ s.WellFormed
  ended : ∀ s ∈ r.history.dropLast, s.status.isTerminal = true

variable {room : RoomId} {r : RoomRecord}

/-! ## The last row -/

/-- The most recent session is the last row. -/
theorem history_eq_of_current? {s : Session} (h : r.current? = some s) :
    r.history = r.history.dropLast ++ [s] :=
  (List.dropLast_append_getLast? s h).symm

theorem mem_of_current? {s : Session} (h : r.current? = some s) : s ∈ r.history :=
  List.mem_of_getLast? h

/-- A row is an inner one or the most recent session. -/
theorem mem_history_cases {s : Session} (h : s ∈ r.history) :
    s ∈ r.history.dropLast ∨ r.current? = some s := by
  cases hc : r.current? with
  | none =>
    have hnil : r.history = [] := List.getLast?_eq_none_iff.mp hc
    rw [hnil] at h
    cases h
  | some current =>
    rw [history_eq_of_current? hc, List.mem_append, List.mem_singleton] at h
    rcases h with inner | rfl
    · exact .inl inner
    · exact .inr rfl

@[simp] theorem current?_append (r : RoomRecord) (s : Session) : (r.append s).current? = some s := by
  simp [append, current?]

@[simp] theorem current?_replaceCurrent (r : RoomRecord) (s : Session) :
    (r.replaceCurrent s).current? = some s := by
  simp [replaceCurrent, current?]

/-! ## Every change keeps records well formed -/

namespace WellFormed

theorem current (h : r.WellFormed room) {s : Session} (hc : r.current? = some s) :
    s.room = room ∧ s.WellFormed :=
  h.rows s (mem_of_current? hc)

/-- A row added to a room without an open session. -/
theorem append (h : r.WellFormed room) (free : r.open? = none) {s : Session}
    (hroom : s.room = room) (hs : s.WellFormed) : (r.append s).WellFormed room := by
  constructor
  · intro x hx
    rcases List.mem_append.mp hx with old | new
    · exact h.rows x old
    · rw [List.mem_singleton.mp new]
      exact ⟨hroom, hs⟩
  · intro x hx
    rw [RoomRecord.append, List.dropLast_concat] at hx
    rcases mem_history_cases hx with inner | last
    · -- a row that was inner has ended already
      exact h.ended x inner
    · exact SessionStatus.isTerminal_eq_true_iff.mpr (open?_eq_none_iff.mp free x last)

/-- The last row replaced. -/
theorem replaceCurrent (h : r.WellFormed room) {s : Session}
    (hroom : s.room = room) (hs : s.WellFormed) : (r.replaceCurrent s).WellFormed room := by
  constructor
  · intro x hx
    rcases List.mem_append.mp hx with inner | new
    · exact h.rows x (List.mem_of_mem_dropLast inner)
    · rw [List.mem_singleton.mp new]
      exact ⟨hroom, hs⟩
  · -- the inner rows are the same
    intro x hx
    rw [RoomRecord.replaceCurrent, List.dropLast_concat] at hx
    exact h.ended x hx

theorem change {r' : RoomRecord} (h : r.WellFormed room) (hc : Change room (some r) (some r')) :
    r'.WellFormed room := by
  cases hc with
  | none => exact h
  | describe _ description id => exact ⟨h.rows, h.ended⟩
  | book free booked =>
    obtain ⟨-, -, ending, -, hsession⟩ := Session.book_eq_ok booked
    exact h.append free (by rw [hsession]) (.of_book booked)
  | move current_eq moved =>
    -- what moves stays of its room and stays well-formed
    obtain ⟨hroom, hs⟩ := h.current current_eq
    exact h.replaceCurrent (moved.room_eq.trans hroom) (moved.wellFormed hs)
  | bill cost open_eq =>
    obtain ⟨current_eq, -⟩ := open?_eq_some_iff.mp open_eq
    obtain ⟨hroom, hs⟩ := h.current current_eq
    exact h.replaceCurrent hroom ⟨hs.pausedAt_iff, hs.endedAt_iff, hs.start_le_end, hs.pause_nonneg⟩

theorem create (description : Room) : WellFormed description.id ⟨description, []⟩ := by
  constructor
  · intro s hs
    cases hs
  · intro s hs
    cases hs

/-- Only the last row can be open. -/
theorem succ_eq_length_of_isOpen (h : r.WellFormed room) {i : Nat} {s : Session}
    (hi : r.history[i]? = some s) (isOpen : s.status.isOpen = true) : i + 1 = r.history.length := by
  obtain ⟨hlt, hget⟩ := List.getElem?_eq_some_iff.mp hi
  by_contra hne
  -- any earlier row is among the inner ones, which have ended
  have inner : s ∈ r.history.dropLast := by
    rw [← hget]
    have hlt' : i < r.history.dropLast.length := by
      rw [List.length_dropLast]
      omega
    rw [← List.getElem_dropLast hlt']
    exact List.getElem_mem hlt'
  have hended := SessionStatus.isTerminal_eq_true_iff.mp (h.ended s inner)
  rw [isOpen] at hended
  cases hended

end WellFormed

end RoomRecord

namespace Store

theorem keeps_wellFormed {s : Store} (wf : s.EachRecord RoomRecord.WellFormed)
    (commands : List Command) : (s.after commands).EachRecord RoomRecord.WellFormed :=
  after_induction RoomRecord.WellFormed.create (fun _ _ _ h hc => h.change hc) wf commands

theorem wellFormed_execute {s : Store} (wf : s.EachRecord RoomRecord.WellFormed) (c : Command) :
    (s.execute c).2.EachRecord RoomRecord.WellFormed :=
  keeps_wellFormed wf [c]

/-- Along every run from a seed, every record is well formed. -/
theorem wellFormed_after (seed : Seed) (commands : List Command) :
    ((ofSeed seed).after commands).EachRecord RoomRecord.WellFormed :=
  ofSeed_induction RoomRecord.WellFormed.create (fun _ _ _ h hc => h.change hc) seed commands

/-- **Histories are well formed along every run.** All rows but the last have ended, so an open row
is the last one, and every row belongs to the room and is well formed. -/
theorem history_wellFormed (seed : Seed) (commands : List Command) (room : RoomId) :
    let history := ((ofSeed seed).after commands).history room
    (∀ s ∈ history.dropLast, s.status.isTerminal = true) ∧
    (∀ i s, history[i]? = some s → s.status.isOpen = true → i + 1 = history.length) ∧
    (∀ s ∈ history, s.room = room ∧ s.WellFormed) := by
  intro history
  -- a room that is not there has no history
  cases hr : ((ofSeed seed).after commands).rooms.get? room with
  | none =>
    have hnil : history = [] := by simp [history, Store.history, hr]
    simp [hnil]
  | some r =>
    have hhistory : history = r.history := by simp [history, Store.history, hr]
    have h := wellFormed_after seed commands room r hr
    rw [hhistory]
    exact ⟨h.ended, fun i s hi isOpen => h.succ_eq_length_of_isOpen hi isOpen, h.rows⟩

end Store

end Occupancy
