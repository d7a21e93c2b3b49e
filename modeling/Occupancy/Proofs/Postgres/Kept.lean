import Mathlib.Tactic.ByContra
import Occupancy.Proofs.Postgres.Requests

/-!
# Sessions that columns hold

Columns keep microseconds and milliseconds, so not every session comes back from the tables as it went in.
Where the clock goes ahead in whole milliseconds, all sessions of a store do, unless a resumed session was cut
off at the last instant. Main statements: `Session.Kept.move` and `Session.Kept.held_end` for a session and
`Store.timed_inMemory` for a store.
-/

namespace Occupancy

open Postgres (Held Request)

namespace Postgres

theorem Held.ne_last {i : Instant} (h : Held i) : i ≠ .last := by
  rintro rfl
  have hlast : (Instant.last).nanos = 8210266876800 * 1000000000 - 1 := rfl
  have hwhole := h.whole
  omega

/-- The span between two instants that are held is a number of milliseconds. -/
theorem Held.whole_sub {a b : Instant} (ha : Held a) (hb : Held b) : 1000000 ∣ (a - b).clampNonneg.nanos := by
  have hwhole : 1000000 ∣ a.nanos - b.nanos := Int.dvd_sub ha.whole hb.whole
  unfold Span.clampNonneg
  split
  · exact Int.dvd_zero _
  · exact hwhole

end Postgres

namespace Session

/-- The columns of the table hold a session as it is, but perhaps for its scheduled end. -/
structure Kept (s : Session) : Prop where
  startedAt : Held s.startedAt
  pausedAt : ∀ i, s.pausedAt = some i → Held i ∧ s.startedAt ≤ i
  endedAt : ∀ i, s.endedAt = some i → Held i
  accumulatedPause : 1000000 ∣ s.accumulatedPause.nanos

namespace Kept

variable {s next : Session} {now : Instant}

/-- A pause is a number of milliseconds, however long it was. -/
theorem whole_pause (h : s.Kept) (hnow : Held now) : 1000000 ∣ (s.pauseSoFar now).nanos := by
  unfold pauseSoFar
  split
  · rename_i pausedAt hpausedAt
    exact hnow.whole_sub (h.pausedAt pausedAt hpausedAt).1
  · exact Int.dvd_zero _

/-- Whole milliseconds add up to whole milliseconds. -/
theorem whole_saturatingAdd {a b : Span} (ha : 1000000 ∣ a.nanos) (hb : 1000000 ∣ b.nanos) :
    1000000 ∣ (a.saturatingAdd b).nanos := by
  unfold Span.saturatingAdd
  cases hadd : a.add? b with
  | none => exact ⟨9223372036854775807, rfl⟩
  | some c =>
    rw [Option.getD_some, Span.add?_eq_some_iff.mp hadd]
    exact Int.dvd_add ha hb

/-- A booked session starts at the instant of the booking and ends whole seconds later. -/
theorem of_book {id : SessionId} {room : RoomId} {customer : Option Word} {duration : Word}
    (hnow : Held now) (h : book id room customer duration now = .ok s) :
    s.Kept ∧ Held s.scheduledEndAt := by
  obtain ⟨positive, -, ending, hending, rfl⟩ := book_eq_ok h
  have hwhole := hnow.whole
  have hlate := Instant.le_iff.mp hnow.late
  refine ⟨⟨hnow, ?_, ?_, Int.dvd_zero _⟩, ?_, ?_⟩
  · rintro i ⟨⟩
  · rintro i ⟨⟩
  -- a duration is in whole seconds, so the end is as whole as the start
  · rw [hending]
    omega
  · rw [Instant.le_iff, hending]
    omega

/-- A move at an instant that is held keeps a session so. -/
theorem move (h : s.Kept) (hnow : Held now) (started : s.startedAt ≤ now) (hmove : s.Move now next) :
    next.Kept := by
  have hpause := h.whole_pause hnow
  -- only starts, ends and pauses are touched, and each comes from instants that are kept
  cases hmove with
  | pause running unpaused =>
    refine ⟨h.startedAt, ?_, h.endedAt, h.accumulatedPause⟩
    rintro i ⟨⟩
    exact ⟨hnow, started⟩
  | resume paused =>
    exact ⟨h.startedAt, by rintro i ⟨⟩, h.endedAt, whole_saturatingAdd h.accumulatedPause hpause⟩
  | extend running shifted => exact ⟨h.startedAt, h.pausedAt, h.endedAt, h.accumulatedPause⟩
  | close isOpen terminal =>
    refine ⟨h.startedAt, by rintro i ⟨⟩, ?_, whole_saturatingAdd h.accumulatedPause hpause⟩
    rintro i ⟨⟩
    exact hnow

/-! ### The scheduled end -/

/-- A shifted end is whole seconds away, or it is the start. -/
theorem held_shiftedEnd (h : s.Kept) (ends : Held s.scheduledEndAt) {delta : Word} {ending : Instant}
    (hshift : s.shiftedEnd delta = .ok ending) : Held ending := by
  -- a later instant than the start is late enough for a column
  have hlater : ∀ moved : Instant, 1000000 ∣ moved.nanos → Held (moved.later s.startedAt) := by
    intro moved hmoved
    refine ⟨?_, Instant.le_trans h.startedAt.late (Instant.le_later_right _ _)⟩
    unfold Instant.later
    split
    · exact h.startedAt.whole
    · exact hmoved
  unfold shiftedEnd at hshift
  -- nothing is left of the session, or the end was moved by whole seconds
  split at hshift
  · split at hshift <;> cases hshift
    exact h.startedAt
  · rename_i moved hadd
    have hmoved := Instant.bind_add?_eq_some_iff.mp hadd
    have hwhole := ends.whole
    dsimp only at hshift
    split at hshift <;> cases hshift
    refine hlater moved ?_
    rw [hmoved]
    omega

/-- A move shifts the end by milliseconds, or it cuts it off at the last instant. -/
theorem held_end (h : s.Kept) (ends : Held s.scheduledEndAt) (hnow : Held now) (hmove : s.Move now next) :
    next.scheduledEndAt = .last ∨ Held next.scheduledEndAt := by
  cases hmove with
  | pause running unpaused => exact .inr ends
  | resume paused =>
    -- the end moves ahead by the pause
    have hpause := h.whole_pause hnow
    have hnonneg := s.pauseSoFar_nonneg now
    simp only [resumed]
    cases hadd : s.scheduledEndAt.add? (s.pauseSoFar now) with
    | none => exact .inl rfl
    | some ending =>
      right
      have hending := Instant.add?_eq_some_iff.mp hadd
      have hlate := Instant.le_iff.mp ends.late
      refine ⟨?_, ?_⟩
      · rw [Option.getD_some, hending]
        exact Int.dvd_add ends.whole hpause
      · rw [Option.getD_some, Instant.le_iff, hending]
        omega
  | extend running shifted => exact .inr (h.held_shiftedEnd ends shifted)
  | close isOpen terminal => exact .inr ends

/-- Whatever the end, a column takes in an instant that is no earlier than the start, and this is the end
unless it was cut off. -/
theorem exists_column (h : s.Kept) (ends : s.scheduledEndAt = .last ∨ Held s.scheduledEndAt)
    (ordered : s.startedAt ≤ s.scheduledEndAt) :
    ∃ ending, Postgres.column s.scheduledEndAt = .ok ending ∧ s.startedAt ≤ ending ∧
      (s.scheduledEndAt ≠ .last → ending = s.scheduledEndAt) := by
  rcases ends with hlast | hheld
  · have hcolumn : Postgres.column .last = .ok (Postgres.cut .last) := rfl
    refine ⟨Postgres.cut .last, by rw [hlast, hcolumn], ?_, fun uncut => absurd hlast uncut⟩
    -- only nanoseconds are lost, and the start has none
    have hcut : (Postgres.cut .last).nanos = 8210266876800 * 1000000000 - 1000 := by decide
    have hrange := s.startedAt.inRange
    have hwhole := h.startedAt.whole
    rw [Instant.le_iff, hcut]
    omega
  · exact ⟨s.scheduledEndAt, Postgres.column_of_held hheld, ordered, fun _ => rfl⟩

end Kept

theorem Move.startedAt_eq {s next : Session} {now : Instant} (h : s.Move now next) :
    next.startedAt = s.startedAt := by
  cases h <;> rfl

end Session

/-! ## Records -/

/-- A session is held by the columns with its end, and has started by `now`. -/
structure Session.Timed (now : Instant) (s : Session) : Prop where
  kept : s.Kept
  ends : Held s.scheduledEndAt
  started : s.startedAt ≤ now

namespace RoomRecord

/-- The sessions of a record are held by columns, and each started later than the one before it, the last one no
later than `now`. -/
structure Timed (now : Instant) (r : RoomRecord) : Prop where
  sessions : ∀ s ∈ r.history, s.Timed now
  ordered : r.history.Pairwise (·.startedAt < ·.startedAt)

namespace Timed

variable {now later : Instant} {r : RoomRecord}

theorem mono (h : r.Timed now) (hle : now ≤ later) : r.Timed later where
  sessions s hs :=
    ⟨(h.sessions s hs).kept, (h.sessions s hs).ends, Instant.le_trans (h.sessions s hs).started hle⟩
  ordered := h.ordered

/-- A session that starts after `now` comes last. -/
theorem append (h : r.Timed now) (hlt : now < later) {s : Session} (kept : s.Kept)
    (ends : Held s.scheduledEndAt) (hstart : s.startedAt = later) : (r.append s).Timed later := by
  constructor
  · intro x hx
    rcases List.mem_append.mp hx with old | new
    · exact (h.mono (Int.le_of_lt hlt)).sessions x old
    · rw [List.mem_singleton.mp new]
      exact ⟨kept, ends, hstart ▸ Instant.le_refl _⟩
  · refine List.pairwise_append.mpr ⟨h.ordered, List.pairwise_singleton _ _, ?_⟩
    -- every other session started before
    intro x hx y hy
    rw [List.mem_singleton.mp hy, hstart]
    exact Int.lt_of_le_of_lt (h.sessions x hx).started hlt

/-- The last session moves. -/
theorem move (h : r.Timed now) (hle : now ≤ later) (hlater : Held later) {current next : Session}
    (hcurrent : r.current? = some current) (hmove : current.Move later next)
    (uncut : next.scheduledEndAt ≠ .last) : (r.replaceCurrent next).Timed later := by
  have hlast := (h.mono hle).sessions current (r.mem_of_current? hcurrent)
  have hordered := h.ordered
  rw [history_eq_of_current? hcurrent, List.pairwise_append] at hordered
  constructor
  · intro x hx
    rcases List.mem_append.mp hx with inner | new
    · exact (h.mono hle).sessions x (List.mem_of_mem_dropLast inner)
    · rw [List.mem_singleton.mp new]
      exact ⟨hlast.kept.move hlater hlast.started hmove,
        (hlast.kept.held_end hlast.ends hlater hmove).resolve_left uncut,
        hmove.startedAt_eq ▸ hlast.started⟩
  -- the session that moved keeps its start and its place
  · refine List.pairwise_append.mpr ⟨hordered.1, List.pairwise_singleton _ _, ?_⟩
    intro x hx y hy
    rw [List.mem_singleton.mp hy, hmove.startedAt_eq]
    exact hordered.2.2 x hx current (List.mem_singleton.mpr rfl)

/-- An expired session is finalized without a cut, since its end stays where it is. -/
theorem settle (h : r.Timed now) (hle : now ≤ later) (hlater : Held later) :
    (r.settle later).Timed later := by
  cases hexpired : r.expired? later with
  | none =>
    rw [settle_of_unexpired hexpired]
    exact h.mono hle
  | some session =>
    obtain ⟨current, hcurrent, hexpire⟩ := Option.bind_eq_some_iff.mp hexpired
    rw [settle_of_expired hexpired]
    refine h.move hle hlater hcurrent (Session.move_of_expire? hexpire) ?_
    -- finalizing leaves the end as it was
    have hend : session.scheduledEndAt = current.scheduledEndAt := by
      unfold Session.expire? at hexpire
      split at hexpire <;> cases hexpire
      rfl
    rw [hend]
    exact (h.sessions current (r.mem_of_current? hcurrent)).ends.ne_last

end Timed

end RoomRecord

/-! ## Stores -/

namespace Store

/-- Writing a record that is as it should be leaves all of them so. -/
theorem EachRecord.set {P : RoomId → RoomRecord → Prop} {s : Store} (h : s.EachRecord P) {room : RoomId}
    {r : RoomRecord} (hr : P room r) : EachRecord P { s with rooms := s.rooms.set room r } := by
  intro key x hx
  rw [Table.get?_set] at hx
  split at hx
  · rename_i hkey
    cases hx
    rwa [hkey]
  · exact h key x hx

/-- All sessions of a store are held by columns and started by `now`. -/
abbrev Timed (now : Instant) (s : Store) : Prop :=
  s.EachRecord fun _ r => r.Timed now

theorem Timed.mono {now later : Instant} {s : Store} (h : s.Timed now) (hle : now ≤ later) : s.Timed later :=
  fun room r hr => (h room r hr).mono hle

theorem timed_ofSeed (seed : Seed) (now : Instant) : (ofSeed seed).Timed now := by
  intro room r hr
  have hnil : r.history = [] := (ofSeed_untouched seed).1 room r hr
  exact ⟨by simp [hnil], by simp [hnil]⟩

/-- A request at a later instant keeps a store timed, unless it commits a session that is cut off. -/
theorem timed_inMemory {now later : Instant} {s : Store} (h : s.Timed now) (hlt : now < later)
    (hlater : Held later) (r : Request) (id : SessionId) (uncut : (r.inMemory id later s).1.Uncut) :
    (r.inMemory id later s).2.Timed later := by
  have hle : now ≤ later := Int.le_of_lt hlt
  -- what the store was asked for either changes nothing or writes one record
  cases r with
  | assign room customer duration =>
    simp only [Request.inMemory] at uncut ⊢
    rcases s.assign_cases id room customer duration later with
      ⟨-, hassign⟩ | ⟨r, hr, -, ⟨-, hassign⟩ | ⟨-, e, -, hassign⟩ | ⟨free, session, booked, hassign⟩⟩ <;>
      rw [hassign]
    · exact h.mono hle
    · exact h.mono hle
    · exact h.mono hle
    · obtain ⟨-, -, _, -, hsession⟩ := Session.book_eq_ok booked
      obtain ⟨kept, ends⟩ := Session.Kept.of_book hlater booked
      exact (h.mono hle).set ((h room r hr).append hlt kept ends (by rw [hsession]))
  | apply room t =>
    simp only [Request.inMemory] at uncut ⊢
    rcases s.apply_cases room t later with
      ⟨-, happly⟩ | ⟨r, hr, ⟨-, happly⟩ | ⟨current, hcurrent, ⟨e, -, happly⟩ | ⟨next, hnext, happly⟩⟩⟩ <;>
      rw [happly] at uncut ⊢
    · exact h.mono hle
    · exact h.mono hle
    · exact h.mono hle
    · exact (h.mono hle).set
        ((h room r hr).move hle hlater hcurrent (Session.move_of_apply hnext) (uncut _ rfl))
  | finalizeExpired =>
    intro room x hx
    rw [Request.inMemory, get?_finalizeExpired] at hx
    obtain ⟨r, hr, rfl⟩ := Option.map_eq_some_iff.mp hx
    exact (h room r hr).settle hle hlater
  | view room => exact h.mono hle
  | views rooms => exact h.mono hle

/-- A request keeps every record of a store well formed. -/
theorem wellFormed_inMemory {s : Store} (wf : s.EachRecord RoomRecord.WellFormed) (r : Request)
    (id : SessionId) (now : Instant) : (r.inMemory id now s).2.EachRecord RoomRecord.WellFormed := by
  cases r with
  | assign room customer duration =>
    have h := wellFormed_execute wf (.assign id room customer duration now)
    simp only [execute] at h
    simp only [Request.inMemory]
    cases hassign : s.assign id room customer duration now with
    | error e => exact wf
    | ok x =>
      rw [hassign] at h
      exact h
  | apply room t =>
    have h := wellFormed_execute wf (.apply room t now)
    simp only [execute] at h
    simp only [Request.inMemory]
    cases happly : s.apply room t now with
    | error e => exact wf
    | ok x =>
      rw [happly] at h
      exact h
  | finalizeExpired => exact wellFormed_execute wf (.finalizeExpired now)
  | view room => exact wf
  | views rooms => exact wf

end Store

end Occupancy
