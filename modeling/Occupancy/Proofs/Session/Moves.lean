import Occupancy.Proofs.Time
import Occupancy.Session.Lifecycle

/-!
# How a session changes

Every change of a session is one of four moves: it is paused, it is resumed, its end is shifted, or it
is closed. `move_of_apply` and `move_of_expire?` say so for transitions and for expiry, and everything
that holds along the life of a session is proved move by move. The first such fact is that a session
stays well formed.
-/

namespace Occupancy

namespace SessionStatus

theorem isTerminal_eq_true_iff {status : SessionStatus} :
    status.isTerminal = true ↔ status.isOpen = false := by
  cases status <;> decide

theorem isOpen_iff {status : SessionStatus} :
    status.isOpen = true ↔ status = .inUse ∨ status = .paused := by
  cases status <;> decide

end SessionStatus

namespace Session

/-! ## Moves -/

/-- A change of a session at `now`. -/
inductive Move (s : Session) (now : Instant) : Session → Prop where
  | pause (running : s.status = .inUse) (unpaused : s.pausedAt = none) :
      Move s now { s with pausedAt := some now, status := .paused }
  | resume (paused : s.status = .paused) : Move s now (s.resumed now)
  | extend {delta : Word} {ending : Instant} (running : s.status = .inUse)
      (shifted : s.shiftedEnd delta = .ok ending) : Move s now { s with scheduledEndAt := ending }
  | close {status : SessionStatus} (isOpen : s.status.isOpen = true)
      (terminal : status.isTerminal = true) : Move s now (s.close status now)

/-- A transition that succeeds is a move. -/
theorem move_of_apply {s next : Session} {t : Transition} {now : Instant}
    (h : s.apply t now = .ok next) : Move s now next := by
  unfold apply at h
  split at h
  -- pause, guarded by the mark of a pause
  · rename_i running
    split at h
    · rename_i unpaused
      cases h
      exact .pause running unpaused
    · cases h
  · rename_i paused
    cases h
    exact .resume paused
  -- an extension goes through where the end can be shifted
  · rename_i delta running
    cases shifted : s.shiftedEnd delta with
    | error e =>
      rw [shifted] at h
      cases h
    | ok ending =>
      rw [shifted] at h
      cases h
      exact .extend running shifted
  -- cancel and finalize close any open session
  · split at h
    · rename_i isOpen
      cases h
      exact .close isOpen rfl
    · cases h
  · split at h
    · rename_i isOpen
      cases h
      exact .close isOpen rfl
    · cases h
  · cases h

theorem isExpired_iff {s : Session} {now : Instant} :
    s.isExpired now = true ↔ s.status = .inUse ∧ s.scheduledEndAt ≤ now := by
  simp [isExpired]

/-- The expiry of a session is a move. -/
theorem move_of_expire? {s next : Session} {now : Instant} (h : s.expire? now = some next) :
    Move s now next := by
  unfold expire? at h
  split at h
  · rename_i expired
    rw [isExpired_iff] at expired
    cases h
    exact .close (SessionStatus.isOpen_iff.mpr (.inl expired.1)) rfl
  · cases h

/-- Only an open session moves. -/
theorem Move.isOpen {s next : Session} {now : Instant} (h : Move s now next) :
    s.status.isOpen = true := by
  cases h with
  | pause running _ => rw [running]; rfl
  | resume paused => rw [paused]; rfl
  | extend running _ => rw [running]; rfl
  | close isOpen _ => exact isOpen

theorem Move.room_eq {s next : Session} {now : Instant} (h : Move s now next) :
    next.room = s.room := by
  cases h <;> rfl

/-! ## Well-formed sessions -/

/-- What holds of every session at every time: a pause is marked exactly while it lasts, an end
exactly once it has come, the scheduled end is no earlier than the start, and the time spent in
pauses is not negative. -/
structure WellFormed (s : Session) : Prop where
  pausedAt_iff : s.pausedAt.isSome = true ↔ s.status = .paused
  endedAt_iff : s.endedAt.isSome = true ↔ s.status.isTerminal = true
  start_le_end : s.startedAt ≤ s.scheduledEndAt
  pause_nonneg : 0 ≤ s.accumulatedPause.nanos

theorem WellFormed.unpaused {s : Session} (h : s.WellFormed) (running : s.status ≠ .paused) :
    s.pausedAt = none :=
  Option.not_isSome_iff_eq_none.mp fun hp => running (h.pausedAt_iff.mp hp)

/-- An open session has no end. -/
theorem WellFormed.unended {s : Session} (h : s.WellFormed) (isOpen : s.status.isOpen = true) :
    s.endedAt = none := by
  refine Option.not_isSome_iff_eq_none.mp fun he => ?_
  have hterminal : s.status.isTerminal = true := h.endedAt_iff.mp he
  rw [SessionStatus.isTerminal_eq_true_iff, isOpen] at hterminal
  cases hterminal

theorem pauseSoFar_nonneg (s : Session) (now : Instant) : 0 ≤ (s.pauseSoFar now).nanos := by
  unfold pauseSoFar
  split
  · exact Span.clampNonneg_nonneg _
  · decide

/-- A shifted end is no earlier than the start. -/
theorem start_le_of_shiftedEnd {s : Session} {delta : Word} {ending : Instant}
    (h : s.shiftedEnd delta = .ok ending) : s.startedAt ≤ ending := by
  unfold shiftedEnd at h
  split at h
  · -- out of range: only a reduction succeeds, and ends at the start
    split at h
    · cases h
      exact Instant.le_iff.mpr (Int.le_refl _)
    · cases h
  · dsimp only at h
    split at h
    · cases h
    · cases h
      exact Instant.le_later_right _ _

/-- An extension fails only for its length. -/
theorem shiftedEnd_error {s : Session} {delta : Word} {e : RoomError} (h : s.shiftedEnd delta = .error e) :
    e = overbooked delta := by
  unfold shiftedEnd at h
  split at h
  · split at h <;> cases h
    rfl
  · dsimp only at h
    split at h <;> cases h
    rfl

/-- A booked session is in use from `now` until its scheduled end. -/
theorem book_eq_ok {id : SessionId} {room : RoomId} {customer : Option Word} {duration : Word}
    {now : Instant} {s : Session} (h : book id room customer duration now = .ok s) :
    0 < duration.toInt ∧ duration.toInt ≤ maxBookedSeconds ∧
      ∃ ending, ending.nanos = now.nanos + duration.toInt * 1000000000 ∧
        s = ⟨id, room, customer, now, ending, none, .zero, .inUse, 0, none⟩ := by
  unfold book at h
  split at h
  · cases h
  -- neither bound is passed, and the end is inside the calendar
  · rename_i positive
    split at h
    · cases h
    · rename_i bounded
      split at h
      · cases h
      · rename_i ending hending
        cases h
        exact ⟨by omega, by omega, ending, Instant.bind_add?_eq_some_iff.mp hending, rfl⟩

theorem WellFormed.of_book {id : SessionId} {room : RoomId} {customer : Option Word}
    {duration : Word} {now : Instant} {s : Session}
    (h : book id room customer duration now = .ok s) : s.WellFormed := by
  obtain ⟨positive, _, ending, hending, rfl⟩ := book_eq_ok h
  refine ⟨by simp, by simp [SessionStatus.isTerminal, SessionStatus.isOpen], ?_, ?_⟩
  · show now.nanos ≤ ending.nanos
    omega
  · show 0 ≤ Span.zero.nanos
    decide

/-- A move keeps a session well formed. -/
theorem Move.wellFormed {s next : Session} {now : Instant} (h : Move s now next)
    (hs : s.WellFormed) : next.WellFormed := by
  -- whatever moves is open, so its end has not come
  have unended := hs.unended h.isOpen
  have hpause := s.pauseSoFar_nonneg now
  cases h with
  | pause running _ =>
    exact ⟨by simp, by simp [unended, SessionStatus.isTerminal, SessionStatus.isOpen],
      hs.start_le_end, hs.pause_nonneg⟩
  | resume paused =>
    refine ⟨by simp [resumed], ?_, ?_, ?_⟩
    · simp [resumed, unended, SessionStatus.isTerminal, SessionStatus.isOpen]
    · -- the end moves ahead by the pause, or to the last instant
      exact Instant.le_add?_getD_last hs.start_le_end hpause
    · exact Span.saturatingAdd_nonneg hs.pause_nonneg hpause
  -- the two marks are not touched
  | extend running shifted =>
    have start_le_ending := start_le_of_shiftedEnd shifted
    exact ⟨hs.pausedAt_iff, hs.endedAt_iff, start_le_ending, hs.pause_nonneg⟩
  | @close status isOpen terminal =>
    refine ⟨?_, ?_, hs.start_le_end, Span.saturatingAdd_nonneg hs.pause_nonneg hpause⟩
    · -- a terminal status is not a pause, so the mark of one is gone
      have hne : status ≠ .paused := by
        rintro rfl
        cases terminal
      simp [Session.close, hne]
    · simp [Session.close, terminal]

end Session

end Occupancy
