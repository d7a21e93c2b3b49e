import Occupancy.Proofs.Session.Billing

/-!
# A pause only shifts time

While a session is paused, the time that it has left stands still and it does not expire. Once it is resumed it
goes on as it would have gone on without the pause, only later by the length of the pause. Pauses add up, and it
makes no difference whether the scheduled end had passed before them. Main statement: `pauses_only_shift`.
-/

namespace Occupancy

namespace Session

/-! ## Pauses -/

/-- A pause with its begin and its end. -/
structure Pause where
  begins : Instant
  ends : Instant
  begins_le_ends : begins ≤ ends

def Pause.length (p : Pause) : Int :=
  p.ends.nanos - p.begins.nanos

theorem Pause.length_nonneg (p : Pause) : 0 ≤ p.length := by
  have hle := Instant.le_iff.mp p.begins_le_ends
  unfold length
  omega

def totalPause : List Pause → Int
  | [] => 0
  | p :: rest => p.length + totalPause rest

theorem totalPause_nonneg (pauses : List Pause) : 0 ≤ totalPause pauses := by
  induction pauses with
  | nil => exact Int.le_refl 0
  | cons p rest ih =>
    have hlength := p.length_nonneg
    rw [totalPause]
    omega

def afterPause (s : Session) (p : Pause) : Except RoomError Session :=
  (s.apply .pause p.begins).bind fun paused => paused.apply .resume p.ends

def afterPauses (s : Session) : List Pause → Except RoomError Session
  | [] => .ok s
  | p :: rest => (s.afterPause p).bind fun next => next.afterPauses rest

/-! ## While a session is in use -/

variable {s next : Session} {now later : Instant}

theorem remaining_of_running (running : s.status = .inUse) :
    s.remaining now = (s.scheduledEndAt - now).clampNonneg := by
  rw [remaining, billingInstant, running]

theorem isSome_expire?_iff : (s.expire? now).isSome = true ↔ s.isExpired now = true := by
  unfold expire?
  split <;> simp [*]

/-- Both sessions are in use, and the second one ends that many nanoseconds after the first. -/
structure Shifted (s next : Session) (n : Int) : Prop where
  running : s.status = .inUse
  running' : next.status = .inUse
  ends : next.scheduledEndAt.nanos = s.scheduledEndAt.nanos + n

namespace Shifted

variable {n m : Int}

theorem refl (running : s.status = .inUse) : Shifted s s 0 :=
  ⟨running, running, (Int.add_zero _).symm⟩

theorem trans {last : Session} (h : Shifted s next n) (h' : Shifted next last m) :
    Shifted s last (n + m) where
  running := h.running
  running' := h'.running'
  ends := by rw [h'.ends, h.ends, Int.add_assoc]

/-- What is left of the one is left of the other that much later. -/
theorem remaining_eq (h : Shifted s next n) (apart : later.nanos = now.nanos + n) :
    next.remaining later = s.remaining now := by
  have hspan : next.scheduledEndAt - later = s.scheduledEndAt - now := by
    refine Span.eq_of_nanos_eq ?_
    rw [Instant.nanos_sub, Instant.nanos_sub, h.ends]
    omega
  rw [remaining_of_running h.running', remaining_of_running h.running, hspan]

/-- The one expires when the other does, that much later. -/
theorem expires_iff (h : Shifted s next n) (apart : later.nanos = now.nanos + n) :
    (next.expire? later).isSome = true ↔ (s.expire? now).isSome = true := by
  have hends := h.ends
  rw [isSome_expire?_iff, isSome_expire?_iff, isExpired_iff, isExpired_iff, h.running, h.running',
    Instant.le_iff, Instant.le_iff]
  constructor <;> rintro ⟨-, hle⟩ <;> exact ⟨rfl, by omega⟩

end Shifted

/-! ## While it is paused -/

/-- The session in use is paused at `now`. -/
def pausedFrom (s : Session) (now : Instant) : Session :=
  { s with pausedAt := some now, status := .paused }

theorem apply_pause (running : s.status = .inUse) (unpaused : s.pausedAt = none) (now : Instant) :
    s.apply .pause now = .ok (s.pausedFrom now) := by
  unfold apply
  rw [running]
  exact if_pos unpaused

/-- The time left stands still from the begin of the pause on. -/
theorem remaining_pausedFrom (running : s.status = .inUse) (hle : now ≤ later) :
    (s.pausedFrom now).remaining later = s.remaining now := by
  -- what is left of a paused session is counted from the begin of its pause
  have hinstant : (s.pausedFrom now).billingInstant later = now := if_pos hle
  rw [remaining, hinstant, remaining_of_running running]
  rfl

theorem expire?_pausedFrom (s : Session) (now later : Instant) :
    (s.pausedFrom now).expire? later = none :=
  rfl

/-! ## After it -/

/-- A pause that leaves the end within the calendar shifts the end by its length. -/
theorem shifted_afterPause (running : s.status = .inUse) (unpaused : s.pausedAt = none) (p : Pause)
    (within : s.scheduledEndAt.nanos + p.length ≤ Instant.last.nanos) :
    ∃ next, s.afterPause p = .ok next ∧ next.pausedAt = none ∧ Shifted s next p.length := by
  have hlength := p.length_nonneg
  -- a pause that ends after it began is not cut to nothing
  have hspan : ((s.pausedFrom p.begins).pauseSoFar p.ends).nanos = p.length := by
    have hsub : (p.ends - p.begins).nanos = p.length := Instant.nanos_sub _ _
    show (p.ends - p.begins).clampNonneg.nanos = p.length
    rw [Span.clampNonneg_of_nonneg (by rw [hsub]; exact hlength), hsub]
  -- the end is not cut off at the last instant
  have hend : ∃ ending, s.scheduledEndAt.add? ((s.pausedFrom p.begins).pauseSoFar p.ends) = some ending := by
    refine Option.ne_none_iff_exists'.mp fun hnone => ?_
    have hbeyond := Instant.last_lt_of_add?_eq_none hnone (by rw [hspan]; exact hlength)
    rw [hspan] at hbeyond
    omega
  obtain ⟨ending, hending⟩ := hend
  refine ⟨(s.pausedFrom p.begins).resumed p.ends, ?_, rfl, running, rfl, ?_⟩
  -- the pause is accepted, and so is the resumption
  · rw [afterPause, apply_pause running unpaused]
    rfl
  · have hsame : (s.pausedFrom p.begins).scheduledEndAt = s.scheduledEndAt := rfl
    rw [resumed, hsame, hending, Option.getD_some, Instant.add?_eq_some_iff.mp hending, hspan]

/-- Several pauses shift the end by all their lengths. -/
theorem shifted_afterPauses (running : s.status = .inUse) (unpaused : s.pausedAt = none)
    {pauses : List Pause} (within : s.scheduledEndAt.nanos + totalPause pauses ≤ Instant.last.nanos) :
    ∃ next, s.afterPauses pauses = .ok next ∧ next.pausedAt = none ∧
      Shifted s next (totalPause pauses) := by
  -- the end shifts with every pause, so the session has to vary in the induction
  induction pauses generalizing s with
  | nil => exact ⟨s, rfl, unpaused, .refl running⟩
  | cons p rest ih =>
    -- the first pause alone stays within the calendar, as the others are not negative
    have hrest := totalPause_nonneg rest
    rw [totalPause] at within
    obtain ⟨middle, hmiddle, hunpaused, hshift⟩ := shifted_afterPause running unpaused p (by omega)
    obtain ⟨next, hnext, hunpaused', hshift'⟩ :=
      ih hshift.running' hunpaused (by rw [hshift.ends]; omega)
    refine ⟨next, ?_, hunpaused', hshift.trans hshift'⟩
    rw [afterPauses, hmiddle]
    exact hnext

/-- Whatever happens to a session, it stays well formed. -/
theorem WellFormed.live (h : s.WellFormed) (events : List (Event × Instant)) : (s.live events).WellFormed := by
  induction events generalizing s with
  | nil => exact h
  | cons e rest ih =>
    obtain ⟨e, now⟩ := e
    rcases s.meet_cases e now with hsame | hmove
    · exact ih (by rwa [hsame])
    · exact ih (hmove.wellFormed h)

/-- **Pauses only shift time.** Let a session be in use after whatever happened to it, and let pauses follow
that leave its end within the calendar. They all succeed. After them the session is in use, and at every instant
it has the time left, and it expires or not, as before them at the instant that lies earlier by the length of
all the pauses. It can be paused once more at any instant; from then on the time left stands still, and the
session does not expire. -/
theorem pauses_only_shift {id : SessionId} {room : RoomId} {customer : Option Word} {duration : Word}
    {start : Instant} {booked : Session} (h : book id room customer duration start = .ok booked)
    {events : List (Event × Instant)} (running : (booked.live events).status = .inUse)
    {pauses : List Pause}
    (within : (booked.live events).scheduledEndAt.nanos + totalPause pauses ≤ Instant.last.nanos) :
    let s := booked.live events
    ∃ next, s.afterPauses pauses = .ok next ∧ next.status = .inUse ∧
      (∀ now later, later.nanos = now.nanos + totalPause pauses →
        next.remaining later = s.remaining now ∧
          ((next.expire? later).isSome = true ↔ (s.expire? now).isSome = true)) ∧
      ∀ begins, ∃ paused, next.apply .pause begins = .ok paused ∧
        ∀ later, (begins ≤ later → paused.remaining later = next.remaining begins) ∧
          paused.expire? later = none := by
  intro s
  -- a session in use has no pause under way
  have unpaused : s.pausedAt = none :=
    ((WellFormed.of_book h).live events).unpaused (by rw [running]; decide)
  obtain ⟨next, hnext, hunpaused, hshift⟩ := shifted_afterPauses running unpaused within
  refine ⟨next, hnext, hshift.running', fun now later apart => ?_, fun begins => ?_⟩
  · exact ⟨hshift.remaining_eq apart, hshift.expires_iff apart⟩
  · exact ⟨next.pausedFrom begins, apply_pause hshift.running' hunpaused begins,
      fun later => ⟨remaining_pausedFrom hshift.running', next.expire?_pausedFrom begins later⟩⟩

/-- A session is booked for an hour at the epoch and paused from the tenth minute to the twentieth, and, when its
end has passed, from the eightieth to the hundredth. Then it has expired, as it would have at the seventieth
minute without the pauses. -/
theorem pauses_only_shift_twice :
    let minute (n : Int) (h : 0 ≤ n ∧ n ≤ 100) : Instant := ⟨n * 60000000000, by omega⟩
    let pauses : List Pause :=
      [⟨minute 10 (by decide), minute 20 (by decide), by decide⟩,
        ⟨minute 80 (by decide), minute 100 (by decide), by decide⟩]
    ∃ booked next, book ⟨1⟩ 7 none 3600 .epoch = .ok booked ∧ booked.afterPauses pauses = .ok next ∧
      next.remaining (minute 100 (by decide)) = booked.remaining (minute 70 (by decide)) ∧
      ((next.expire? (minute 100 (by decide))).isSome = true ↔
        (booked.expire? (minute 70 (by decide))).isSome = true) := by
  intro minute pauses
  let booked : Session :=
    ⟨⟨1⟩, 7, none, .epoch, ⟨3600000000000, by decide⟩, none, .zero, .inUse, 0, none⟩
  have h : book ⟨1⟩ 7 none 3600 .epoch = .ok booked := rfl
  have running : (booked.live []).status = .inUse := rfl
  have within : (booked.live []).scheduledEndAt.nanos + totalPause pauses ≤ Instant.last.nanos := by decide
  obtain ⟨next, hnext, -, hshift, -⟩ := pauses_only_shift h running within
  exact ⟨booked, next, h, hnext, hshift (minute 70 (by decide)) (minute 100 (by decide)) rfl⟩

end Session

end Occupancy
