import Occupancy.Proofs.Session.Moves

/-!
# The billed time is the time in use

The store keeps three numbers of a session: its start, the sum of its pauses, and the instant at which
its billing clock has stopped, if it has. Along every life of a session whose instants do not go back,
the clock reads the time that the session has spent in use. The link is `Metered`: the instant at which
the clock stands is the start, moved by the pauses and by the time in use. Since that instant is never
ahead of the present, all sums stay within the range of spans.
-/

namespace Occupancy

namespace Session

/-! ## Lives -/

/-- What can happen to a session: a transition is asked for, or its expiry is checked. -/
inductive Event where
  | ask (t : Transition)
  | check

/-- The session after an event at `now`. A transition that fails leaves it alone. -/
def meet (s : Session) (e : Event) (now : Instant) : Session :=
  match e with
  | .ask t =>
    match s.apply t now with
    | .ok next => next
    | .error _ => s
  | .check => (s.expire? now).getD s

def live (s : Session) : List (Event × Instant) → Session
  | [] => s
  | (e, now) :: rest => (s.meet e now).live rest

/-- The instant of the last event, or `since` if there is none. -/
def lastEvent (since : Instant) : List (Event × Instant) → Instant
  | [] => since
  | (_, now) :: rest => lastEvent now rest

/-- Instants from `since` on that do not go back. -/
def Ordered (since : Instant) : List (Event × Instant) → Prop
  | [] => True
  | (_, now) :: rest => since ≤ now ∧ Ordered now rest

/-- The nanoseconds from `since` to `now`, if the session is in use. -/
def inUseBetween (s : Session) (since now : Instant) : Int :=
  if s.status = .inUse then now.nanos - since.nanos else 0

/-- The nanoseconds from `since` to `now` that a session spends in use along its life, interval by
interval. The fields of the session other than its status play no part. -/
def timeInUse (s : Session) (since : Instant) : List (Event × Instant) → Instant → Int
  | [], now => s.inUseBetween since now
  | (e, event) :: rest, now => s.inUseBetween since event + (s.meet e event).timeInUse event rest now

/-- An event moves the session, or leaves it alone. -/
theorem meet_cases (s : Session) (e : Event) (now : Instant) :
    s.meet e now = s ∨ Move s now (s.meet e now) := by
  -- an accepted transition and an expiry are moves, anything else leaves the session
  cases e with
  | ask t =>
    cases h : s.apply t now with
    | ok next =>
      right
      simpa only [meet, h] using move_of_apply h
    | error e =>
      left
      simp only [meet, h]
  | check =>
    cases h : s.expire? now with
    | some next =>
      right
      simpa only [meet, h, Option.getD_some] using move_of_expire? h
    | none =>
      left
      simp only [meet, h, Option.getD_none]

/-! ## The meter -/

/-- The instant at which the billing clock has stopped: the start of the pause under way, or the end. -/
def stopped? (s : Session) : Option Instant :=
  s.pausedAt.or s.endedAt

/-- The instant at which the billing clock stands at `now`. -/
def clock (s : Session) (now : Instant) : Instant :=
  s.stopped?.getD now

/-- The clock runs exactly while the session is in use. -/
theorem WellFormed.stopped?_eq_none_iff {s : Session} (h : s.WellFormed) :
    s.stopped? = none ↔ s.status = .inUse := by
  have hpaused := h.pausedAt_iff
  have hended := h.endedAt_iff
  unfold stopped?
  rw [Option.or_eq_none_iff, ← Option.not_isSome_iff_eq_none, ← Option.not_isSome_iff_eq_none, hpaused,
    hended]
  cases s.status <;> decide

/-- At `now`, a session has spent `used` nanoseconds in use, and its fields say so. -/
structure Metered (s : Session) (now : Instant) (used : Int) : Prop where
  wellFormed : s.WellFormed
  clock_le : s.clock now ≤ now
  clock_eq : (s.clock now).nanos = s.startedAt.nanos + s.accumulatedPause.nanos + used
  used_nonneg : 0 ≤ used

namespace Metered

variable {s next : Session} {now later : Instant} {used : Int}

theorem of_book {id : SessionId} {room : RoomId} {customer : Option Word} {duration : Word}
    (h : book id room customer duration now = .ok s) : s.Metered now 0 := by
  have wellFormed : s.WellFormed := .of_book h
  obtain ⟨-, -, ending, -, rfl⟩ := book_eq_ok h
  have hclock : now.nanos = now.nanos + Span.zero.nanos + 0 := by simp [Span.zero]
  exact ⟨wellFormed, Instant.le_iff.mpr (Int.le_refl _), hclock, Int.le_refl _⟩

/-- While a session is in use its clock runs, and otherwise it stands still. -/
theorem advance (h : s.Metered now used) (hle : now ≤ later) :
    s.Metered later (used + s.inUseBetween now later) := by
  have hclock := h.clock_le
  have heq := h.clock_eq
  have hused := h.used_nonneg
  rw [Instant.le_iff] at hle hclock
  cases hstop : s.stopped? with
  | none =>
    -- the clock and the time in use go on together
    have running : s.status = .inUse := h.wellFormed.stopped?_eq_none_iff.mp hstop
    have hbetween : s.inUseBetween now later = later.nanos - now.nanos := if_pos running
    simp only [clock, hstop, Option.getD_none] at heq
    refine ⟨h.wellFormed, ?_, ?_, by omega⟩
    · simp [clock, hstop, Instant.le_iff]
    · simp only [clock, hstop, Option.getD_none]
      omega
  | some stop =>
    -- the clock stands still, and no time in use is added
    have hstill : s.inUseBetween now later = 0 := by
      refine if_neg fun running => ?_
      rw [h.wellFormed.stopped?_eq_none_iff.mpr running] at hstop
      cases hstop
    simp only [clock, hstop, Option.getD_some] at heq hclock
    refine ⟨h.wellFormed, ?_, ?_, by omega⟩
    · simp only [clock, hstop, Option.getD_some, Instant.le_iff]
      omega
    · simp only [clock, hstop, Option.getD_some]
      omega

/-- The pause under way has lasted since the clock stopped. -/
theorem pauseSoFar_eq (h : s.Metered now used) (isOpen : s.status.isOpen = true) :
    (s.pauseSoFar now).nanos = now.nanos - (s.clock now).nanos := by
  have hclock := Instant.le_iff.mp h.clock_le
  have hunended := h.wellFormed.unended isOpen
  -- without a pause the clock stands at the present
  cases hp : s.pausedAt with
  | none => simp [pauseSoFar, clock, stopped?, hp, hunended, Span.zero]
  | some p =>
    simp only [clock, stopped?, hp, Option.some_or, Option.getD_some] at hclock ⊢
    rw [pauseSoFar, hp]
    dsimp only
    -- the pause began in the past, so it is not cut
    rw [Span.clampNonneg_of_nonneg (by rw [Instant.nanos_sub]; omega), Instant.nanos_sub]

/-- A pause that is folded in does not saturate, and fills the time since the start up to the time in
use. -/
theorem add?_pauseSoFar (h : s.Metered now used) (isOpen : s.status.isOpen = true) :
    ∃ total, s.accumulatedPause.add? (s.pauseSoFar now) = some total ∧
      now.nanos = s.startedAt.nanos + total.nanos + used := by
  have hpause := h.pauseSoFar_eq isOpen
  have heq := h.clock_eq
  have hused := h.used_nonneg
  -- the sum is at most the span from the start to the present
  have hspan := (now - s.startedAt).inRange
  have hnonneg := s.pauseSoFar_nonneg now
  have hacc := h.wellFormed.pause_nonneg
  rw [Instant.nanos_sub] at hspan
  obtain ⟨total, htotal⟩ : ∃ total, s.accumulatedPause.add? (s.pauseSoFar now) = some total :=
    Span.exists_add? (by omega) (by omega)
  refine ⟨total, htotal, ?_⟩
  rw [Span.add?_eq_some_iff] at htotal
  omega

/-- A move takes no time. -/
theorem move (h : s.Metered now used) (hm : Move s now next) : next.Metered now used := by
  have hused := h.used_nonneg
  have hunended := h.wellFormed.unended hm.isOpen
  obtain ⟨total, htotal, hnow⟩ := h.add?_pauseSoFar hm.isOpen
  have wellFormed := hm.wellFormed h.wellFormed
  cases hm with
  | pause running unpaused =>
    -- the clock stops where it stands
    have heq := h.clock_eq
    simp only [clock, stopped?, unpaused, hunended, Option.none_or, Option.getD_none] at heq
    exact ⟨wellFormed, Instant.le_iff.mpr (Int.le_refl _), heq, hused⟩
  | resume paused =>
    -- the pause is folded in, and the clock is back at the present
    refine ⟨wellFormed, ?_, ?_, hused⟩
    · simp [clock, stopped?, resumed, hunended, Instant.le_iff]
    · simpa [clock, stopped?, resumed, hunended, Span.saturatingAdd_of_add? htotal] using hnow
  | extend running shifted => exact ⟨wellFormed, h.clock_le, h.clock_eq, hused⟩
  | close isOpen terminal =>
    -- a pause under way is folded in here as well
    refine ⟨wellFormed, Instant.le_iff.mpr (Int.le_refl _), ?_, hused⟩
    simpa [clock, stopped?, Session.close, Span.saturatingAdd_of_add? htotal] using hnow

theorem meet (h : s.Metered now used) (e : Event) : (s.meet e now).Metered now used := by
  rcases s.meet_cases e now with hsame | hm
  · rw [hsame]
    exact h
  · exact h.move hm

/-- Along a life, the meter counts the time in use. -/
theorem live (h : s.Metered now used) {events : List (Event × Instant)}
    (ordered : Ordered now events) (hle : lastEvent now events ≤ later) :
    (s.live events).Metered later (used + s.timeInUse now events later) := by
  induction events generalizing s now used with
  | nil => exact h.advance hle
  | cons e rest ih =>
    -- time passes up to the event, and the event itself takes none
    obtain ⟨e, event⟩ := e
    have hrest := ih ((h.advance ordered.1).meet e) ordered.2 hle
    rwa [Int.add_assoc] at hrest

/-- An open session is billed up to where its clock stands, an ended one past it. -/
theorem billingInstant_cases (h : s.Metered now used) :
    (s.status.isOpen = true ∧ s.billingInstant now = s.clock now) ∨
    (s.status.isOpen = false ∧ s.billingInstant now = now) := by
  have hclock := h.clock_le
  cases hstatus : s.status with
  | inUse =>
    left
    have hstop := h.wellFormed.stopped?_eq_none_iff.mpr hstatus
    -- nothing has stopped the clock of a session in use
    exact ⟨rfl, by simp [billingInstant, clock, hstatus, hstop]⟩
  | paused =>
    left
    obtain ⟨p, hp⟩ := Option.isSome_iff_exists.mp (h.wellFormed.pausedAt_iff.mpr hstatus)
    simp only [clock, stopped?, hp, Option.some_or, Option.getD_some] at hclock ⊢
    -- the clock was stopped by the pause, which is not later than the present
    exact ⟨rfl, by simp [billingInstant, hstatus, hp, Instant.earlier, hclock]⟩
  | finalized => exact .inr ⟨rfl, by simp [billingInstant, hstatus]⟩
  | cancelled => exact .inr ⟨rfl, by simp [billingInstant, hstatus]⟩

/-- The billed time is found without overflow and without a cut. -/
theorem sub?_billing (h : s.Metered now used) :
    ∃ billed, (s.billingInstant now - s.startedAt).sub? s.accumulatedPause = some billed ∧
      0 ≤ billed.nanos ∧ (s.status.isOpen = true → billed.nanos = used) := by
  have heq := h.clock_eq
  have hused := h.used_nonneg
  have hacc := h.wellFormed.pause_nonneg
  have hclock := Instant.le_iff.mp h.clock_le
  -- the pauses are at most the span from the start to the billing instant
  have hspan := (s.billingInstant now - s.startedAt).inRange
  have hbilling : (s.clock now).nanos ≤ (s.billingInstant now).nanos := by
    rcases h.billingInstant_cases with ⟨-, hb⟩ | ⟨-, hb⟩
    · exact Int.le_of_eq (congrArg Instant.nanos hb.symm)
    · rw [hb]
      exact hclock
  rw [Instant.nanos_sub] at hspan
  obtain ⟨billed, hbilled⟩ :
      ∃ billed, (s.billingInstant now - s.startedAt).sub? s.accumulatedPause = some billed :=
    Span.exists_sub? (by rw [Instant.nanos_sub]; omega) (by rw [Instant.nanos_sub]; omega)
  have hnanos := Span.sub?_eq_some_iff.mp hbilled
  rw [Instant.nanos_sub] at hnanos
  refine ⟨billed, hbilled, by omega, fun isOpen => ?_⟩
  rcases h.billingInstant_cases with ⟨-, hb⟩ | ⟨hended, -⟩
  · rw [hb] at hnanos
    omega
  · rw [isOpen] at hended
    cases hended

/-- An ended session carries its time in use. -/
theorem endedAt_eq (h : s.Metered now used) (ended : s.status.isTerminal = true) :
    ∃ e, s.endedAt = some e ∧ (e - s.startedAt).nanos - s.accumulatedPause.nanos = used := by
  obtain ⟨e, he⟩ := Option.isSome_iff_exists.mp (h.wellFormed.endedAt_iff.mpr ended)
  refine ⟨e, he, ?_⟩
  -- an ended session is not paused, so the end is what stopped the clock
  have hunpaused : s.pausedAt = none := by
    refine h.wellFormed.unpaused fun paused => ?_
    rw [paused] at ended
    cases ended
  have heq := h.clock_eq
  simp only [clock, stopped?, hunpaused, he, Option.none_or, Option.getD_some] at heq
  rw [Instant.nanos_sub]
  omega

/-- Whatever happens next, no sum of pauses saturates and no pause is cut. -/
theorem exact_pause (h : s.Metered now used) :
    (∃ total, s.accumulatedPause.add? (s.pauseSoFar now) = some total) ∧
      ∀ p, s.pausedAt = some p → p ≤ now := by
  constructor
  · cases isOpen : s.status.isOpen with
    | true =>
      obtain ⟨total, htotal, -⟩ := h.add?_pauseSoFar isOpen
      exact ⟨total, htotal⟩
    | false =>
      -- outside of a pause there is nothing to add
      have hunpaused : s.pausedAt = none := by
        refine h.wellFormed.unpaused fun paused => ?_
        rw [paused] at isOpen
        cases isOpen
      refine ⟨s.accumulatedPause, Span.add?_eq_some_iff.mpr ?_⟩
      simp [pauseSoFar, hunpaused, Span.zero]
  · intro p hp
    have hclock := h.clock_le
    simpa only [clock, stopped?, hp, Option.some_or, Option.getD_some] using hclock

end Metered

/-- **Billing conserves time.** Let a session be booked at `start`, and let events follow at instants
that do not go back. At every instant from the last event on, an open session is billed exactly the
time that it has spent in use, and an ended one carries exactly that time in its fields. Nothing is
lost on the way: whatever happens next, the pauses add up without saturation, no pause is cut at zero,
and the billed time neither overflows nor is cut. -/
theorem billing_conserves_time {id : SessionId} {room : RoomId} {customer : Option Word}
    {duration : Word} {start : Instant} {booked : Session}
    (h : book id room customer duration start = .ok booked) {events : List (Event × Instant)}
    (ordered : Ordered start events) {now : Instant} (hle : lastEvent start events ≤ now) :
    let s := booked.live events
    let used := booked.timeInUse start events now
    (s.status.isOpen = true → ∃ billed, s.elapsedBillable? now = some billed ∧ billed.nanos = used) ∧
    (s.status.isTerminal = true →
      ∃ e, s.endedAt = some e ∧ (e - s.startedAt).nanos - s.accumulatedPause.nanos = used) ∧
    (∃ total, s.accumulatedPause.add? (s.pauseSoFar now) = some total) ∧
    (∀ p, s.pausedAt = some p → p ≤ now) ∧
    ∃ billed, (s.billingInstant now - s.startedAt).sub? s.accumulatedPause = some billed ∧
      0 ≤ billed.nanos := by
  intro s used
  -- the session is metered over the whole of its life
  have hmetered : s.Metered now used := by
    have hlive := (Metered.of_book h).live ordered hle
    rwa [Int.zero_add] at hlive
  obtain ⟨billed, hbilled, hnonneg, hopen⟩ := hmetered.sub?_billing
  obtain ⟨hsum, hpause⟩ := hmetered.exact_pause
  refine ⟨fun isOpen => ⟨billed, ?_, hopen isOpen⟩, hmetered.endedAt_eq, hsum, hpause, billed, hbilled,
    hnonneg⟩
  rw [elapsedBillable?, hbilled, Option.map_some, Span.clampNonneg_of_nonneg hnonneg]

/-- A session is booked for an hour at the epoch, paused after ten minutes, resumed after twenty,
extended by a minute and cancelled after half an hour; it has been in use for twenty minutes. -/
theorem billing_conserves_time_half_hour :
    let minute (n : Int) (h : 0 ≤ n ∧ n ≤ 30) : Instant := ⟨n * 60000000000, by omega⟩
    let events : List (Event × Instant) :=
      [(.ask .pause, minute 10 (by decide)), (.check, minute 15 (by decide)),
        (.ask .resume, minute 20 (by decide)), (.ask (.extend 60), minute 20 (by decide)),
        (.ask .cancel, minute 30 (by decide))]
    ∃ booked, book ⟨1⟩ 7 none 3600 .epoch = .ok booked ∧
      ∃ e, (booked.live events).endedAt = some e ∧
        (e - (booked.live events).startedAt).nanos - (booked.live events).accumulatedPause.nanos =
          1200000000000 := by
  intro minute events
  let booked : Session :=
    ⟨⟨1⟩, 7, none, .epoch, ⟨3600000000000, by decide⟩, none, .zero, .inUse, 0, none⟩
  have h : book ⟨1⟩ 7 none 3600 .epoch = .ok booked := rfl
  have ordered : Ordered .epoch events :=
    ⟨by decide, by decide, by decide, by decide, by decide, trivial⟩
  have hle : lastEvent .epoch events ≤ minute 30 (by decide) := by decide
  exact ⟨booked, h, (billing_conserves_time h ordered hle).2.1 rfl⟩

end Session

end Occupancy
