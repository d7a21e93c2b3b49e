import Occupancy.Proofs.Session.Limit

/-!
# Extensions and reductions are exact

The end of a session is moved by any number of seconds that a word can hold. Spans and instants have bounds of
their own, each with its own way to fail, but what comes out is what unbounded integers give. Main statement:
`apply_extend_exact`.
-/

namespace Occupancy

namespace Session

variable {s next : Session} {now : Instant} {delta : Word}

/-! ## Without bounds -/

/-- The scheduled end moved by `delta` seconds, in nanoseconds since 1970 and without bounds. -/
def movedEnd (s : Session) (delta : Word) : Int :=
  s.scheduledEndAt.nanos + delta.toInt * 1000000000

/-- Reckoned without bounds, an extension goes beyond the last instant, or the whole seconds of the booked time
go beyond the limit. -/
def Overextends (s : Session) (delta : Word) : Prop :=
  0 < delta.toInt ∧
    (Instant.last.nanos < s.movedEnd delta ∨
      maxBookedSeconds < (s.movedEnd delta - s.startedAt.nanos - s.accumulatedPause.nanos).tdiv 1000000000)

instance (s : Session) (delta : Word) : Decidable (s.Overextends delta) :=
  inferInstanceAs (Decidable (_ ∧ _))

/-! ## Within bounds -/

/-- The end moves to the instant that lies exactly so far away, and nowhere if there is none. -/
theorem moved_eq_some_iff {moved : Instant} :
    (Span.ofSeconds? delta.toInt).bind s.scheduledEndAt.add? = some moved ↔
      moved.nanos = s.movedEnd delta :=
  Instant.bind_add?_eq_some_iff

/-- From the start on, the booked time up to any end is a span, for pauses that are not negative. -/
theorem exists_booked (pauses : 0 ≤ s.accumulatedPause.nanos) {ending : Instant}
    (started : s.startedAt ≤ ending) :
    ∃ booked, (ending - s.startedAt).sub? s.accumulatedPause = some booked ∧
      booked.nanos = ending.nanos - s.startedAt.nanos - s.accumulatedPause.nanos := by
  -- the three parts of the booked time are far inside the range of a span
  have hrange := (ending - s.startedAt).inRange
  have hpauses := s.accumulatedPause.inRange
  have hstarted := Instant.le_iff.mp started
  rw [Instant.nanos_sub] at hrange
  obtain ⟨booked, hbooked⟩ := Span.exists_sub? (a := ending - s.startedAt) (b := s.accumulatedPause)
    (by rw [Instant.nanos_sub]; omega) (by rw [Instant.nanos_sub]; omega)
  exact ⟨booked, hbooked, by rw [Span.sub?_eq_some_iff.mp hbooked, Instant.nanos_sub]⟩

/-- An end can be shifted unless that overextends the session. -/
theorem exists_shiftedEnd_iff (started : s.startedAt ≤ s.scheduledEndAt)
    (pauses : 0 ≤ s.accumulatedPause.nanos) :
    (∃ ending, s.shiftedEnd delta = .ok ending) ↔ ¬ s.Overextends delta := by
  have hstart := Instant.le_iff.mp started
  have hlast := Instant.le_iff.mp s.scheduledEndAt.le_last
  have hlastNanos : Instant.last.nanos = 8210266876800 * 1000000000 - 1 := rfl
  have hlimit : bookingLimit = maxBookedSeconds * 1000000000 := rfl
  -- the limit is compared with whole seconds, so it is kept up to the next one
  have hseconds :
      (s.movedEnd delta - s.startedAt.nanos - s.accumulatedPause.nanos).tdiv 1000000000 ≤
          maxBookedSeconds ↔
        s.movedEnd delta - s.startedAt.nanos - s.accumulatedPause.nanos <
          (maxBookedSeconds + 1) * 1000000000 :=
    Span.wholeSeconds_le_iff
  simp only [shiftedEnd_eq_ok_iff started pauses]
  change (∃ ending : Instant, ending.nanos = max s.startedAt.nanos (s.movedEnd delta) ∧ _) ↔ _
  have hmoved : s.movedEnd delta = s.scheduledEndAt.nanos + delta.toInt * 1000000000 := rfl
  constructor
  · rintro ⟨ending, hending, hbound⟩ ⟨extension, beyond⟩
    have hle := Instant.le_iff.mp ending.le_last
    have hbound := hbound extension
    -- an extension is not cut at the start, so the end is where it was moved to
    rcases beyond with beyond | beyond <;> omega
  · intro fits
    have hrange := s.startedAt.inRange
    -- the calendar's end is only passed by an extension
    have hwithin : max s.startedAt.nanos (s.movedEnd delta) ≤ Instant.last.nanos := by
      by_cases extension : 0 < delta.toInt
      · exact Int.not_lt.mp fun beyond => fits ⟨extension, .inl (by omega)⟩
      · omega
    refine ⟨⟨max s.startedAt.nanos (s.movedEnd delta), by omega⟩, rfl, fun extension => ?_⟩
    have hle := Int.not_lt.mp fun beyond => fits ⟨extension, .inr beyond⟩
    have hlt := hseconds.mp hle
    change max s.startedAt.nanos (s.movedEnd delta) - _ - _ < _
    omega

/-- **Extensions and reductions are exact.** For a session in use that ends no earlier than it starts and whose
pauses are not negative, and for every number of seconds: the request is refused as invalid exactly if, reckoned
without bounds, it overextends the session. Otherwise it succeeds, and the end alone changes, to where it is
moved without bounds but not before the start. No step in between leaves its bounds unnoticed: the end that is
moved is the exact one or none, and the booked time that is checked is always there and exact. So the further
the end is moved, the later it is, wherever the request is accepted. -/
theorem apply_extend_exact (running : s.status = .inUse) (started : s.startedAt ≤ s.scheduledEndAt)
    (pauses : 0 ≤ s.accumulatedPause.nanos) (now : Instant) :
    (∀ delta, ((∃ detail, s.apply (.extend delta) now = .error (.invalidInput detail)) ↔
        s.Overextends delta) ∧
      (¬ s.Overextends delta → ∃ ending : Instant,
        ending.nanos = max s.startedAt.nanos (s.movedEnd delta) ∧
          s.apply (.extend delta) now = .ok { s with scheduledEndAt := ending })) ∧
    (∀ (delta : Word) (moved : Instant),
      (Span.ofSeconds? delta.toInt).bind s.scheduledEndAt.add? = some moved ↔
        moved.nanos = s.movedEnd delta) ∧
    (∀ ending, s.startedAt ≤ ending →
      ∃ booked, (ending - s.startedAt).sub? s.accumulatedPause = some booked ∧
        booked.nanos = ending.nanos - s.startedAt.nanos - s.accumulatedPause.nanos) ∧
    ∀ (delta delta' : Word) (next next' : Session), delta.toInt ≤ delta'.toInt →
      s.apply (.extend delta) now = .ok next → s.apply (.extend delta') now = .ok next' →
        next.scheduledEndAt ≤ next'.scheduledEndAt := by
  refine ⟨fun delta => ?_, fun _ _ => moved_eq_some_iff, fun _ => exists_booked pauses,
    fun delta delta' next next' hle happly happly' => ?_⟩
  · have happly : s.apply (.extend delta) now =
        (s.shiftedEnd delta).map fun ending => { s with scheduledEndAt := ending } := by
      simp only [apply, running]
    have hshift : (∃ ending, s.shiftedEnd delta = .ok ending) ↔ ¬ s.Overextends delta :=
      exists_shiftedEnd_iff started pauses
    -- a shift fails with the one error there is, and else gives the end
    cases shifted : s.shiftedEnd delta with
    | error e =>
      obtain rfl := shiftedEnd_error shifted
      have overextends : s.Overextends delta := by
        refine Decidable.of_not_not fun fits => ?_
        obtain ⟨ending, hending⟩ := hshift.mpr fits
        rw [shifted] at hending
        cases hending
      rw [happly, shifted]
      exact ⟨⟨fun _ => overextends, fun _ => ⟨_, rfl⟩⟩, fun fits => absurd overextends fits⟩
    | ok ending =>
      have fits := hshift.mp ⟨ending, shifted⟩
      rw [happly, shifted]
      refine ⟨⟨?_, fun overextends => absurd overextends fits⟩, fun _ => ⟨ending, ?_, rfl⟩⟩
      · rintro ⟨detail, herror⟩
        cases herror
      · exact ((shiftedEnd_eq_ok_iff started pauses).mp shifted).1
  · -- both ends are exact, and moving is monotone
    obtain ⟨-, ending, shifted, rfl⟩ := apply_extend_eq_ok_iff.mp happly
    obtain ⟨-, ending', shifted', rfl⟩ := apply_extend_eq_ok_iff.mp happly'
    have hending := ((shiftedEnd_eq_ok_iff started pauses).mp shifted).1
    have hending' := ((shiftedEnd_eq_ok_iff started pauses).mp shifted').1
    rw [Instant.le_iff, hending, hending']
    omega

/-- A session of an hour with ten minutes of pauses: the longest extension is refused, and the longest reduction
ends the session at its start. -/
theorem apply_extend_exact_extremes :
    let s : Session := ⟨⟨1⟩, 5, none, .epoch, ⟨3600000000000, by decide⟩, none,
      { nanos := 600000000000 }, .inUse, 0, none⟩
    s.status = .inUse ∧ s.startedAt ≤ s.scheduledEndAt ∧ 0 ≤ s.accumulatedPause.nanos ∧
      (∃ detail, s.apply (.extend Int64.maxValue) .epoch = .error (.invalidInput detail)) ∧
      ∃ ending : Instant, ending.nanos = 0 ∧
        s.apply (.extend Int64.minValue) .epoch = .ok { s with scheduledEndAt := ending } := by
  intro s
  have running : s.status = .inUse := rfl
  have started : s.startedAt ≤ s.scheduledEndAt := by decide
  have pauses : 0 ≤ s.accumulatedPause.nanos := by decide
  have exact := (apply_extend_exact running started pauses .epoch).1
  exact ⟨running, started, pauses, (exact Int64.maxValue).1.mpr (by decide),
    (exact Int64.minValue).2 (by decide)⟩

end Session

end Occupancy
