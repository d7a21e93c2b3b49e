import Mathlib.Algebra.GroupWithZero.Nat
import Occupancy.Time.Instant

/-!
# Arithmetic of instants and spans

Spans and instants through their nanoseconds. Checked operations succeed with the exact value or not
at all, so every law here says what number a result stands for.
-/

namespace Occupancy

namespace Span

/-- A span has the nanoseconds it is made of. -/
theorem ofNanos?_eq_some_iff {n : Int} {a : Span} : ofNanos? n = some a ↔ a.nanos = n := by
  unfold ofNanos?
  split
  · rw [Option.some.injEq]
    constructor
    · rintro rfl
      rfl
    · rintro rfl
      rfl
  · rename_i h
    constructor
    · intro hnone
      cases hnone
    · rintro rfl
      exact absurd a.inRange h

/-- Spans of equal length are equal. -/
theorem eq_of_nanos_eq {a b : Span} (h : a.nanos = b.nanos) : a = b := by
  cases a
  cases b
  cases h
  rfl

theorem add?_eq_some_iff {a b c : Span} : a.add? b = some c ↔ c.nanos = a.nanos + b.nanos :=
  ofNanos?_eq_some_iff

theorem sub?_eq_some_iff {a b c : Span} : a.sub? b = some c ↔ c.nanos = a.nanos - b.nanos :=
  ofNanos?_eq_some_iff

theorem exists_add? {a b : Span} (lower : -9223372036854775807000000 ≤ a.nanos + b.nanos)
    (upper : a.nanos + b.nanos ≤ 9223372036854775807000000) : ∃ c, a.add? b = some c :=
  ⟨⟨a.nanos + b.nanos, lower, upper⟩, add?_eq_some_iff.mpr rfl⟩

theorem exists_sub? {a b : Span} (lower : -9223372036854775807000000 ≤ a.nanos - b.nanos)
    (upper : a.nanos - b.nanos ≤ 9223372036854775807000000) : ∃ c, a.sub? b = some c :=
  ⟨⟨a.nanos - b.nanos, lower, upper⟩, sub?_eq_some_iff.mpr rfl⟩

theorem clampNonneg_nonneg (a : Span) : 0 ≤ a.clampNonneg.nanos := by
  unfold clampNonneg
  split
  · decide
  · omega

theorem clampNonneg_of_nonneg {a : Span} (h : 0 ≤ a.nanos) : a.clampNonneg = a := by
  unfold clampNonneg
  rw [if_neg (by omega)]

theorem saturatingAdd_of_add? {a b c : Span} (h : a.add? b = some c) : a.saturatingAdd b = c := by
  rw [saturatingAdd, h, Option.getD_some]

/-- Spans that are not negative add up to one that is not. -/
theorem saturatingAdd_nonneg {a b : Span} (ha : 0 ≤ a.nanos) (hb : 0 ≤ b.nanos) :
    0 ≤ (a.saturatingAdd b).nanos := by
  unfold saturatingAdd
  cases h : a.add? b with
  | none => decide
  | some c =>
    rw [add?_eq_some_iff] at h
    rw [Option.getD_some, h]
    omega

/-- A sum that saturates is no shorter than its parts. -/
theorem le_saturatingAdd {a b : Span} (hb : 0 ≤ b.nanos) : a.nanos ≤ (a.saturatingAdd b).nanos := by
  unfold saturatingAdd
  cases h : a.add? b with
  | none => exact a.inRange.2
  | some c =>
    rw [add?_eq_some_iff] at h
    rw [Option.getD_some, h]
    omega

/-- Whole seconds stay within a bound exactly where the time ends before the second after it. -/
theorem wholeSeconds_le_iff {nanos : Int} {n : Nat} :
    nanos.tdiv 1000000000 ≤ n ↔ nanos < (n + 1) * 1000000000 := by
  rcases Int.le_total 0 nanos with hpos | hneg
  · rw [Int.tdiv_eq_ediv_of_nonneg hpos]
    omega
  · -- the fraction of a negative time is cut towards zero
    have hcut : 0 ≤ (-nanos).tdiv 1000000000 := Int.tdiv_nonneg (by omega) (by decide)
    rw [Int.neg_tdiv] at hcut
    omega

/-- The whole seconds of a span are at most a number if the span is shorter than one second more. -/
theorem seconds_le_iff {a : Span} {n : Nat} :
    a.seconds ≤ n ↔ a.nanos < (n + 1) * 1000000000 :=
  wholeSeconds_le_iff

end Span

namespace Instant

/-- An instant has the nanoseconds it is made of. -/
theorem ofNanos?_eq_some_iff {n : Int} {a : Instant} : ofNanos? n = some a ↔ a.nanos = n := by
  unfold ofNanos?
  split
  · rw [Option.some.injEq]
    constructor
    · rintro rfl
      rfl
    · rintro rfl
      rfl
  · rename_i h
    constructor
    · intro hnone
      cases hnone
    · rintro rfl
      exact absurd a.inRange h

theorem add?_eq_some_iff {a b : Instant} {s : Span} :
    a.add? s = some b ↔ b.nanos = a.nanos + s.nanos :=
  ofNanos?_eq_some_iff

/-- Instants at the same time are equal. -/
theorem eq_of_nanos_eq {a b : Instant} (h : a.nanos = b.nanos) : a = b := by
  cases a
  cases b
  cases h
  rfl

/-- An instant moved by whole seconds lies exactly that far away, and is found wherever it exists. -/
theorem bind_add?_eq_some_iff {a b : Instant} {n : Int} :
    (Span.ofSeconds? n).bind a.add? = some b ↔ b.nanos = a.nanos + n * 1000000000 := by
  constructor
  · intro h
    obtain ⟨span, hspan, hadd⟩ := Option.bind_eq_some_iff.mp h
    rw [add?_eq_some_iff, Span.ofNanos?_eq_some_iff.mp hspan] at hadd
    exact hadd
  · intro h
    have ha := a.inRange
    have hb := b.inRange
    -- what lies between two instants is a span
    have hspan : Span.ofSeconds? n = some ⟨n * 1000000000, by omega⟩ :=
      Span.ofNanos?_eq_some_iff.mpr rfl
    rw [hspan, Option.bind_some, add?_eq_some_iff]
    exact h

theorem le_iff {a b : Instant} : a ≤ b ↔ a.nanos ≤ b.nanos :=
  Iff.rfl

@[simp] theorem nanos_sub (a b : Instant) : (a - b).nanos = a.nanos - b.nanos :=
  rfl

protected theorem le_refl (a : Instant) : a ≤ a :=
  Int.le_refl a.nanos

protected theorem le_trans {a b c : Instant} (h : a ≤ b) (h' : b ≤ c) : a ≤ c :=
  Int.le_trans h h'

/-- No instant is later than the last. -/
theorem le_last (a : Instant) : a ≤ last := by
  have upper := a.inRange.2
  have hlast : last.nanos = 8210266876800 * 1000000000 - 1 := rfl
  rw [le_iff]
  omega

theorem le_later_right (a b : Instant) : b ≤ a.later b := by
  unfold later
  split
  · exact le_iff.mpr (Int.le_refl _)
  · rename_i h
    rw [le_iff] at h ⊢
    omega

theorem nanos_later (a b : Instant) : (a.later b).nanos = max a.nanos b.nanos := by
  unfold later
  split
  · rename_i h
    exact (Int.max_eq_right h).symm
  · rename_i h
    rw [le_iff] at h
    omega

/-- An instant that cannot be moved ahead would leave the calendar. -/
theorem last_lt_of_add?_eq_none {a : Instant} {s : Span} (h : a.add? s = none) (hs : 0 ≤ s.nanos) :
    last.nanos < a.nanos + s.nanos := by
  have hlast : last.nanos = 8210266876800 * 1000000000 - 1 := rfl
  have ha := a.inRange
  refine Int.lt_of_not_ge fun hwithin => ?_
  have hsome : a.add? s = some ⟨a.nanos + s.nanos, by omega⟩ := add?_eq_some_iff.mpr rfl
  rw [h] at hsome
  cases hsome

/-- An instant moved ahead, or the last one where there is none, is no earlier. -/
theorem le_add?_getD_last {a b : Instant} {s : Span} (h : a ≤ b) (hs : 0 ≤ s.nanos) :
    a ≤ (b.add? s).getD last := by
  cases hadd : b.add? s with
  | none => exact le_last a
  | some c =>
    rw [add?_eq_some_iff] at hadd
    rw [le_iff] at h
    rw [Option.getD_some, le_iff, hadd]
    omega

/-! ## The first minute -/

/-- There is a first second in a minute. -/
instance neZero_sixty : NeZero 60 :=
  ⟨by decide⟩

theorem second_inRange (n : Fin 60) : -8334601228800 * 1000000000 ≤ (n : Int) * 1000000000 ∧
    (n : Int) * 1000000000 < 8210266876800 * 1000000000 := by
  omega

end Instant

end Occupancy
