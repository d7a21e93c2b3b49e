import Mathlib.Algebra.GroupWithZero.Nat
import Occupancy.Time.Calendar

/-!
# Dates of days

Main statement: `toDay_ofDay`. The date that is found for a day is a date of the calendar, and it is the
date of that day: the year found holds the day, and within the year the months are gone through until the
rest fits.
-/

namespace Occupancy.Date

/-! ## Years -/

/-- The year found for a day begins by that day and ends after it. -/
theorem yearAt_spec (n : Int) : daysBefore (yearAt n) ≤ n ∧ n < daysBefore (yearAt n + 1) := by
  unfold yearAt
  simp only
  -- the mean length of a year leads to the year or to a neighbour of it
  split
  · simp only [daysBefore] at *
    omega
  · split
    · simp only [daysBefore] at *
      omega
    · simp only [daysBefore] at *
      omega

/-- The months of a year fill it. -/
theorem daysBefore_succ (year : Int) :
    daysBefore (year + 1) = daysBefore year + (monthLengths year).sum := by
  have hsum : ((monthLengths year).sum : Int) = 365 + if isLeap year then 1 else 0 := by
    cases h : isLeap year <;> simp [monthLengths, h]
  rw [hsum]
  -- the years divisible by 4, 100 and 400 are counted apart, and so may be compared apart
  simp only [isLeap, daysBefore, Bool.and_eq_true, Bool.or_eq_true, decide_eq_true_eq, ne_eq]
  split <;> omega

/-! ## Months -/

/-- Months are gone through until the rest of the days fits into one of them. -/
theorem monthAt_spec (lengths : List Nat) (month n : Nat) (h : n < lengths.sum) :
    ∃ k length, lengths[k]? = some length ∧ (monthAt lengths month n).1 = month + k ∧
      1 ≤ (monthAt lengths month n).2 ∧ (monthAt lengths month n).2 ≤ length ∧
      (lengths.take k).sum + (monthAt lengths month n).2 = n + 1 := by
  induction lengths generalizing month n with
  | nil => cases h
  | cons first rest ih =>
    -- the walk stops at the first month the day fits in
    unfold monthAt
    split
    · rename_i hfits
      exact ⟨0, first, rfl, rfl, Nat.succ_pos n, hfits, Nat.zero_add _⟩
    · rename_i hlater
      -- the rest of the days is looked for among the rest of the months
      rw [List.sum_cons] at h
      obtain ⟨k, length, hlength, hmonth, hpos, hday, hsum⟩ := ih (month + 1) (n - first) (by omega)
      refine ⟨k + 1, length, hlength, by omega, hpos, hday, ?_⟩
      rw [List.take_succ_cons, List.sum_cons]
      omega

theorem monthLengths_le {year : Int} {k length : Nat}
    (h : (monthLengths year)[k]? = some length) : length ≤ 31 := by
  have hall : ∀ l ∈ monthLengths year, l ≤ 31 := by
    cases hleap : isLeap year <;> simp [monthLengths, hleap]
  exact hall length (List.mem_of_getElem? h)

/-! ## Dates -/

/-- What is found for a day: a year that holds it, and the place of the day in that year. -/
theorem ofDay_spec (day : Int) :
    ∃ k length, (monthLengths (ofDay day).year)[k]? = some length ∧ (ofDay day).month = k + 1 ∧
      1 ≤ (ofDay day).day ∧ (ofDay day).day ≤ length ∧
      daysBefore (ofDay day).year + (((monthLengths (ofDay day).year).take k).sum + (ofDay day).day) =
        day + epoch + 1 := by
  obtain ⟨hlower, hupper⟩ := yearAt_spec (day + epoch)
  rw [daysBefore_succ] at hupper
  obtain ⟨k, length, hlength, hmonth, hpos, hday, hsum⟩ :=
    monthAt_spec (monthLengths (yearAt (day + epoch))) 1
      (day + epoch - daysBefore (yearAt (day + epoch))).toNat (by omega)
  refine ⟨k, length, hlength, hmonth.trans (Nat.add_comm 1 k), hpos, hday, ?_⟩
  -- the year starts as many days before as the walk was given
  simp only [ofDay]
  omega

/-- The date found for a day is one that the calendar has. -/
theorem valid_ofDay (day : Int) : (ofDay day).Valid := by
  obtain ⟨k, length, hlength, hmonth, hpos, hday, -⟩ := ofDay_spec day
  have hk : k < 12 := (List.getElem?_eq_some_iff.mp hlength).1
  refine ⟨by omega, by omega, hpos, ?_⟩
  rw [monthLength, hmonth, Nat.add_sub_cancel, hlength]
  exact hday

/-- The date found for a day is the date of that day. -/
theorem toDay_ofDay (day : Int) : (ofDay day).toDay = day := by
  obtain ⟨k, length, -, hmonth, hpos, -, hsum⟩ := ofDay_spec day
  have hfold : ∀ l : List Nat, l.foldr Nat.add 0 = l.sum := fun _ => rfl
  simp only [toDay, hmonth, Nat.add_sub_cancel, hfold]
  omega

theorem ofDay_month_lt (day : Int) : (ofDay day).month < 100 := by
  have h := (valid_ofDay day).2.1
  omega

theorem ofDay_day_lt (day : Int) : (ofDay day).day < 100 := by
  obtain ⟨k, length, hlength, -, -, hday, -⟩ := ofDay_spec day
  have h := monthLengths_le hlength
  omega

end Occupancy.Date
