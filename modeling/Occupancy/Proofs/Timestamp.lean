import Mathlib.Data.List.Basic
import Occupancy.Proofs.Calendar
import Occupancy.Proofs.Reading.Numerals
import Occupancy.Time.Timestamp

/-!
# Instants are written apart

Main statement: `chars_injective`. Two instants with the same written form are the same. The form is cut at
its `T` into a date and a time of day; both have fields of a fixed width except at one end, the year and the
fraction of the second.
-/

namespace Occupancy

/-- A text is cut in one way only at the first place of a mark. -/
theorem append_mark_inj {α : Type} {mark : α} {l l' r r' : List α} (hl : mark ∉ l) (hl' : mark ∉ l')
    (h : l ++ mark :: r = l' ++ mark :: r') : l = l' ∧ r = r' := by
  -- what one of the heads has more than the other would begin with the mark
  rcases List.append_eq_append_iff.mp h with ⟨between, rfl, htail⟩ | ⟨between, rfl, htail⟩ <;>
    cases between with
    | nil => exact ⟨by simp, by simpa [eq_comm] using htail⟩
    | cons a rest =>
      obtain ⟨rfl, -⟩ := List.cons.inj htail
      simp at hl hl'

namespace Timestamp

open Decimal (padded eq_of_padded length_padded not_mem_padded isDigit_of_mem_padded)

/-! ## The parts of the form -/

/-- The written form of a date. -/
def dateChars (d : Date) : List Char :=
  yearChars d.year ++ ('-' :: padded 2 d.month ++ '-' :: padded 2 d.day)

/-- The written form of a number of nanoseconds since midnight. -/
def clockChars (nanos : Nat) : List Char :=
  (padded 2 (nanos / 1000000000 / 3600) ++ ':' :: padded 2 (nanos / 1000000000 / 60 % 60) ++
    ':' :: padded 2 (nanos / 1000000000 % 60)) ++ (fractionChars (nanos % 1000000000) ++ ['Z'])

theorem chars_eq (i : Instant) : (i : Timestamp).chars =
    dateChars (Date.ofDay (i.nanos / (86400 * 1000000000))) ++
      'T' :: clockChars (i.nanos % (86400 * 1000000000)).toNat := by
  simp [chars, dateChars, clockChars]

def IsPlain (c : Char) : Prop :=
  c.isDigit = true ∨ c ∈ ['-', '+', 'T', ':', '.', 'Z']

theorem isPlain_of_mem_yearChars {year : Int} {c : Char} (h : c ∈ yearChars year) :
    c.isDigit = true ∨ c = '-' ∨ c = '+' := by
  unfold yearChars at h
  split at h
  · exact .inl (isDigit_of_mem_padded h)
  · rcases List.mem_cons.mp h with rfl | h
    · split <;> simp
    · exact .inl (isDigit_of_mem_padded h)

theorem isPlain_of_mem_fractionChars {nanos : Nat} {c : Char} (h : c ∈ fractionChars nanos) :
    IsPlain c := by
  have hdigits : ∀ {width n : Nat}, c ∈ '.' :: padded width n → IsPlain c := by
    intro width n hc
    rcases List.mem_cons.mp hc with rfl | hc
    -- the separators are plain, and so are the digits
    · exact .inr (by decide)
    · exact .inl (isDigit_of_mem_padded hc)
  unfold fractionChars at h
  split at h
  · cases h
  · split at h
    · exact hdigits h
    · split at h <;> exact hdigits h

theorem isPlain_of_mem_dateChars {d : Date} {c : Char} (h : c ∈ dateChars d) :
    c.isDigit = true ∨ c = '-' ∨ c = '+' := by
  simp only [dateChars, List.mem_append, List.mem_cons] at h
  rcases h with hyear | (rfl | hmonth) | rfl | hday
  · exact isPlain_of_mem_yearChars hyear
  · exact .inr (.inl rfl)
  · exact .inl (isDigit_of_mem_padded hmonth)
  · exact .inr (.inl rfl)
  · exact .inl (isDigit_of_mem_padded hday)

theorem isPlain_of_mem_chars {i : Instant} {c : Char} (h : c ∈ (i : Timestamp).chars) : IsPlain c := by
  rw [chars_eq] at h
  simp only [clockChars, List.mem_append, List.mem_cons, List.not_mem_nil, or_false] at h
  -- date, hour, minute, second and fraction, with their separators
  rcases h with hdate | rfl | ((hhour | rfl | hminute) | rfl | hsecond) | hfraction | rfl
  · rcases isPlain_of_mem_dateChars hdate with hdigit | rfl | rfl
    · exact .inl hdigit
    · exact .inr (by decide)
    · exact .inr (by decide)
  · exact .inr (by decide)
  · exact .inl (isDigit_of_mem_padded hhour)
  · exact .inr (by decide)
  · exact .inl (isDigit_of_mem_padded hminute)
  · exact .inr (by decide)
  · exact .inl (isDigit_of_mem_padded hsecond)
  · exact isPlain_of_mem_fractionChars hfraction
  · exact .inr (by decide)

/-! ## The parts are written apart -/

/-- A year is written without a sign, or with one that tells whether it is negative. -/
theorem yearChars_cases (year : Int) :
    (0 ≤ year ∧ yearChars year = padded 4 year.toNat) ∨
    ∃ sign : Char, sign.isDigit = false ∧ (sign = '-' ↔ year < 0) ∧
      yearChars year = sign :: padded 4 year.natAbs := by
  unfold yearChars
  split
  · rename_i h
    exact .inl ⟨h.1, rfl⟩
  · -- a year outside of the four digits is signed
    right
    refine ⟨_, ?_, ?_, rfl⟩
    · split <;> rfl
    · split
      · rename_i h
        exact iff_of_true rfl h
      · rename_i h
        exact iff_of_false (by decide) h

theorem yearChars_injective {a b : Int} (h : yearChars a = yearChars b) : a = b := by
  have hsign : ∀ {sign : Char} {n : Nat} {rest : List Char}, sign.isDigit = false →
      padded 4 n ≠ sign :: rest :=
    fun hsign heq => not_mem_padded hsign (heq ▸ List.mem_cons_self)
  rcases yearChars_cases a with ⟨ha, hpa⟩ | ⟨sign, hsa, ha, hpa⟩ <;>
    rcases yearChars_cases b with ⟨hb, hpb⟩ | ⟨sign', hsb, hb, hpb⟩ <;>
    rw [hpa, hpb] at h
  · have hvalue := eq_of_padded h
    omega
  -- no numeral begins with a sign
  · exact absurd h (hsign hsb)
  · exact absurd h.symm (hsign hsa)
  · obtain ⟨rfl, hdigits⟩ := List.cons.inj h
    have hvalue := eq_of_padded hdigits
    have hsame : a < 0 ↔ b < 0 := ha.symm.trans hb
    omega

theorem dateChars_injective {a b : Date} (h : dateChars a = dateChars b) (ha : a.month < 100)
    (hb : b.month < 100) (ha' : a.day < 100) (hb' : b.day < 100) : a = b := by
  have hmonth : ∀ {n : Nat}, n < 100 → (padded 2 n).length = 2 := fun h => length_padded (by decide) h
  -- years differ in length, and so the fields are cut off from the end
  obtain ⟨hyear, htail⟩ := List.append_inj' h (by
    simp only [List.length_append, List.length_cons, hmonth ha, hmonth hb, hmonth ha', hmonth hb'])
  obtain ⟨hm, hd⟩ := List.append_inj' htail (by simp only [List.length_cons, hmonth ha', hmonth hb'])
  cases a
  cases b
  rw [Date.mk.injEq]
  exact ⟨yearChars_injective hyear, eq_of_padded (List.cons.inj hm).2, eq_of_padded (List.cons.inj hd).2⟩

/-- How long the form of a fraction is, and what it says. -/
theorem fractionChars_cases {nanos : Nat} (h : nanos < 1000000000) :
    (nanos = 0 ∧ fractionChars nanos = []) ∨
    ∃ places n, fractionChars nanos = '.' :: padded places n ∧ (padded places n).length = places ∧
      places ≤ 9 ∧ nanos = n * 10 ^ (9 - places) := by
  unfold fractionChars
  split
  · rename_i hzero
    exact .inl ⟨hzero, rfl⟩
  · right
    split
    -- the shortest of three, six and nine places that is exact
    · exact ⟨3, nanos / 1000000, rfl, length_padded (by decide) (by omega), by decide, by omega⟩
    · split
      · exact ⟨6, nanos / 1000, rfl, length_padded (by decide) (by omega), by decide, by omega⟩
      · exact ⟨9, nanos, rfl, length_padded (by decide) h, by decide, by omega⟩

theorem fractionChars_injective {a b : Nat} (h : fractionChars a = fractionChars b)
    (ha : a < 1000000000) (hb : b < 1000000000) : a = b := by
  rcases fractionChars_cases ha with ⟨ha, hca⟩ | ⟨places, n, hca, hlength, -, ha⟩ <;>
    rcases fractionChars_cases hb with ⟨hb, hcb⟩ | ⟨places', n', hcb, hlength', -, hb⟩ <;>
    rw [hca, hcb] at h
  · -- nothing and a fraction differ in their first character
    rw [ha, hb]
  · cases h
  · cases h
  · -- the number of places is read off the length
    obtain ⟨-, h⟩ := List.cons.inj h
    have hplaces : places = places' := by rw [← hlength, ← hlength', h]
    rw [ha, hb, hplaces, eq_of_padded h]

theorem clockChars_injective {a b : Nat} (h : clockChars a = clockChars b)
    (ha : a < 86400 * 1000000000) (hb : b < 86400 * 1000000000) : a = b := by
  have htwo : ∀ {n : Nat}, n < 100 → (padded 2 n).length = 2 := fun h => length_padded (by decide) h
  -- fractions differ in length, and so the fields are cut off from the front
  obtain ⟨hfields, hfraction⟩ := List.append_inj h (by
    simp only [List.length_append, List.length_cons]
    rw [htwo (by omega), htwo (by omega), htwo (by omega), htwo (by omega), htwo (by omega),
      htwo (by omega)])
  obtain ⟨hminutes, hsecond⟩ := List.append_inj' hfields (by
    simp only [List.length_cons]
    rw [htwo (by omega), htwo (by omega)])
  obtain ⟨hhour, hminute⟩ := List.append_inj' hminutes (by
    simp only [List.length_cons]
    rw [htwo (by omega), htwo (by omega)])
  have hh := eq_of_padded hhour
  have hm := eq_of_padded (List.cons.inj hminute).2
  have hs := eq_of_padded (List.cons.inj hsecond).2
  have hf := fractionChars_injective (List.append_cancel_right hfraction) (Nat.mod_lt _ (by decide))
    (Nat.mod_lt _ (by decide))
  -- hours, minutes, seconds and the fraction make up the time of day
  omega

/-! ## Instants -/

/-- **Instants are written apart.** An instant is determined by its written form. -/
theorem chars_injective {i j : Instant} (h : (i : Timestamp).chars = (j : Timestamp).chars) : i = j := by
  -- no mark stands inside of a date
  have hmark : ∀ d : Date, 'T' ∉ dateChars d := by
    intro d hmem
    rcases isPlain_of_mem_dateChars hmem with h | h | h <;> revert h <;> decide
  rw [chars_eq, chars_eq] at h
  obtain ⟨hdate, hclock⟩ := append_mark_inj (hmark _) (hmark _) h
  have hday := congrArg Date.toDay (dateChars_injective hdate (Date.ofDay_month_lt _)
    (Date.ofDay_month_lt _) (Date.ofDay_day_lt _) (Date.ofDay_day_lt _))
  -- the day and the time of day are the instant
  rw [Date.toDay_ofDay, Date.toDay_ofDay] at hday
  have htime := clockChars_injective hclock (by omega) (by omega)
  rw [Instant.mk.injEq]
  omega

end Timestamp

end Occupancy
