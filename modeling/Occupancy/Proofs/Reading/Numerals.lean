import Mathlib.Algebra.Group.Nat.Defs
import Mathlib.Data.List.Basic
import Occupancy.Text.Decimal

/-!
# Numerals are read back

A numeral is a run of digits whose value is the number that was written, with or without zeros in front.
Main statements: `value_digits`, `value_padded` and `word?_toInt`. Where digits end, reading them ends:
`span_digits`.
-/

namespace Occupancy.Decimal

variable {width width' m n : Nat}

/-! ## Runs of digits -/

theorem isDigit_of_mem_digits {c : Char} (h : c ∈ digits n) : isDigit c = true :=
  Nat.isDigit_of_mem_toDigits (by decide) (by decide) h

theorem digits_ne_nil (n : Nat) : digits n ≠ [] :=
  Nat.toDigits_ne_nil

theorem exists_digits (n : Nat) : ∃ c run, digits n = c :: run ∧ isDigit c = true := by
  obtain ⟨c, run, hrun⟩ := List.exists_cons_of_ne_nil (digits_ne_nil n)
  exact ⟨c, run, hrun, isDigit_of_mem_digits (hrun ▸ List.mem_cons_self)⟩

theorem ne_of_isDigit {c c' : Char} (h : isDigit c = true) (h' : isDigit c' = false) : c ≠ c' := by
  rintro rfl
  rw [h] at h'
  cases h'

theorem value_digits (n : Nat) : value (digits n) = n :=
  Nat.ofDigitChars_ten_toDigits

/-- Only zero begins with a zero. -/
theorem eq_zero_of_head?_digits (h : (digits n).head? = some '0') : n = 0 := by
  induction n using Nat.strongRecOn with
  | ind n ih =>
    by_cases hn : n < 10
    -- one digit, and zero is the only one that is zero
    · have hfirst : ∀ n < 10, n.digitChar = '0' → n = 0 := by decide
      rw [digits, Nat.toDigits_of_lt_base hn] at h
      exact hfirst n hn (Option.some.inj h)
    · -- the last digit follows those of the rest
      rw [digits, Nat.toDigits_of_base_le (by decide) (by omega), List.head?_append_of_ne_nil _
        Nat.toDigits_ne_nil] at h
      have hzero := ih (n / 10) (by omega) h
      omega

/-- A run of digits is read up to the first character that is none. -/
theorem span_digits {run rest : List Char} (hrun : ∀ c ∈ run, isDigit c = true)
    (hrest : ∀ c ∈ rest.head?, isDigit c = false) :
    (run ++ rest).takeWhile isDigit = run ∧ (run ++ rest).dropWhile isDigit = rest := by
  rw [List.takeWhile_append_of_pos hrun, List.dropWhile_append_of_pos hrun]
  cases rest with
  | nil => simp
  | cons c rest => simp [hrest c rfl]

/-! ## Padded numerals -/

theorem ofDigitChars_padded (width n : Nat) : Nat.ofDigitChars 10 (padded width n) 0 = n := by
  rw [padded, digits, Nat.ofDigitChars_append, Nat.ofDigitChars_replicate_zero, Nat.mul_zero,
    Nat.ofDigitChars_ten_toDigits]

/-- A number is read off its padded numeral, whatever the width. -/
theorem eq_of_padded (h : padded width m = padded width' n) : m = n := by
  rw [← ofDigitChars_padded width m, h, ofDigitChars_padded]

theorem length_padded (hwidth : 0 < width) (h : n < 10 ^ width) : (padded width n).length = width := by
  have hfits : (digits n).length ≤ width := (Nat.length_toDigits_le_iff (by decide) hwidth).mpr h
  rw [padded, List.length_append, List.length_replicate, Nat.sub_add_cancel hfits]

theorem isDigit_of_mem_padded {c : Char} (h : c ∈ padded width n) : c.isDigit = true := by
  rcases List.mem_append.mp h with hzero | hdigit
  · rw [(List.mem_replicate.mp hzero).2]
    rfl
  · exact Nat.isDigit_of_mem_toDigits (by decide) (by decide) hdigit

theorem not_mem_padded {c : Char} (h : c.isDigit = false) : c ∉ padded width n := by
  intro hmem
  rw [isDigit_of_mem_padded hmem] at h
  cases h

theorem value_padded (width n : Nat) : value (padded width n) = n :=
  ofDigitChars_padded width n

/-! ## Words -/

theorem word?_toInt (w : Word) : word? w.toInt = some w := by
  have hlower := Int64.le_toInt w
  have hupper := Int64.toInt_lt w
  rw [word?, if_pos (show FitsWord w.toInt from ⟨by omega, by omega⟩), Int64.ofInt_toInt]

end Occupancy.Decimal
