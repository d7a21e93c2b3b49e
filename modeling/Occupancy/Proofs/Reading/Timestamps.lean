import Occupancy.Proofs.Time
import Occupancy.Proofs.Timestamp

/-!
# Timestamps are read back

Main statement: `read?_text`. The written form of every instant is read as that instant: the reader takes the
fields off the form one after another, and the date and the time of day that it finds make up the instant.
-/

namespace Occupancy

theorem isBlank_of_isDigit {c : Char} (h : Decimal.isDigit c = true) : isBlank c = false := by
  have hbounds : 48 ≤ c.toNat ∧ c.toNat ≤ 57 := by
    simp only [Decimal.isDigit, Bool.and_eq_true, decide_eq_true_eq] at h
    exact ⟨UInt32.le_iff_toNat_le.mp h.1, UInt32.le_iff_toNat_le.mp h.2⟩
  simp only [isBlank, Bool.or_eq_false_iff, Bool.and_eq_false_iff, decide_eq_false_iff_not,
    beq_eq_false_iff_ne]
  omega

theorem skipBlanks_cons {c : Char} (h : isBlank c = false) (rest : List Char) :
    skipBlanks (c :: rest) = c :: rest := by
  simp [skipBlanks, h]

namespace Timestamp

open Decimal (padded)

variable {run rest : List Char} {n : Nat}

/-! ## Fields -/

/-- A run of digits that is no longer than what is looked at is found whole. -/
theorem takeWhile_take_run {most : Nat} (hrun : ∀ c ∈ run, Decimal.isDigit c = true)
    (hmost : run.length ≤ most) (hrest : ∀ c ∈ rest.head?, Decimal.isDigit c = false) :
    ((run ++ rest).take most).takeWhile Decimal.isDigit = run := by
  have hrest' : ∀ c ∈ (rest.take (most - run.length)).head?, Decimal.isDigit c = false := by
    intro c hc
    rw [List.head?_take] at hc
    split at hc
    · cases hc
    · exact hrest c hc
  rw [List.take_append, List.take_of_length_le hmost, (Decimal.span_digits hrun hrest').1]

theorem padded_ne_nil (width n : Nat) : padded width n ≠ [] := by
  simp [padded, Decimal.digits_ne_nil]

theorem exists_padded (width n : Nat) : ∃ c run, padded width n = c :: run ∧ Decimal.isDigit c = true := by
  obtain ⟨c, run, hrun⟩ := List.exists_cons_of_ne_nil (padded_ne_nil width n)
  have hmem : c ∈ padded width n := hrun ▸ List.mem_cons_self
  exact ⟨c, run, hrun, Decimal.isDigit_of_mem_padded hmem⟩

theorem skipBlanks_padded (width n : Nat) (rest : List Char) :
    skipBlanks (padded width n ++ rest) = padded width n ++ rest := by
  obtain ⟨c, run, hrun, hdigit⟩ := exists_padded width n
  rw [hrun]
  exact skipBlanks_cons (isBlank_of_isDigit hdigit) _

/-- A padded numeral is read up to the first character that is no digit. -/
theorem readDigits_padded {most width : Nat} (hmost : (padded width n).length ≤ most)
    (hrest : ∀ c ∈ rest.head?, Decimal.isDigit c = false) :
    readDigits most (padded width n ++ rest) = some (n, rest) := by
  rw [readDigits, takeWhile_take_run (fun c => Decimal.isDigit_of_mem_padded) hmost hrest]
  simp [padded_ne_nil, Decimal.value_padded]

theorem readField_padded (h : n < 100) (hrest : ∀ c ∈ rest.head?, Decimal.isDigit c = false) :
    readField (padded 2 n ++ rest) = some (n, rest) := by
  rw [readField, skipBlanks_padded]
  exact readDigits_padded (Nat.le_of_eq (Decimal.length_padded (by decide) h)) hrest

theorem readMark_cons (mark : Char) (h : isBlank mark = false) (rest : List Char) :
    readMark mark (mark :: rest) = some rest := by
  rw [readMark, skipBlanks_cons h]
  exact if_pos rfl

/-- A year is read up to the mark behind it, with the sign that tells years of more than four digits. -/
theorem readYear_chars (year : Int) (rest : List Char) :
    readYear (yearChars year ++ '-' :: rest) = some (year, '-' :: rest) := by
  have hmark : ∀ c ∈ ('-' :: rest).head?, Decimal.isDigit c = false := by
    rintro c ⟨⟩
    rfl
  unfold yearChars
  split
  -- four plain digits, without a sign
  · rename_i hplain
    have hlength : (padded 4 year.toNat).length ≤ 4 :=
      Nat.le_of_eq (Decimal.length_padded (by decide) (by omega))
    have hread := readDigits_padded hlength hmark
    obtain ⟨c, run, hrun, hdigit⟩ := exists_padded 4 year.toNat
    have hplus : c ≠ '+' := Decimal.ne_of_isDigit hdigit rfl
    have hminus : c ≠ '-' := Decimal.ne_of_isDigit hdigit rfl
    have hyear : (year.toNat : Int) = year := Int.toNat_of_nonneg hplain.1
    rw [readYear, skipBlanks_padded]
    rw [hrun, List.cons_append] at hread ⊢
    split <;> simp_all
  -- a year out of the plain range has its sign in front
  · have hlength : (padded 4 year.natAbs).length ≤ (padded 4 year.natAbs ++ '-' :: rest).length := by simp
    have hread := readDigits_padded hlength hmark
    split
    · have hyear : -(year.natAbs : Int) = year := by omega
      rw [List.cons_append, readYear, skipBlanks_cons (by decide)]
      simp only [hread, Option.map_some, hyear]
    · have hyear : (year.natAbs : Int) = year := by omega
      rw [List.cons_append, readYear, skipBlanks_cons (by decide)]
      simp only [hread, Option.map_some, hyear]

/-- A fraction is read up to the mark behind it. -/
theorem readFraction_chars (h : n < 1000000000) :
    readFraction (fractionChars n ++ ['Z']) = some (n, ['Z']) := by
  -- no fraction at all, or one of three, six or nine places
  rcases fractionChars_cases h with ⟨rfl, hchars⟩ | ⟨places, m, hchars, hlength, hplaces, rfl⟩
  · rw [hchars]
    rfl
  · have hmark : ∀ c ∈ ['Z'].head?, Decimal.isDigit c = false := by
      rintro c ⟨⟩
      rfl
    have hdigits : ∀ c ∈ padded places m, Decimal.isDigit c = true := fun c => Decimal.isDigit_of_mem_padded
    have hmost : (padded places m).length ≤ 9 := Nat.le_trans (Nat.le_of_eq hlength) hplaces
    simp only [hchars, List.cons_append, readFraction, readDigits_padded hmost hmark,
      takeWhile_take_run hdigits hmost hmark, (Decimal.span_digits hdigits hmark).2, hlength]
    rfl

/-- Whatever follows the seconds is not a digit. -/
theorem fractionChars_head (h : n < 1000000000) :
    ∀ c ∈ (fractionChars n ++ ['Z']).head?, Decimal.isDigit c = false := by
  rcases fractionChars_cases h with ⟨-, hchars⟩ | ⟨places, m, hchars, -⟩ <;>
    rw [hchars] <;>
    rintro c ⟨⟩ <;>
    rfl

/-! ## Instants -/

/-- The fields of an instant make it up. -/
theorem ofFields?_ofDay (i : Instant) {nanos : Nat}
    (h : nanos = (i.nanos % (86400 * 1000000000)).toNat) :
    ofFields? (Date.ofDay (i.nanos / (86400 * 1000000000))) (nanos / 1000000000 / 3600)
      (nanos / 1000000000 / 60 % 60) (nanos / 1000000000 % 60) (nanos % 1000000000) 0 =
      some (i : Timestamp) := by
  have hrange := i.inRange
  have hsplit := Int.mul_ediv_add_emod i.nanos (86400 * 1000000000)
  have hlower := Int.emod_nonneg i.nanos (b := 86400 * 1000000000) (by decide)
  have hupper := Int.emod_lt_of_pos i.nanos (b := 86400 * 1000000000) (by decide)
  generalize i.nanos / (86400 * 1000000000) = day at *
  generalize hhour : nanos / 1000000000 / 3600 = hour
  -- the fields of a day and of a time of day are in their ranges, and no second is a leap second
  generalize hminute : nanos / 1000000000 / 60 % 60 = minute
  generalize hsecond : nanos / 1000000000 % 60 = second
  have hvalid : (Date.ofDay day).Valid ∧ hour < 24 ∧ minute < 60 ∧ second ≤ 60 ∧ (-86400 : Int) < 0 ∧
      (0 : Int) < 86400 :=
    ⟨Date.valid_ofDay _, by omega, by omega, by omega, by decide, by decide⟩
  have hplain : second ≠ 60 := by omega
  -- the second that the fields name is in range, since the first instant is a whole second
  have hwall : Instant.ofNanos? ((day * 86400 + hour * 3600 + minute * 60 + second) * 1000000000) =
      some ⟨(day * 86400 + hour * 3600 + minute * 60 + second) * 1000000000, by omega⟩ :=
    Instant.ofNanos?_eq_some_iff.mpr rfl
  have hinstant : Instant.ofNanos? ((day * 86400 + hour * 3600 + minute * 60 + second - 0) * 1000000000 +
      (nanos % 1000000000 : Nat)) = some i :=
    Instant.ofNanos?_eq_some_iff.mpr (by omega)
  rw [ofFields?, if_pos hvalid]
  -- the day of the date is the day it was made from
  simp only [if_neg hplain, Date.toDay_ofDay, hwall, hinstant, Option.bind_eq_bind, Option.bind_some]
  simp [hplain]

/-- **An instant is read back from its written form.** -/
theorem read?_text (i : Instant) : read? (i : Timestamp).text = some (i : Timestamp) := by
  have hfields := ofFields?_ofDay i rfl
  have hmonth := Date.ofDay_month_lt (i.nanos / (86400 * 1000000000))
  have hday := Date.ofDay_day_lt (i.nanos / (86400 * 1000000000))
  have hbound : (i.nanos % (86400 * 1000000000)).toNat < 86400 * 1000000000 := by omega
  rw [text, chars_eq]
  generalize (i.nanos % (86400 * 1000000000)).toNat = nanos at *
  generalize Date.ofDay (i.nanos / (86400 * 1000000000)) = date at *
  have hfraction : nanos % 1000000000 < 1000000000 := Nat.mod_lt _ (by decide)
  -- each field is read up to the mark behind it
  have hbefore : ∀ mark : Char, Decimal.isDigit mark = false → ∀ {n : Nat}, n < 100 → ∀ rest,
      readField (padded 2 n ++ mark :: rest) = some (n, mark :: rest) := by
    refine fun mark hmark n hn rest => readField_padded hn ?_
    rintro c ⟨⟩
    exact hmark
  simp only [dateChars, clockChars, read?, String.toList_ofList, List.append_assoc, List.cons_append,
    Option.bind_eq_bind]
  rw [readYear_chars, Option.bind_some]
  dsimp only
  rw [readMark_cons '-' rfl, Option.bind_some, hbefore '-' rfl hmonth, Option.bind_some]
  dsimp only
  rw [readMark_cons '-' rfl, Option.bind_some, hbefore 'T' rfl hday, Option.bind_some]
  dsimp only
  rw [if_pos (.inl rfl)]
  simp only [Option.bind_some, readMark_cons ':' rfl,
    hbefore ':' rfl (show nanos / 1000000000 / 3600 < 100 by omega),
    hbefore ':' rfl (show nanos / 1000000000 / 60 % 60 < 100 by omega),
    readField_padded (show nanos / 1000000000 % 60 < 100 by omega) (fractionChars_head hfraction),
    readFraction_chars hfraction, show readOffset ['Z'] = some (0, []) from rfl, hfields]
  rfl

end Timestamp

end Occupancy
