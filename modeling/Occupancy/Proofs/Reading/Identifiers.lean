import Mathlib.Algebra.GroupWithZero.Nat
import Occupancy.Proofs.Reading.Trees
import Occupancy.Uuid

/-!
# Identifiers are read back

Main statement: `read?_text`. The five groups of an identifier's written form are the digits of one number.
-/

namespace Occupancy.Uuid

theorem length_hex (width n : Nat) : (hex width n).length = width := by
  induction width generalizing n with
  | zero => rfl
  | succ width ih => rw [hex, List.length_append, ih, List.length_singleton]

/-- Digits are read as the number that ends in them. -/
theorem ofHex?_hex (acc width n : Nat) (rest : List Char) :
    ofHex? acc (hex width n ++ rest) = ofHex? (16 ^ width * acc + n % 16 ^ width) rest := by
  induction width generalizing n rest with
  | zero => simp [hex, Nat.mod_one]
  -- the digits are read from the front, and the last one is of the remainder
  | succ width ih =>
    have hdigit := Json.hexValue?_hexDigit (n % 16) (Nat.mod_lt n (by decide))
    have hnumber : 16 * (16 ^ width * acc + n / 16 % 16 ^ width) + n % 16 =
        16 ^ (width + 1) * acc + n % 16 ^ (width + 1) := by
      rw [Nat.pow_succ', Nat.mod_mul, Nat.mul_add, Nat.mul_assoc]
      omega
    rw [hex, List.append_assoc, ih, List.cons_append, List.nil_append, ofHex?, hdigit, Option.bind_some,
      hnumber]

/-- The digits of the groups, without the hyphens. -/
theorem readGrouped?_groups {a b c d e : List Char} (ha : a.length = 8) (hb : b.length = 4)
    (hc : c.length = 4) (hd : d.length = 4) (he : e.length = 12) :
    readGrouped? (a ++ '-' :: b ++ '-' :: c ++ '-' :: d ++ '-' :: e) =
      readPlain? (a ++ b ++ c ++ d ++ e) := by
  have hmarks : ∀ cs, cs = a ++ '-' :: b ++ '-' :: c ++ '-' :: d ++ '-' :: e → cs.length = 36 ∧
      cs[8]? = some '-' ∧ cs[13]? = some '-' ∧ cs[18]? = some '-' ∧ cs[23]? = some '-' := by
    rintro cs rfl
    simp [ha, hb, hc, hd, he]
  rw [readGrouped?, if_pos (hmarks _ rfl)]
  simp [List.drop_append, List.drop_of_length_le, ha, hb, hc, hd]

/-- The groups of a number of 128 bits make it up. -/
theorem groups_eq {n : Nat} (h : n < 2 ^ 128) :
    16 ^ 12 * (16 ^ 4 * (16 ^ 4 * (16 ^ 4 * ((n >>> 96) % 16 ^ 8) + (n >>> 80) % 16 ^ 4) +
      (n >>> 64) % 16 ^ 4) + (n >>> 48) % 16 ^ 4) + n % 16 ^ 12 = n := by
  simp only [Nat.shiftRight_eq_div_pow]
  omega

/-- An identifier is read back from its written form. -/
theorem read?_text (u : Uuid) : read? u.text = some u := by
  -- five groups of hexadecimal digits, which hold all of the 128 bits
  have hbound : u.toNat < 2 ^ 128 := u.value.isLt
  have hlength : u.chars.length = 36 := by simp [chars, length_hex]
  have hnumber : ofHex? 0 (hex 8 (u.toNat >>> 96) ++ hex 4 (u.toNat >>> 80) ++ hex 4 (u.toNat >>> 64) ++
      hex 4 (u.toNat >>> 48) ++ hex 12 u.toNat) = some u.toNat := by
    rw [← List.append_nil (hex 12 u.toNat)]
    simp only [List.append_assoc]
    simp only [ofHex?_hex, Nat.mul_zero, Nat.zero_add]
    rw [ofHex?, groups_eq hbound]
  -- with its four hyphens the text is read by groups
  have hgroups : readGrouped? u.chars = readPlain? _ :=
    readGrouped?_groups (length_hex 8 _) (length_hex 4 _) (length_hex 4 _) (length_hex 4 _) (length_hex 12 _)
  have hvalue : ofNat u.toNat = u := by
    rw [ofNat, toNat, BitVec.ofNat_toNat, BitVec.setWidth_eq]
  rw [read?, text, String.toList_ofList]
  simp only [hlength, hgroups, readPlain?, hnumber]
  simp [length_hex, hvalue]

end Occupancy.Uuid
