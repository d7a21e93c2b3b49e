import Occupancy.Proofs.Reading.Numerals
import Occupancy.Topic

/-!
# Topics are read back

The written form of a topic is read as the topic: numerals up to their end, and the parts between colons, which
no name of a kind and no numeral has. Main statements: `Topic.read?_text` and `Topic.text_injective`.
-/

namespace Occupancy

namespace Decimal

theorem natural?_digits (n : Nat) : natural? (digits n) = some n := by
  have hdigits : (digits n).all isDigit = true := List.all_eq_true.mpr fun c hc => isDigit_of_mem_digits hc
  rw [natural?, if_pos ⟨digits_ne_nil n, hdigits⟩, value_digits]

/-- The numeral of an integer is read back. -/
theorem integer?_chars (i : Int) : integer? (chars i) = some i := by
  unfold chars
  split
  -- a negative number has its minus in front
  · have hvalue : -(i.natAbs : Int) = i := by omega
    rw [integer?, natural?_digits]
    exact congrArg some hvalue
  · have hvalue : (i.natAbs : Int) = i := by omega
    obtain ⟨c, run, hrun, hc⟩ := exists_digits i.natAbs
    have hread := natural?_digits i.natAbs
    rw [hrun] at hread ⊢
    -- a digit is no sign
    unfold integer?
    split
    · rename_i heq
      cases heq
      exact absurd hc (by decide)
    · rename_i heq
      cases heq
      exact absurd hc (by decide)
    · rw [hread]
      exact congrArg some hvalue

/-- There is no colon in a numeral. -/
theorem colon_not_mem_chars (i : Int) : ':' ∉ chars i := by
  have hdigits : ':' ∉ digits i.natAbs := fun hmem => absurd (isDigit_of_mem_digits hmem) (by decide)
  unfold chars
  split
  · exact List.not_mem_cons_of_ne_of_not_mem (by decide) hdigits
  · exact hdigits

theorem toList_word (w : Word) : (word w).toList = chars w.toInt :=
  String.toList_ofList

end Decimal

namespace Topic

theorem readId?_chars (w : Word) : readId? (Decimal.chars w.toInt) = some w := by
  rw [readId?, Decimal.integer?_chars, Option.bind_some, Decimal.word?_toInt]

/-- A text is split at its first colon. -/
theorem splitColon_append {cs rest : List Char} (h : ':' ∉ cs) :
    splitColon (cs ++ ':' :: rest) = some (cs, rest) := by
  have hpos : ∀ c ∈ cs, decide (c ≠ ':') = true := by
    intro c hc
    rw [decide_eq_true_eq]
    rintro rfl
    exact h hc
  rw [splitColon, List.dropWhile_append_of_pos hpos, List.takeWhile_append_of_pos hpos]
  simp

theorem ne_rooms {text : String} {cs rest : List Char} (h : text.toList = cs ++ ':' :: rest) :
    text ≠ "rooms" := by
  rintro rfl
  have hcolon : ':' ∈ "rooms".toList := by simp [h]
  exact absurd hcolon (by decide)

/-- The written form of a topic is read back. -/
theorem read?_text (t : Topic) : read? t.text = some t := by
  cases t with
  | allRooms => rfl
  | room id =>
    have htext : (Topic.room id).text.toList = ['r', 'o', 'o', 'm'] ++ ':' :: Decimal.chars id.toInt := by
      simp [text, Decimal.toList_word]
    rw [read?, if_neg (ne_rooms htext), htext, splitColon_append (by decide)]
    simp [readId?_chars]
  | branch id =>
    -- the kind ends at the first colon
    have htext : (Topic.branch id).text.toList =
        ['b', 'r', 'a', 'n', 'c', 'h'] ++ ':' :: Decimal.chars id.toInt := by
      simp [text, Decimal.toList_word]
    rw [read?, if_neg (ne_rooms htext), htext, splitColon_append (by decide)]
    simp [readId?_chars]
  | deviceOwner device user =>
    have htext : (Topic.deviceOwner device user).text.toList =
        ['d', 'e', 'v', 'i', 'c', 'e', '-', 'o', 'w', 'n', 'e', 'r'] ++
          ':' :: (Decimal.chars device.toInt ++ ':' :: Decimal.chars user.toInt) := by
      simp [text, Decimal.toList_word]
    rw [read?, if_neg (ne_rooms htext), htext, splitColon_append (by decide)]
    simp [splitColon_append (Decimal.colon_not_mem_chars _), readId?_chars]

/-- Topics with the same written form are the same. -/
theorem text_injective : Function.Injective text := by
  intro a b h
  exact Option.some.inj ((read?_text a).symm.trans ((congrArg read? h).trans (read?_text b)))

end Topic

end Occupancy
