import Occupancy.Json.Tree
import Occupancy.Proofs.Reading.Numerals

/-!
# Written values are read back

Main statement: `ofText_render`. The tree of a value's text says what the value says, with nothing left over,
whatever the characters of its strings and the digits of its numbers are. Strings and numbers come first
(`scanText_quote`, `scanNumber_chars`); values are then read by induction on how they are built.
-/

namespace Occupancy.Json

/-! ## Strings -/

theorem hexValue?_hexDigit : ∀ n < 16, hexValue? (hexDigit n) = some n := by
  decide

/-- The piece that a character of a string is read as: most control characters are written as code units. -/
def pieceOf (c : Char) : Piece :=
  if c.toNat < 32 ∧ c ∉ ['\x08', '\x0c', '\n', '\r', '\t'] then .unit c.toNat else .char c

/-- The forms in which a character is written: with a letter of its own, as a code unit, or as itself. -/
theorem escapeChar_cases (c : Char) :
    (∃ e, escapeChar c = ['\\', e] ∧ e ≠ 'u' ∧ escaped? e = some c ∧ pieceOf c = .char c) ∨
    (escapeChar c = ['\\', 'u', '0', '0', hexDigit (c.toNat / 16), hexDigit (c.toNat % 16)] ∧
      c.toNat < 32 ∧ pieceOf c = .unit c.toNat) ∨
    (escapeChar c = [c] ∧ c ≠ '"' ∧ c ≠ '\\' ∧ 32 ≤ c.toNat ∧ pieceOf c = .char c) := by
  -- the characters with an escape of their own, one by one
  by_cases hletter : c ∈ ['"', '\\', '\x08', '\x0c', '\n', '\r', '\t']
  · left
    simp only [List.mem_cons, List.not_mem_nil, or_false] at hletter
    rcases hletter with rfl | rfl | rfl | rfl | rfl | rfl | rfl
    · exact ⟨'"', by decide, by decide, by decide, rfl⟩
    · exact ⟨'\\', by decide, by decide, by decide, rfl⟩
    · exact ⟨'b', by decide, by decide, by decide, rfl⟩
    · exact ⟨'f', by decide, by decide, by decide, rfl⟩
    · exact ⟨'n', by decide, by decide, by decide, rfl⟩
    · exact ⟨'r', by decide, by decide, by decide, rfl⟩
    · exact ⟨'t', by decide, by decide, by decide, rfl⟩
  · right
    simp only [List.mem_cons, List.not_mem_nil, or_false, not_or] at hletter
    obtain ⟨hquote, hslash, hb, hf, hn, hr, ht⟩ := hletter
    -- the rest are control characters, written by their number, and those that stand for themselves
    by_cases hcontrol : c.toNat < 32
    · left
      simp [escapeChar, pieceOf, hquote, hslash, hb, hf, hn, hr, ht, hcontrol]
    · right
      have hplain : 32 ≤ c.toNat := Nat.le_of_not_lt hcontrol
      simp [escapeChar, pieceOf, hquote, hslash, hb, hf, hn, hr, ht, hcontrol, hplain]

/-- A character is read as its piece. -/
theorem scanPieces_escapeChar (c : Char) {rest more : List Char} {pieces : List Piece}
    (h : scanPieces rest = some (pieces, more)) :
    scanPieces (escapeChar c ++ rest) = some (pieceOf c :: pieces, more) := by
  rcases escapeChar_cases c with ⟨e, hchars, hu, hescaped, hpiece⟩ | ⟨hchars, hcontrol, hpiece⟩ |
    ⟨hchars, hquote, hslash, hplain, hpiece⟩ <;>
    rw [hchars, hpiece]
  -- an escape of one letter is not that of a number
  · simp only [List.cons_append, List.nil_append]
    rw [scanPieces, hescaped, h]
    · rfl
    · rintro a b c' d rest' rfl
      exact absurd rfl hu
  · have hhigh := hexValue?_hexDigit (c.toNat / 16) (by omega)
    have hlow := hexValue?_hexDigit (c.toNat % 16) (by omega)
    have hzero : hexValue? '0' = some 0 := by decide
    -- both leading digits are zero
    have hsum : 4096 * 0 + 256 * 0 + 16 * (c.toNat / 16) + c.toNat % 16 = c.toNat := by omega
    simp only [List.cons_append, List.nil_append]
    rw [scanPieces, hzero, hhigh, hlow, h]
    simp only [Option.bind_eq_bind, Option.bind_some, hsum]
  · simp only [List.cons_append, List.nil_append]
    -- neither a quote nor an escape, so it stands for itself
    rw [scanPieces, if_neg (by simp [hslash, hplain]), h]
    · rfl
    · exact hquote
    · rintro a b c' d rest' rfl
      exact absurd rfl hslash
    · rintro e rest' rfl
      exact absurd rfl hslash

/-- An escaped text is scanned up to the quote behind it. -/
theorem scanPieces_escaped (cs rest : List Char) :
    scanPieces (cs.flatMap escapeChar ++ '"' :: rest) = some (cs.map pieceOf, rest) := by
  induction cs with
  | nil => rw [List.flatMap_nil, List.nil_append, scanPieces, List.map_nil]
  | cons c cs ih =>
    rw [List.flatMap_cons, List.append_assoc, List.map_cons]
    exact scanPieces_escapeChar c ih

/-- A code unit outside the surrogates stands for a character, whatever follows it. -/
theorem joinPieces_unit {n : Nat} (h : n < 0xD800) (rest : List Piece) :
    -- units below the surrogates stand for themselves, whatever comes next
    joinPieces (.unit n :: rest) = (joinPieces rest).map (Char.ofNat n :: ·) := by
  have hhi : ¬ (0xD800 ≤ n ∧ n ≤ 0xDBFF) := by omega
  have hlo : ¬ (0xDC00 ≤ n ∧ n ≤ 0xDFFF) := by omega
  have hany : ¬ (0xD800 ≤ n ∧ n ≤ 0xDFFF) := by omega
  cases rest with
  | nil => simp [joinPieces, hany]
  | cons piece rest =>
    cases piece with
    | char c => simp [joinPieces, hany]
    | unit lo => rw [joinPieces, if_neg hhi, if_neg hlo]

/-- The pieces of a text are joined to the text. -/
theorem joinPieces_map (cs : List Char) : joinPieces (cs.map pieceOf) = some cs := by
  induction cs with
  | nil => rfl
  | cons c cs ih =>
    rw [List.map_cons]
    rcases escapeChar_cases c with ⟨e, -, -, -, hpiece⟩ | ⟨-, hcontrol, hpiece⟩ | ⟨-, -, -, -, hpiece⟩ <;>
      rw [hpiece]
    · rw [joinPieces, ih, Option.map_some]
    · rw [joinPieces_unit (by omega), ih, Option.map_some, Char.ofNat_toNat]
    · rw [joinPieces, ih, Option.map_some]

/-- A string is read back from between its quotes. -/
theorem scanText_quote (s : String) (rest : List Char) :
    scanText (s.toList.flatMap escapeChar ++ '"' :: rest) = some (some s, rest) := by
  simp [scanText, scanPieces_escaped, joinPieces_map]

/-! ## Numbers -/

/-- What follows a value inside a text: the end, or a mark that sets values apart. -/
def Ends (rest : List Char) : Prop :=
  ∀ c ∈ rest.head?, c = ',' ∨ c = ']' ∨ c = '}'

theorem Ends.not_isDigit {rest : List Char} (h : Ends rest) :
    ∀ c ∈ rest.head?, Decimal.isDigit c = false := by
  intro c hc
  rcases h c hc with rfl | rfl | rfl <;> rfl

theorem Ends.scanFraction {rest : List Char} (h : Ends rest) :
    scanFraction rest = some (none, rest) := by
  cases rest with
  | nil => rfl
  | cons c rest => rcases h c rfl with rfl | rfl | rfl <;> rfl

theorem Ends.scanExponent {rest : List Char} (h : Ends rest) :
    scanExponent rest = some (none, rest) := by
  cases rest with
  | nil => rfl
  | cons c rest => rcases h c rfl with rfl | rfl | rfl <;> rfl

theorem spanDigits_digits (n : Nat) {rest : List Char} (h : ∀ c ∈ rest.head?, Decimal.isDigit c = false) :
    spanDigits (Decimal.digits n ++ rest) = (Decimal.digits n, rest) := by
  obtain ⟨hrun, hrest⟩ := Decimal.span_digits (fun c => Decimal.isDigit_of_mem_digits) h
  rw [spanDigits, hrun, hrest]

/-- An exponent is read back. -/
theorem scanExponent_chars (e : Int) {rest : List Char} (h : Ends rest) :
    scanExponent ('e' :: Decimal.chars e ++ rest) = some (some e, rest) := by
  have hne := Decimal.digits_ne_nil e.natAbs
  have hspan := spanDigits_digits e.natAbs h.not_isDigit
  unfold Decimal.chars
  split
  -- a minus, which is read before the digits
  · have hvalue : -1 * (Decimal.value (Decimal.digits e.natAbs) : Int) = e := by
      rw [Decimal.value_digits]
      omega
    simp only [List.cons_append, Json.scanExponent, hspan, hne, hvalue]
    simp
  · have hvalue : 1 * (Decimal.value (Decimal.digits e.natAbs) : Int) = e := by
      rw [Decimal.value_digits]
      omega
    -- no digit is taken for a sign
    obtain ⟨c, run, hrun, hdigit⟩ := Decimal.exists_digits e.natAbs
    have hplus : c ≠ '+' := Decimal.ne_of_isDigit hdigit rfl
    have hminus : c ≠ '-' := Decimal.ne_of_isDigit hdigit rfl
    rw [hrun] at hspan hne hvalue ⊢
    simp only [List.cons_append] at hspan
    simp [Json.scanExponent, hplus, hminus, hspan, ← hvalue]

/-- The number of a run of digits, by the fraction and the exponent behind it. -/
def numberOf (negative : Bool) (n : Nat) : Option (List Char) → Option Int → Number
  | none, none => .whole negative n
  | fraction, exponent =>
    .decimal negative (Decimal.value (Decimal.digits n ++ fraction.getD []))
      (exponent.getD 0 - (fraction.getD []).length)

/-- What a run of digits is read as depends on what follows it. -/
theorem scanMagnitude_run (negative : Bool) (n : Nat) {rest more after : List Char}
    {fraction : Option (List Char)} {exponent : Option Int}
    (h : ∀ c ∈ rest.head?, Decimal.isDigit c = false) (hfraction : scanFraction rest = some (fraction, more))
    (hexponent : scanExponent more = some (exponent, after)) :
    scanMagnitude negative (Decimal.digits n ++ rest) =
      some (numberOf negative n fraction exponent, after) := by
  -- no zero stands in front of other digits
  have hzeros : ¬ ((Decimal.digits n).head? = some '0' ∧ (Decimal.digits n).length ≠ 1) := by
    rintro ⟨hhead, hlength⟩
    rw [Decimal.eq_zero_of_head?_digits hhead] at hlength
    exact hlength rfl
  simp only [scanMagnitude, spanDigits_digits n h, Decimal.value_digits]
  rw [if_neg (not_or.mpr ⟨Decimal.digits_ne_nil n, hzeros⟩), hfraction, Option.bind_eq_bind,
    Option.bind_some]
  simp only [hexponent, Option.bind_eq_bind, Option.bind_some]
  cases fraction <;> cases exponent <;> rfl

/-- A number without a sign begins with a digit. -/
theorem scanNumber_digits (n : Nat) (rest : List Char) :
    scanNumber (Decimal.digits n ++ rest) = scanMagnitude false (Decimal.digits n ++ rest) := by
  obtain ⟨c, run, hrun, hdigit⟩ := Decimal.exists_digits n
  have hminus : c ≠ '-' := Decimal.ne_of_isDigit hdigit rfl
  rw [hrun, List.cons_append, scanNumber]
  rintro cs heq
  exact hminus (List.cons.inj heq).1

/-- A number is read back. -/
theorem scanNumber_chars (n : Number) {rest : List Char} (h : Ends rest) :
    scanNumber (n.chars ++ rest) = some (n, rest) := by
  -- with or without an exponent, what remains is what followed the number
  have hwhole : ∀ negative m, scanMagnitude negative (Decimal.digits m ++ rest) =
      some (.whole negative m, rest) :=
    fun negative m => scanMagnitude_run negative m h.not_isDigit h.scanFraction h.scanExponent
  have hdecimal : ∀ negative m e, scanMagnitude negative
      (Decimal.digits m ++ ('e' :: Decimal.chars e ++ rest)) = some (.decimal negative m e, rest) := by
    intro negative m e
    rw [scanMagnitude_run negative m (by rintro c ⟨⟩; rfl) rfl (scanExponent_chars e h)]
    simp [numberOf, Decimal.value_digits]
  cases n with
  | whole negative m =>
    cases negative with
    | false => simp only [Number.chars, scanNumber_digits, hwhole, Bool.false_eq_true, if_false, List.nil_append]
    | true => simp only [Number.chars, if_true, List.cons_append, List.nil_append, scanNumber, hwhole]
  | decimal negative m e =>
    cases negative with
    | false =>
      simp only [Number.chars, Bool.false_eq_true, if_false, List.nil_append, List.append_assoc,
        scanNumber_digits, hdecimal]
    | true =>
      simp only [Number.chars, if_true, List.cons_append, List.nil_append, List.append_assoc, scanNumber]
      exact hdecimal true m e

/-! ## Values -/

mutual

def Tree.ofValue : Value → Tree
  | .null => .null
  | .bool b => .bool b
  | .number n => .number n
  | .text s => .text (some s)
  | .array items => .array (Items.ofValues items)
  | .object members => .object (Members.ofFields members)

/-- What the items of an array say. -/
def Items.ofValues : List Value → Items
  | [] => .done
  | v :: rest => .item (Tree.ofValue v) (Items.ofValues rest)

/-- What the members of an object say. -/
def Members.ofFields : List (String × Value) → Members
  | [] => .done
  | (k, v) :: rest => .member (some k) (Tree.ofValue v) (Members.ofFields rest)

end

/-- A number begins with none of the characters that other values begin with, and not with a blank. -/
theorem Number.exists_chars (n : Number) : ∃ c rest, n.chars = c :: rest ∧
    c ∉ ['n', 't', 'f', '"', '[', '{', ']', ' ', '\n', '\t', '\r'] := by
  -- a sign or a digit, neither of which opens another kind of value
  have hsigned : ∀ (negative : Bool) (m : Nat) (rest : List Char), ∃ c more,
      (if negative then ['-'] else []) ++ Decimal.digits m ++ rest = c :: more ∧
        c ∉ ['n', 't', 'f', '"', '[', '{', ']', ' ', '\n', '\t', '\r'] := by
    intro negative m rest
    obtain ⟨c, run, hrun, hdigit⟩ := Decimal.exists_digits m
    cases negative with
    | true => exact ⟨'-', Decimal.digits m ++ rest, by simp, by decide⟩
    | false =>
      refine ⟨c, run ++ rest, by simp [hrun], fun hmem => ?_⟩
      have hnone : ['n', 't', 'f', '"', '[', '{', ']', ' ', '\n', '\t', '\r'].all
          (!Decimal.isDigit ·) = true := rfl
      have hc := List.all_eq_true.mp hnone c hmem
      rw [hdigit] at hc
      cases hc
  cases n with
  | whole negative m => simpa [chars] using hsigned negative m []
  | decimal negative m e => exact hsigned negative m _

/-- A value begins neither with a blank nor with the end of an array. -/
theorem exists_chars (v : Value) :
    ∃ c rest, v.chars = c :: rest ∧ c ∉ [']', ' ', '\n', '\t', '\r'] := by
  cases v with
  | null => exact ⟨_, _, rfl, by decide⟩
  | bool b => cases b <;> exact ⟨_, _, rfl, by decide⟩
  | number n =>
    obtain ⟨c, rest, h, hc⟩ := n.exists_chars
    exact ⟨c, rest, h, fun hmem => hc (by simp_all)⟩
  | text s => exact ⟨_, _, rfl, by decide⟩
  | array items => exact ⟨_, _, rfl, by decide⟩
  | object members => exact ⟨_, _, rfl, by decide⟩

theorem itemChars_cons (v : Value) {items : List Value} (h : items ≠ []) :
    itemChars (v :: items) = v.chars ++ ',' :: itemChars items := by
  obtain ⟨w, rest, rfl⟩ := List.exists_cons_of_ne_nil h
  exact itemChars.eq_3 v (w :: rest) h

theorem memberChars_cons (k : String) (v : Value) {members : List (String × Value)} (h : members ≠ []) :
    memberChars ((k, v) :: members) = quote k ++ ':' :: v.chars ++ ',' :: memberChars members := by
  obtain ⟨w, rest, rfl⟩ := List.exists_cons_of_ne_nil h
  exact memberChars.eq_3 k v (w :: rest) h

/-- Items begin as the first of them does. -/
theorem exists_itemChars (v : Value) (items : List Value) :
    ∃ c rest, itemChars (v :: items) = c :: rest ∧ c ∉ [']', ' ', '\n', '\t', '\r'] := by
  obtain ⟨c, run, hchars, hc⟩ := exists_chars v
  cases items with
  | nil => exact ⟨c, run, by rw [itemChars, hchars], hc⟩
  | cons w items =>
    exact ⟨c, run ++ ',' :: itemChars (w :: items), by rw [itemChars_cons v (by simp), hchars]; rfl, hc⟩

theorem exists_memberChars (k : String) (v : Value) (members : List (String × Value)) :
    ∃ rest, memberChars ((k, v) :: members) = '"' :: rest := by
  cases members with
  | nil => exact ⟨_, rfl⟩
  | cons w members => exact ⟨_, memberChars_cons k v (by simp)⟩

theorem skipSpace_cons {c : Char} (h : c ∉ [' ', '\n', '\t', '\r']) (rest : List Char) :
    skipSpace (c :: rest) = c :: rest := by
  simp_all [skipSpace]

theorem skipSpace_chars (v : Value) (rest : List Char) : skipSpace (v.chars ++ rest) = v.chars ++ rest := by
  obtain ⟨c, more, hchars, hc⟩ := exists_chars v
  rw [hchars, List.cons_append]
  exact skipSpace_cons (fun hmem => hc (by simp_all)) _

variable {fuel : Nat} {v : Value} {t : Tree} {rest more : List Char}

/-- A number is read where nothing else can begin. -/
theorem scan_number (n : Number) (h : Ends rest) :
    scan (fuel + 1) (n.chars ++ rest) = (.number n, rest) := by
  obtain ⟨c, run, hchars, hc⟩ := n.exists_chars
  have hnumber := scanNumber_chars n h
  rw [hchars, List.cons_append] at hnumber ⊢
  rw [scan, skipSpace_cons (fun hmem => hc (by simp_all))]
  split <;> simp_all

theorem scan_array {c : Char} {items : Items} (hc : c ∉ [']', ' ', '\n', '\t', '\r'])
    (h : scanItems fuel (c :: more) = (items, rest)) :
    scan (fuel + 1) ('[' :: c :: more) = (.array items, rest) := by
  rw [scan, skipSpace_cons (by decide)]
  simp only [skipSpace_cons (c := c) (fun hmem => hc (by simp_all))]
  split <;> simp_all

theorem scan_object {members : Members} (h : scanMembers fuel ('"' :: more) = (members, rest)) :
    scan (fuel + 1) ('{' :: '"' :: more) = (.object members, rest) := by
  rw [scan, skipSpace_cons (by decide)]
  simp [skipSpace_cons (c := '"') (by decide), h]

/-- The last item of an array. -/
theorem scanItems_last (h : scan fuel (v.chars ++ ']' :: rest) = (t, ']' :: rest)) :
    scanItems (fuel + 1) (v.chars ++ ']' :: rest) = (.item t .done, rest) := by
  obtain ⟨c, run, hchars, hc⟩ := exists_chars v
  rw [scanItems, skipSpace_chars]
  rw [hchars, List.cons_append] at h ⊢
  split <;> simp_all [skipSpace]

/-- An item of an array before others. -/
theorem scanItems_cons (h : scan fuel (v.chars ++ ',' :: more) = (t, ',' :: more)) {items : Items}
    (hitems : scanItems fuel more = (items, rest)) :
    scanItems (fuel + 1) (v.chars ++ ',' :: more) = (.item t items, rest) := by
  obtain ⟨c, run, hchars, hc⟩ := exists_chars v
  rw [scanItems, skipSpace_chars]
  rw [hchars, List.cons_append] at h ⊢
  split <;> simp_all [skipSpace]

theorem scanMembers_last (k : String) (h : scan fuel (v.chars ++ '}' :: rest) = (t, '}' :: rest)) :
    scanMembers (fuel + 1) (quote k ++ ':' :: v.chars ++ '}' :: rest) = (.member (some k) t .done, rest) := by
  simp only [quote, List.cons_append, List.append_assoc, List.nil_append]
  rw [scanMembers, skipSpace_cons (by decide)]
  simp only [scanText_quote, skipSpace_cons (c := ':') (by decide), h, skipSpace_cons (c := '}') (by decide)]

/-- A member of an object before others. -/
theorem scanMembers_cons (k : String) (h : scan fuel (v.chars ++ ',' :: more) = (t, ',' :: more))
    {members : Members} (hmembers : scanMembers fuel more = (members, rest)) :
    scanMembers (fuel + 1) (quote k ++ ':' :: v.chars ++ ',' :: more) =
      (.member (some k) t members, rest) := by
  simp only [quote, List.cons_append, List.append_assoc, List.nil_append]
  rw [scanMembers, skipSpace_cons (by decide)]
  simp only [scanText_quote, skipSpace_cons (c := ':') (by decide), h, skipSpace_cons (c := ',') (by decide),
    hmembers]

mutual

/-- A value is read back from the head of a text. Each container takes two calls more than what is inside, and
has two characters more. -/
theorem scan_chars (v : Value) {rest : List Char} (h : Ends rest) {fuel : Nat}
    (hfuel : 2 * v.chars.length ≤ fuel) : scan fuel (v.chars ++ rest) = (Tree.ofValue v, rest) := by
  obtain ⟨c, run, hchars, -⟩ := exists_chars v
  obtain ⟨fuel, rfl⟩ : ∃ k, fuel = k + 2 :=
    Nat.exists_eq_add_of_le' (by rw [hchars, List.length_cons] at hfuel; omega)
  -- one case for each constructor; the fuel is used up by the value's own characters
  match v with
  | .null => simp [Value.chars, scan, skipSpace, Tree.ofValue]
  | .bool true => simp [Value.chars, scan, skipSpace, Tree.ofValue]
  | .bool false => simp [Value.chars, scan, skipSpace, Tree.ofValue]
  | .number n => simpa [Value.chars, Tree.ofValue] using scan_number n h
  | .text s =>
    simp only [Value.chars, quote, List.cons_append, List.append_assoc, List.nil_append, Tree.ofValue]
    rw [scan, skipSpace_cons (by decide)]
    simp only [scanText_quote]
  | .array [] => simp [Value.chars, itemChars, scan, skipSpace, Tree.ofValue, Items.ofValues]
  | .array (v :: items) =>
    -- the opening bracket takes one character, and the items fit into the rest
    simp only [Value.chars, List.length_append, List.length_cons, List.length_nil] at hfuel
    have hitems : scanItems (fuel + 1) (itemChars (v :: items) ++ ']' :: rest) = _ :=
      scanItems_chars (v :: items) (by simp) (by omega)
    obtain ⟨c, run, hitem, hc⟩ := exists_itemChars v items
    simp only [Value.chars, List.cons_append, List.append_assoc, List.nil_append, Tree.ofValue]
    rw [hitem, List.cons_append] at hitems ⊢
    exact scan_array (fun hmem => hc (by simp_all)) hitems
  | .object [] => simp [Value.chars, memberChars, scan, skipSpace, Tree.ofValue, Members.ofFields]
  | .object ((k, v) :: members) =>
    simp only [Value.chars, List.length_append, List.length_cons, List.length_nil] at hfuel
    have hmembers : scanMembers (fuel + 1) (memberChars ((k, v) :: members) ++ '}' :: rest) = _ :=
      scanMembers_chars ((k, v) :: members) (by simp) (by omega)
    obtain ⟨run, hmember⟩ := exists_memberChars k v members
    simp only [Value.chars, List.cons_append, List.append_assoc, List.nil_append, Tree.ofValue]
    rw [hmember, List.cons_append] at hmembers ⊢
    exact scan_object hmembers

/-- Items are scanned up to the bracket that closes them. -/
theorem scanItems_chars (items : List Value) {rest : List Char} {fuel : Nat} (hne : items ≠ [])
    (hfuel : 2 * (itemChars items).length < fuel) :
    scanItems fuel (itemChars items ++ ']' :: rest) = (Items.ofValues items, rest) := by
  obtain ⟨fuel, rfl⟩ := Nat.exists_eq_succ_of_ne_zero (Nat.ne_zero_of_lt hfuel)
  match items with
  | [v] =>
    rw [itemChars] at hfuel ⊢
    exact scanItems_last (scan_chars v (by simp [Ends]) (by omega))
  | v :: w :: items =>
    rw [itemChars_cons v (by simp), List.length_append, List.length_cons] at hfuel
    have hitems : scanItems fuel (itemChars (w :: items) ++ ']' :: rest) = _ :=
      scanItems_chars (w :: items) (by simp) (by omega)
    rw [itemChars_cons v (by simp), List.append_assoc, List.cons_append]
    exact scanItems_cons (scan_chars v (by simp [Ends]) (by omega)) hitems

/-- Members are scanned up to the brace that closes them. -/
theorem scanMembers_chars (members : List (String × Value)) {rest : List Char} {fuel : Nat}
    (hne : members ≠ []) (hfuel : 2 * (memberChars members).length < fuel) :
    scanMembers fuel (memberChars members ++ '}' :: rest) = (Members.ofFields members, rest) := by
  obtain ⟨fuel, rfl⟩ := Nat.exists_eq_succ_of_ne_zero (Nat.ne_zero_of_lt hfuel)
  match members with
  | [(k, v)] =>
    rw [memberChars, List.length_append, List.length_cons] at hfuel
    rw [memberChars]
    exact scanMembers_last k (scan_chars v (by simp [Ends]) (by omega))
  | (k, v) :: w :: members =>
    rw [memberChars_cons k v (by simp), List.length_append, List.length_append, List.length_cons,
      List.length_cons] at hfuel
    have hmembers : scanMembers fuel (memberChars (w :: members) ++ '}' :: rest) = _ :=
      scanMembers_chars (w :: members) (by simp) (by omega)
    rw [memberChars_cons k v (by simp), List.append_assoc, List.cons_append]
    exact scanMembers_cons k (scan_chars v (by simp [Ends]) (by omega)) hmembers

end

/-- **A value is read back from its text**, with nothing left over. -/
theorem ofText_render (v : Value) : Tree.ofText v.render = (Tree.ofValue v, false) := by
  have hends : Ends [] := nofun
  have hscan : scan (2 * v.chars.length + 2) (v.chars ++ []) = (Tree.ofValue v, []) :=
    scan_chars v hends (by omega)
  rw [List.append_nil] at hscan
  simp only [Tree.ofText, Value.render, String.toList_ofList, hscan]
  rfl

end Occupancy.Json
