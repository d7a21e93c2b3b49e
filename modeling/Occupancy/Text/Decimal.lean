/-!
# Decimal numerals

Whole numbers as they stand in topic names, messages and JSON: the shortest run of ASCII digits,
after a minus sign when negative. Reading is laxer than writing: one leading sign of either kind and
any number of leading zeros are accepted, as long as the value fits the wanted range.
-/

namespace Occupancy

/-- Values of 64-bit signed words: identifiers, seconds and amounts. -/
abbrev Word := Int64

namespace Decimal

/-! ## Writing -/

/-- The digits of a natural number, most significant first, without leading zeros. -/
def digits (n : Nat) : List Char :=
  Nat.toDigits 10 n

/-- The numeral of an integer. -/
def chars (i : Int) : List Char :=
  if i < 0 then '-' :: digits i.natAbs else digits i.natAbs

/-- The numeral of an integer, as text. -/
def text (i : Int) : String :=
  String.ofList (chars i)

def word (w : Word) : String :=
  text w.toInt

/-- The digits of `n`, padded on the left with zeros to at least `width` places. -/
def padded (width n : Nat) : List Char :=
  List.replicate (width - (digits n).length) '0' ++ digits n

/-! ## Reading -/

/-- Is this one of the ten ASCII digits? -/
def isDigit (c : Char) : Bool :=
  '0' ≤ c && c ≤ '9'

def digitValue (c : Char) : Nat :=
  c.toNat - '0'.toNat

/-- The value of a run of digits, most significant first. -/
def value (cs : List Char) : Nat :=
  cs.foldl (fun n c => 10 * n + digitValue c) 0

/-- Reads a nonempty run of digits that fills the whole text. -/
def natural? (cs : List Char) : Option Nat :=
  if cs ≠ [] ∧ cs.all isDigit then some (value cs) else none

/-- Reads a numeral with at most one sign. -/
def integer? : List Char → Option Int
  | '-' :: cs => (natural? cs).map fun n => -(n : Int)
  | '+' :: cs => (natural? cs).map fun n => (n : Int)
  | cs => (natural? cs).map fun n => (n : Int)

/-- Does an integer fit a signed 64-bit word? -/
def FitsWord (i : Int) : Prop :=
  -9223372036854775808 ≤ i ∧ i < 9223372036854775808

instance (i : Int) : Decidable (FitsWord i) :=
  inferInstanceAs (Decidable (_ ∧ _))

def word? (i : Int) : Option Word :=
  if FitsWord i then some (Int64.ofInt i) else none

/-- Reads a signed 64-bit numeral that fills the whole text. -/
def readWord? (s : String) : Option Word :=
  (integer? s.toList).bind word?

/-- Reads an unsigned numeral up to `limit` that fills the whole text; a plus sign may lead it. -/
def readNat? (limit : Nat) (s : String) : Option Nat :=
  let digits? := match s.toList with
    | '+' :: cs => natural? cs
    | cs => natural? cs
  digits?.bind fun n => if n ≤ limit then some n else none

end Decimal

end Occupancy
