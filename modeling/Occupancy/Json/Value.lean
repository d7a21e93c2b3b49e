import Occupancy.Text.Decimal

/-!
# JSON values and their compact text

Values as the server writes them. The text has no blanks; inside strings only the quote, the
backslash and the control characters are escaped, so all other characters stand for themselves.

Numbers keep the digits they were read with: an integer with its sign, or a decimal as digits times
a power of ten. The server itself writes integers only.
-/

namespace Occupancy.Json

/-- A number: a sign with a whole magnitude, or with digits and a power of ten. `-0` is an integer
of magnitude zero with a sign. -/
inductive Number where
  | whole (negative : Bool) (magnitude : Nat)
  | decimal (negative : Bool) (digits : Nat) (exponent : Int)
deriving DecidableEq

namespace Number

def ofInt (i : Int) : Number :=
  .whole (i < 0) i.natAbs

/-- The integer that a number was written as. A negative zero is not one. -/
def toInt? : Number → Option Int
  | .whole false n => some n
  | .whole true 0 => none
  | .whole true n => some (-(n : Int))
  | .decimal _ _ _ => none

/-- The least magnitude that rounds beyond the finite doubles. -/
def bound : Nat :=
  Nat.pow 2 1024 - Nat.pow 2 970

/-- Is the number beyond the range of doubles? Far from the bound the count of digits decides, so
that no power of a huge exponent is ever formed. -/
def isHuge : Number → Bool
  | .whole _ n => bound ≤ n
  | .decimal _ n e =>
    let places : Int := (Decimal.digits n).length + e
    if n = 0 ∨ places < 300 then false
    else if 320 < places then true
    else if 0 ≤ e then bound ≤ n * Nat.pow 10 e.toNat
    else bound * Nat.pow 10 (-e).toNat ≤ n

def chars : Number → List Char
  | .whole negative n => (if negative then ['-'] else []) ++ Decimal.digits n
  | .decimal negative n e =>
    (if negative then ['-'] else []) ++ Decimal.digits n ++ 'e' :: Decimal.chars e

end Number

/-- A JSON value. The members of an object keep the order they are written in. -/
inductive Value where
  | null
  | bool (b : Bool)
  | number (n : Number)
  | text (s : String)
  | array (items : List Value)
  | object (members : List (String × Value))

namespace Value

def word (w : Word) : Value :=
  .number (.ofInt w.toInt)

def natural (n : Nat) : Value :=
  .number (.ofInt n)

/-- The value of something that may be absent. -/
def option {α : Type} (f : α → Value) : Option α → Value
  | none => .null
  | some a => f a

end Value

/-! ## Text -/

/-- A lowercase hexadecimal digit. -/
def hexDigit (n : Nat) : Char :=
  if n < 10 then Char.ofNat ('0'.toNat + n) else Char.ofNat ('a'.toNat + n - 10)

/-- A character inside a string. -/
def escapeChar (c : Char) : List Char :=
  if c = '"' then ['\\', '"']
  else if c = '\\' then ['\\', '\\']
  else if c = '\x08' then ['\\', 'b']
  else if c = '\x0c' then ['\\', 'f']
  else if c = '\n' then ['\\', 'n']
  else if c = '\r' then ['\\', 'r']
  else if c = '\t' then ['\\', 't']
  else if c.toNat < 32 then
    ['\\', 'u', '0', '0', hexDigit (c.toNat / 16), hexDigit (c.toNat % 16)]
  else [c]

def quote (s : String) : List Char :=
  '"' :: s.toList.flatMap escapeChar ++ ['"']

mutual

def Value.chars : Value → List Char
  | .null => ['n', 'u', 'l', 'l']
  | .bool true => ['t', 'r', 'u', 'e']
  | .bool false => ['f', 'a', 'l', 's', 'e']
  | .number n => n.chars
  | .text s => quote s
  | .array items => '[' :: itemChars items ++ [']']
  | .object members => '{' :: memberChars members ++ ['}']

/-- The text of the items of an array, with commas between them. -/
def itemChars : List Value → List Char
  | [] => []
  | [v] => v.chars
  | v :: rest => v.chars ++ ',' :: itemChars rest

/-- The text of the members of an object, with commas between them. -/
def memberChars : List (String × Value) → List Char
  | [] => []
  | [(k, v)] => quote k ++ ':' :: v.chars
  | (k, v) :: rest => quote k ++ ':' :: v.chars ++ ',' :: memberChars rest

end

/-- The compact text of a value. -/
def Value.render (v : Value) : String :=
  String.ofList v.chars

end Occupancy.Json
