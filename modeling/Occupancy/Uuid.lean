import Occupancy.Json.Tree

/-!
# Session identifiers

Identifiers of 128 bits. They are written as 32 lowercase hexadecimal digits in groups of 8, 4, 4, 4
and 12; read forms may also leave out the hyphens, stand in braces or after `urn:uuid:`, and use
uppercase digits.
-/

namespace Occupancy

/-- An identifier of 128 bits. -/
structure Uuid where
  value : BitVec 128
deriving DecidableEq

namespace Uuid

/-- The identifier with a given number. -/
def ofNat (n : Nat) : Uuid :=
  ⟨BitVec.ofNat 128 n⟩

/-- The number of an identifier. -/
def toNat (u : Uuid) : Nat :=
  u.value.toNat

/-- The last `width` hexadecimal digits of a number. -/
def hex : Nat → Nat → List Char
  | 0, _ => []
  | width + 1, n => hex width (n / 16) ++ [Json.hexDigit (n % 16)]

/-- The written form of an identifier. -/
def chars (u : Uuid) : List Char :=
  let n := u.toNat
  hex 8 (n >>> 96) ++ '-' :: hex 4 (n >>> 80) ++ '-' :: hex 4 (n >>> 64) ++
    '-' :: hex 4 (n >>> 48) ++ '-' :: hex 12 n

/-- The written form of an identifier, as text. -/
def text (u : Uuid) : String :=
  String.ofList u.chars

/-- The number written by hexadecimal digits, continuing from `acc`. -/
def ofHex? : Nat → List Char → Option Nat
  | acc, [] => some acc
  | acc, c :: rest => (Json.hexValue? c).bind fun d => ofHex? (16 * acc + d) rest

def readPlain? (cs : List Char) : Option Uuid :=
  if cs.length = 32 then (ofHex? 0 cs).map ofNat else none

/-- Reads 32 digits with hyphens after the 8th, 12th, 16th and 20th. -/
def readGrouped? (cs : List Char) : Option Uuid :=
  if cs.length = 36 ∧ cs[8]? = some '-' ∧ cs[13]? = some '-' ∧ cs[18]? = some '-' ∧
      cs[23]? = some '-' then
    readPlain? (cs.take 8 ++ (cs.drop 9).take 4 ++ (cs.drop 14).take 4 ++ (cs.drop 19).take 4 ++
      cs.drop 24)
  else none

/-- What stands before the identifier in its name form. -/
def scheme : List Char :=
  ['u', 'r', 'n', ':', 'u', 'u', 'i', 'd', ':']

/-- Reads an identifier in any of its forms. -/
def read? (s : String) : Option Uuid :=
  let cs := s.toList
  if cs.length = 32 then readPlain? cs
  else if cs.length = 36 then readGrouped? cs
  else if cs.length = 38 ∧ cs.head? = some '{' ∧ cs.getLast? = some '}' then
    readGrouped? ((cs.drop 1).take 36)
  else if cs.length = 45 ∧ cs.take 9 = scheme then readGrouped? (cs.drop 9)
  else none

end Uuid

end Occupancy
