import Occupancy.Json.Value

/-!
# Parse trees of JSON texts

A `Tree` is what a JSON text says, read from left to right, up to the first place where the text
stops being JSON: there the tree holds `broken`, or a sequence ends in `cut`. A reader that walks the
tree in order therefore meets the faults of a text in the order in which they stand in it, whether
they are faults of grammar or values of the wrong kind.

Strings whose escapes leave half of a surrogate pair are grammatical but have no text.
-/

namespace Occupancy.Json

mutual

/-- A JSON text, as far as it is one. -/
inductive Tree where
  | null
  | bool (b : Bool)
  | number (n : Number)
  | text (s : Option String)
  | array (items : Items)
  | object (members : Members)
  | broken

/-- The items of an array: closed, cut off by a fault, or one more item. -/
inductive Items where
  | done
  | cut
  | item (value : Tree) (rest : Items)

/-- The members of an object: closed, cut off by a fault, or one more member. -/
inductive Members where
  | done
  | cut
  | member (key : Option String) (value : Tree) (rest : Members)

end

/-! ## Lexemes -/

/-- The text without its leading white space; JSON knows four such characters. -/
def skipSpace (cs : List Char) : List Char :=
  cs.dropWhile fun c => c == ' ' || c == '\n' || c == '\t' || c == '\r'

/-- The value of a hexadecimal digit of either case. -/
def hexValue? (c : Char) : Option Nat :=
  if '0' ≤ c ∧ c ≤ '9' then some (c.toNat - '0'.toNat)
  else if 'a' ≤ c ∧ c ≤ 'f' then some (c.toNat - 'a'.toNat + 10)
  else if 'A' ≤ c ∧ c ≤ 'F' then some (c.toNat - 'A'.toNat + 10)
  else none

/-- A piece of a string: a character, or a code unit given by an escape. -/
inductive Piece where
  | char (c : Char)
  | unit (n : Nat)

/-- The character of a one-letter escape. -/
def escaped? (c : Char) : Option Char :=
  if c = '"' ∨ c = '\\' ∨ c = '/' then some c
  else if c = 'b' then some '\x08'
  else if c = 'f' then some '\x0c'
  else if c = 'n' then some '\n'
  else if c = 'r' then some '\r'
  else if c = 't' then some '\t'
  else none

/-- The pieces of a string whose opening quote is read, and what follows its closing quote. -/
def scanPieces : List Char → Option (List Piece × List Char)
  | [] => none
  | '"' :: rest => some ([], rest)
  | '\\' :: 'u' :: a :: b :: c :: d :: rest => do
    let n := 4096 * (← hexValue? a) + 256 * (← hexValue? b) + 16 * (← hexValue? c) + (← hexValue? d)
    let (pieces, more) ← scanPieces rest
    some (.unit n :: pieces, more)
  | '\\' :: e :: rest => do
    let c ← escaped? e
    let (pieces, more) ← scanPieces rest
    some (.char c :: pieces, more)
  | c :: rest =>
    if c = '\\' ∨ c.toNat < 32 then none
    else do
      let (pieces, more) ← scanPieces rest
      some (.char c :: pieces, more)

/-- The characters that pieces stand for: two code units of a surrogate pair are one character, and
half a pair is none. -/
def joinPieces : List Piece → Option (List Char)
  | [] => some []
  | .char c :: rest => (joinPieces rest).map (c :: ·)
  | .unit hi :: .unit lo :: rest =>
    if 0xD800 ≤ hi ∧ hi ≤ 0xDBFF then
      if 0xDC00 ≤ lo ∧ lo ≤ 0xDFFF then
        (joinPieces rest).map (Char.ofNat (0x10000 + (hi - 0xD800) * 0x400 + (lo - 0xDC00)) :: ·)
      else none
    else if 0xDC00 ≤ hi ∧ hi ≤ 0xDFFF then none
    else (joinPieces (.unit lo :: rest)).map (Char.ofNat hi :: ·)
  | .unit n :: rest =>
    if 0xD800 ≤ n ∧ n ≤ 0xDFFF then none else (joinPieces rest).map (Char.ofNat n :: ·)

/-- A string whose opening quote is read, and what follows it. -/
def scanText (cs : List Char) : Option (Option String × List Char) :=
  (scanPieces cs).map fun (pieces, rest) => ((joinPieces pieces).map String.ofList, rest)

/-- The digits at the head of a text, and what follows them. -/
def spanDigits (cs : List Char) : List Char × List Char :=
  (cs.takeWhile Decimal.isDigit, cs.dropWhile Decimal.isDigit)

/-- The exponent at the head of a text, if the text is well-formed there. -/
def scanExponent (cs : List Char) : Option (Option Int × List Char) :=
  let signed (sign : Int) (cs : List Char) : Option (Option Int × List Char) :=
    let (run, rest) := spanDigits cs
    if run = [] then none else some (some (sign * Decimal.value run), rest)
  match cs with
  | c :: rest =>
    if c = 'e' ∨ c = 'E' then
      match rest with
      | '+' :: more => signed 1 more
      | '-' :: more => signed (-1) more
      | more => signed 1 more
    else some (none, cs)
  | [] => some (none, [])

/-- The digits of a fraction at the head of a text, if the text is well-formed there. -/
def scanFraction (cs : List Char) : Option (Option (List Char) × List Char) :=
  match cs with
  | '.' :: rest =>
    let (run, more) := spanDigits rest
    if run = [] then none else some (some run, more)
  | _ => some (none, cs)

/-- A number without its sign, and what follows it. -/
def scanMagnitude (negative : Bool) (cs : List Char) : Option (Number × List Char) := do
  let (run, rest) := spanDigits cs
  if run = [] ∨ (run.head? = some '0' ∧ run.length ≠ 1) then none
  else
    let (fraction, rest) ← scanFraction rest
    let (exponent, rest) ← scanExponent rest
    match fraction, exponent with
    | none, none => some (.whole negative (Decimal.value run), rest)
    | _, _ =>
      let tail := fraction.getD []
      some (.decimal negative (Decimal.value (run ++ tail)) (exponent.getD 0 - tail.length), rest)

def scanNumber : List Char → Option (Number × List Char)
  | '-' :: cs => scanMagnitude true cs
  | cs => scanMagnitude false cs

/-! ## Trees -/

mutual

/-- The tree at the head of a text, and what follows it. The first argument bounds the depth of the
calls; twice the length of the text suffices. -/
def scan : Nat → List Char → Tree × List Char
  | 0, _ => (.broken, [])
  | fuel + 1, cs =>
    match skipSpace cs with
    | 'n' :: 'u' :: 'l' :: 'l' :: rest => (.null, rest)
    | 't' :: 'r' :: 'u' :: 'e' :: rest => (.bool true, rest)
    | 'f' :: 'a' :: 'l' :: 's' :: 'e' :: rest => (.bool false, rest)
    | '"' :: rest =>
      match scanText rest with
      | some (s, more) => (.text s, more)
      | none => (.broken, [])
    | '[' :: rest =>
      match skipSpace rest with
      | ']' :: more => (.array .done, more)
      | more => let (items, end_) := scanItems fuel more; (.array items, end_)
    | '{' :: rest =>
      match skipSpace rest with
      | '}' :: more => (.object .done, more)
      | more => let (members, end_) := scanMembers fuel more; (.object members, end_)
    | more =>
      match scanNumber more with
      | some (n, rest) => (.number n, rest)
      | none => (.broken, [])

/-- The items of an array from one of them on, and what follows the array. -/
def scanItems : Nat → List Char → Items × List Char
  | 0, _ => (.cut, [])
  | fuel + 1, cs =>
    match skipSpace cs with
    | ']' :: _ => (.cut, [])
    | [] => (.cut, [])
    | more =>
      let (value, rest) := scan fuel more
      match skipSpace rest with
      | ']' :: more => (.item value .done, more)
      | ',' :: more => let (items, end_) := scanItems fuel more; (.item value items, end_)
      | _ => (.item value .cut, [])

/-- The members of an object from one of them on, and what follows the object. -/
def scanMembers : Nat → List Char → Members × List Char
  | 0, _ => (.cut, [])
  | fuel + 1, cs =>
    match skipSpace cs with
    | '"' :: rest =>
      match scanText rest with
      | none => (.cut, [])
      | some (key, rest) =>
        match skipSpace rest with
        | ':' :: rest =>
          let (value, rest) := scan fuel rest
          match skipSpace rest with
          | '}' :: more => (.member key value .done, more)
          | ',' :: more => let (members, end_) := scanMembers fuel more; (.member key value members, end_)
          | _ => (.member key value .cut, [])
        | _ => (.member key .broken .cut, [])
    | _ => (.cut, [])

end

/-- The tree of a whole text, and whether anything but white space follows it. -/
def Tree.ofText (s : String) : Tree × Bool :=
  let cs := s.toList
  let (tree, rest) := scan (2 * cs.length + 2) cs
  (tree, skipSpace rest ≠ [])

/-! ## Grammar alone -/

mutual

/-- Does the tree hold no fault of grammar? -/
def Tree.isWhole : Tree → Bool
  | .null => true
  | .bool _ => true
  | .number _ => true
  | .text _ => true
  | .array items => items.isWhole
  | .object members => members.isWhole
  | .broken => false

/-- Do the items hold no fault of grammar? -/
def Items.isWhole : Items → Bool
  | .done => true
  | .cut => false
  | .item value rest => value.isWhole && rest.isWhole

/-- Do the members hold no fault of grammar? -/
def Members.isWhole : Members → Bool
  | .done => true
  | .cut => false
  | .member _ value rest => value.isWhole && rest.isWhole

end

/-! ## Values of any shape -/

mutual

/-- The value of a tree without faults, at most `depth` containers deep, whose strings have a text
and whose numbers are finite doubles. -/
def Tree.toValue? : Tree → Nat → Option Value
  | .null, _ => some .null
  | .bool b, _ => some (.bool b)
  | .number n, _ => if n.isHuge then none else some (.number n)
  | .text s, _ => s.map .text
  | .array items, depth =>
    if depth = 0 then none else (items.toValues? (depth - 1)).map .array
  | .object members, depth =>
    if depth = 0 then none else (members.toFields? (depth - 1)).map .object
  | .broken, _ => none

def Items.toValues? : Items → Nat → Option (List Value)
  | .done, _ => some []
  | .cut, _ => none
  | .item value rest, depth => do
    let v ← value.toValue? depth
    let vs ← rest.toValues? depth
    some (v :: vs)

def Members.toFields? : Members → Nat → Option (List (String × Value))
  | .done, _ => some []
  | .cut, _ => none
  | .member key value rest, depth => do
    let k ← key
    let v ← value.toValue? depth
    let vs ← rest.toFields? depth
    some ((k, v) :: vs)

end

/-- The deepest nesting that a value of any shape may have. -/
def maxDepth : Nat :=
  127

/-- The value of a whole text, if it is JSON with nothing after it. -/
def Value.ofText? (s : String) : Option Value :=
  match Tree.ofText s with
  | (tree, false) => tree.toValue? maxDepth
  | (_, true) => none

end Occupancy.Json
