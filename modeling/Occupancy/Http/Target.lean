import Occupancy.Json.Tree

/-!
# Request targets

The target of a request, taken apart into path and query. Only characters that a target may hold are
accepted; a fragment is cut off. Escapes are resolved piece by piece afterwards, once the pieces are
known.
-/

namespace Occupancy.Http

structure Target where
  path : List Char
  query : Option (List Char)
deriving DecidableEq

namespace Target

/-! ## Characters -/

/-- May a path hold this character? -/
def isPathChar (c : Char) : Bool :=
  let n := c.toNat
  n == 0x21 || n == 0x22 || (0x24 ≤ n && n ≤ 0x3B) || n == 0x3D || (0x40 ≤ n && n ≤ 0x5F) ||
    (0x61 ≤ n && n ≤ 0x7E) || 0x7F ≤ n

/-- May a query hold this character? -/
def isQueryChar (c : Char) : Bool :=
  let n := c.toNat
  n == 0x21 || (0x24 ≤ n && n ≤ 0x3B) || n == 0x3D || (0x3F ≤ n && n ≤ 0x7E) || 0x7F ≤ n

/-- May a host with its port hold this character? -/
def isHostChar (c : Char) : Bool :=
  c.isAlphanum || "-._~!$&'()*+,;=:@[]%".contains c

/-- May a scheme hold this character? -/
def isSchemeChar (c : Char) : Bool :=
  c.isAlphanum || c == '+' || c == '-' || c == '.'

/-! ## Taking a target apart -/

/-- Path and query of a text that starts with its path. -/
def ofPath? (cs : List Char) : Option Target :=
  let visible := cs.takeWhile (· ≠ '#')
  let path := visible.takeWhile (· ≠ '?')
  if path.all isPathChar then
    match visible.drop path.length with
    | [] => some ⟨path, none⟩
    | _ :: query => if query.all isQueryChar then some ⟨path, some query⟩ else none
  else none

/-- A target that starts with a host: the path follows it. -/
def ofHost? (cs : List Char) : Option Target :=
  let stops (c : Char) : Bool := c == '/' || c == '?' || c == '#'
  let host := cs.takeWhile fun c => !stops c
  if host = [] ∨ !host.all isHostChar then none
  else
    match cs.drop host.length with
    | '/' :: rest => ofPath? ('/' :: rest)
    | rest => (ofPath? rest).map fun t => { t with path := '/' :: t.path }

def maxLength : Nat :=
  65534

/-- Reads a target: a path with a query, or a host with or without a scheme before it. -/
def read? (s : String) : Option Target :=
  let cs := s.toList
  if cs = [] ∨ s.utf8ByteSize > maxLength then none
  else
    match cs with
    | '/' :: _ => ofPath? cs
    | ['*'] => some ⟨['*'], none⟩
    | _ =>
      let scheme := cs.takeWhile isSchemeChar
      match cs.drop scheme.length with
      | ':' :: '/' :: '/' :: rest => if scheme = [] then none else ofHost? rest
      | _ => if cs.all isHostChar then some ⟨[], none⟩ else none

/-! ## Pieces -/

/-- Resolves `%` followed by two hexadecimal digits to the octet with that number, which stands for
itself as a character. -/
def unescape : List Char → List Char
  | '%' :: a :: b :: rest =>
    match Json.hexValue? a, Json.hexValue? b with
    | some hi, some lo => Char.ofNat (16 * hi + lo) :: unescape rest
    | _, _ => '%' :: unescape (a :: b :: rest)
  | c :: rest => c :: unescape rest
  | [] => []
termination_by cs => cs.length

/-- The pieces of a text between the characters `mark`. -/
def pieces (mark : Char) : List Char → List (List Char)
  | [] => [[]]
  | c :: rest =>
    if c = mark then [] :: pieces mark rest
    else
      match pieces mark rest with
      | [] => [[c]]
      | p :: ps => (c :: p) :: ps

/-- The segments of a path after its leading slash. -/
def segments (t : Target) : List (List Char) :=
  match t.path with
  | '/' :: rest => pieces '/' rest
  | _ => []

/-- The number that an escaped piece stands for. -/
def readId? (cs : List Char) : Option Word :=
  (Decimal.integer? (unescape cs)).bind Decimal.word?

end Target

end Occupancy.Http
