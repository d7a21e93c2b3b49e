/-!
# Certificates and keys in text form

A PEM text holds sections between lines that begin and end them; all other lines are passed over. The
lines of a section are octets in base64. A server needs a text with certificates and one with exactly
one private key.
-/

namespace Occupancy.Host.Pem

/-! ## Base64 -/

/-- The six bits of a character. -/
def sextet? (c : Char) : Option Nat :=
  let n := c.toNat
  if 65 ≤ n ∧ n ≤ 90 then some (n - 65)
  else if 97 ≤ n ∧ n ≤ 122 then some (n - 97 + 26)
  else if 48 ≤ n ∧ n ≤ 57 then some (n - 48 + 52)
  else if c = '+' then some 62
  else if c = '/' then some 63
  else none

/-- Octets read so far, in reverse, and the bits that do not fill an octet yet, with their number. -/
structure Bits where
  octets : List Nat := []
  value : Nat := 0
  count : Nat := 0

/-- The octets with six more bits. -/
def Bits.add (b : Bits) (sextet : Nat) : Bits :=
  let value := b.value * 64 + sextet
  let count := b.count + 6
  if 8 ≤ count then
    ⟨value >>> (count - 8) :: b.octets, value % (1 <<< (count - 8)), count - 8⟩
  else ⟨b.octets, value, count⟩

/-- The octets of a text in base64. It is padded to groups of four, and the bits that the padding cuts
off are zero. -/
def decode? (cs : List Char) : Option (List Nat) := do
  let padding := (cs.reverse.takeWhile (· = '=')).length
  let body := cs.take (cs.length - padding)
  let sextets ← body.mapM sextet?
  let bits := sextets.foldl Bits.add {}
  if padding ≤ 2 ∧ cs.length % 4 = 0 ∧ bits.value = 0 ∧ bits.count < 6 then
    some bits.octets.reverse
  else none

/-! ## Sections -/

/-- A section that was read to its end. -/
structure Section where
  label : List Char
  /-- The octets, if the text is base64. -/
  octets : Option (List Nat)

/-- The reading of the lines: the section under way with its text so far, and whether a fault of form
was met. -/
structure Progress where
  label : Option (List Char) := none
  text : List Char := []
  /-- The sections and faults so far, in reverse; a fault is none. -/
  found : List (Option Section) := []

/-- What begins the line before a section. -/
def beginMark : List Char :=
  "-----BEGIN ".toList

/-- The line that ends a section. -/
def endMark (label : List Char) : List Char :=
  "-----END ".toList ++ label ++ "-----".toList

/-- The text without blanks and line ends after it. -/
def trimEnd (cs : List Char) : List Char :=
  (cs.reverse.dropWhile fun c => c = ' ' ∨ c = '\n' ∨ c = '\r').reverse

/-- The label of a line that begins a section, if five hyphens follow it. -/
def label? (line : List Char) : Option (List Char) :=
  let rest := ((trimEnd line).drop beginMark.length).reverse
  if (rest.takeWhile (· = '-')).length = 5 then some (rest.drop 5).reverse else none

def Progress.read (p : Progress) (line : List Char) : Progress :=
  if beginMark.isPrefixOf line then
    match label? line with
    | some label => { p with label := some label }
    | none => { p with label := none, text := [], found := none :: p.found }
  else
    match p.label with
    | none => p
    | some label =>
      if (endMark label).isPrefixOf line then
        { p with label := none, text := [], found := some ⟨label, decode? p.text⟩ :: p.found }
      else { p with text := p.text ++ trimEnd line }

/-- The sections of a text in order, with none for each fault of form. -/
def sections (s : String) : List (Option Section) :=
  let lines := (s.toList.map fun c => if c = '\r' then '\n' else c).splitOn '\n'
  let p := lines.foldl Progress.read {}
  (if p.label.isSome then none :: p.found else p.found).reverse

/-! ## Identities -/

/-- Are these octets one structure of sequence type, as certificates and keys are? -/
def isSequence : List Nat → Bool
  | 48 :: n :: rest =>
    if n < 128 then rest.length = n
    else
      let width := n - 128
      width ≠ 0 && (rest.drop width).length = (rest.take width).foldl (fun a b => 256 * a + b) 0
  | _ => false

/-- Does the text hold certificates, and no fault before its end? -/
def holdsCertificates (s : String) : Bool :=
  let all := sections s
  let certificates := all.filterMap fun
    | some section_ => if section_.label = "CERTIFICATE".toList then some section_ else none
    | none => none
  all.all (fun
    | some section_ => section_.octets.isSome
    | none => false) && !certificates.isEmpty &&
    certificates.all fun c => (c.octets.map isSequence).getD false

def keyLabels : List (List Char) :=
  ["PRIVATE KEY".toList, "RSA PRIVATE KEY".toList, "EC PRIVATE KEY".toList]

/-- Does the text hold exactly one private key? -/
def holdsKey (s : String) : Bool :=
  let keys := (sections s).filterMap fun
    | some section_ => if keyLabels.contains section_.label then section_.octets else none
    | none => none
  match keys with
  | [key] => isSequence key
  | _ => false

end Occupancy.Host.Pem
