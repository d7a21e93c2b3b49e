import Occupancy.Http.ViewerQuery

/-!
# Addresses of Redis servers

An address names a server by host and port, or by the path of a socket. Addresses are URLs; one that
cannot be used is refused before anything is dialled.
-/

namespace Occupancy.Redis

inductive Address where
  | host (name : String) (port : Nat)
  | socket (path : String)
deriving DecidableEq

namespace Address

/-- A URL taken apart. The authority is what stands between two slashes and the path. -/
structure Parts where
  scheme : String
  authority : Option (List Char)
  path : List Char
  query : List Char

/-- May a scheme hold this character after its first letter? -/
def isSchemeChar (c : Char) : Bool :=
  Http.Target.isSchemeChar c

/-- The text without the blanks and control characters around it, and without line breaks and tabs
inside. -/
def trimmed (s : String) : List Char :=
  let isOuter (c : Char) : Bool := c.toNat ≤ 32
  let cs := ((s.toList.dropWhile isOuter).reverse.dropWhile isOuter).reverse
  cs.filter fun c => c ≠ '\n' ∧ c ≠ '\r' ∧ c ≠ '\t'

/-- Takes a URL apart. -/
def parts? (s : String) : Option Parts :=
  let cs := trimmed s
  let scheme := cs.takeWhile isSchemeChar
  match scheme.head?, cs.drop scheme.length with
  | some first, ':' :: rest =>
    if !first.isAlpha then none
    else
      let visible := rest.takeWhile (· ≠ '#')
      let hier := visible.takeWhile (· ≠ '?')
      let query := (visible.drop hier.length).drop 1
      let name := String.ofList (scheme.map Char.toLower)
      match hier with
      | '/' :: '/' :: more =>
        let authority := more.takeWhile (· ≠ '/')
        some ⟨name, some authority, more.drop authority.length, query⟩
      | path => some ⟨name, none, path, query⟩
  | _, _ => none

/-- The host and the port of an authority, without the user before the last at sign. A host may not
hold the characters that delimit the other parts. -/
def hostPort? (authority : List Char) : Option (List Char × Option Nat) := do
  let userEnd := (authority.reverse.takeWhile (· ≠ '@')).reverse
  let hasUser := authority.contains '@'
  let (name, rest) ← match userEnd with
    | '[' :: more =>
      let inner := more.takeWhile (· ≠ ']')
      if inner = [] ∨ inner.length = more.length then none
      else some ('[' :: inner ++ [']'], more.drop (inner.length + 1))
    | cs =>
      let name := cs.takeWhile (· ≠ ':')
      if name.any fun c => " \x00<>?[\\]^|".contains c then none
      else some (name, cs.drop name.length)
  let port ← match rest with
    | [] => some none
    | [':'] => some none
    | ':' :: digits => do
      let n ← Decimal.natural? digits
      if n ≤ 65535 then some (some n) else none
    | _ => none
  if name = [] ∧ (hasUser ∨ port.isSome) then none else some (name, port)

def queryValue? (query : List Char) (key : String) : Option (List Char) :=
  let pairs := (Http.Target.pieces '&' query).filter (· ≠ []) |>.map Http.ViewerQuery.keyValue
  (pairs.reverse.find? (·.1 = key)).map Prod.snd

/-- Is the text the number of a database? -/
def isDatabase (cs : List Char) : Bool :=
  ((Decimal.integer? cs).bind Decimal.word?).isSome

/-- Does the query name a version of the protocol that there is, or none? -/
def hasKnownVersion (query : List Char) : Bool :=
  match queryValue? query "protocol" with
  | none => true
  | some v => ["2", "resp2", "3", "resp3"].contains (String.ofList v)

def usualPort : Nat :=
  6379

/-- The address of a server that is named by its host. The path may number a database. -/
def ofHost? (p : Parts) : Option Address := do
  let (name, port) ← hostPort? (p.authority.getD [])
  let database := ((p.path.dropWhile (· = '/')).reverse.dropWhile (· = '/')).reverse
  if name = [] ∨ (database ≠ [] ∧ !isDatabase database) ∨ !hasKnownVersion p.query then none
  else some (.host (String.ofList name) (port.getD usualPort))

/-- The address of a server that is named by a socket. -/
def ofSocket? (p : Parts) : Option Address := do
  let name ← match p.authority with
    | none => some []
    | some authority => (hostPort? authority).map Prod.fst
  let isLocal := name = [] ∨ name.map Char.toLower = "localhost".toList
  let hasDatabase := ((queryValue? p.query "db").map isDatabase).getD true
  if !isLocal ∨ p.path.head? ≠ some '/' ∨ !hasDatabase ∨ !hasKnownVersion p.query then none
  else some (.socket (String.ofList (Http.Target.unescape p.path)))

def ofUrl? (s : String) : Option Address := do
  let p ← parts? s
  if ["redis", "valkey"].contains p.scheme then ofHost? p
  else if ["unix", "redis+unix", "valkey+unix"].contains p.scheme then ofSocket? p
  else none

end Address

end Occupancy.Redis
