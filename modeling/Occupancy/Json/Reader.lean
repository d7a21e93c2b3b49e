import Occupancy.Json.Tree

/-!
# Reading values of known shapes

A reader takes a parse tree to a value of a given type or to the first fault met on the way. There
are two faults: `malformed`, where the text is not JSON, and `mismatch`, where it is JSON of the
wrong shape. Since readers walk the tree in the order of the text, a mismatch that stands before a
fault of grammar wins.

Records are objects whose unknown members are skipped, or arrays of the fields in order. A field
may be given once.
-/

namespace Occupancy.Json

/-- Why a text is not a value of the wanted type. -/
inductive Fault where
  | malformed
  | mismatch
deriving DecidableEq

/-- A reader of values of one type. -/
abbrev Reader (α : Type) :=
  Tree → Except Fault α

namespace Tree

/-- The fault of a tree of an unwanted kind. Scalars are read to their end before they are refused,
so their own faults come first. -/
def misfit : Tree → Fault
  | .broken => .malformed
  | .number n => if n.isHuge then .malformed else .mismatch
  | .text none => .malformed
  | _ => .mismatch

/-! ## Scalars -/

/-- A truth value. -/
def readBool : Reader Bool
  | .bool b => .ok b
  | t => .error t.misfit

def readText : Reader String
  | .text (some s) => .ok s
  | t => .error t.misfit

def readInteger {α : Type} (accept : Int → Option α) : Reader α
  | .number n =>
    match n.toInt?.bind accept with
    | some a => .ok a
    | none => .error (Tree.number n).misfit
  | t => .error t.misfit

/-- A signed 64-bit integer. -/
def readWord : Reader Word :=
  readInteger Decimal.word?

/-- An integer from zero to `limit`. -/
def readNat (limit : Nat) : Reader Nat :=
  readInteger fun i => if 0 ≤ i ∧ i ≤ limit then some i.toNat else none

/-- A string that `accept` takes. -/
def readAs {α : Type} (accept : String → Option α) : Reader α
  | .text (some s) =>
    match accept s with
    | some a => .ok a
    | none => .error .mismatch
  | t => .error t.misfit

/-- One of a set of names: a string, or an object with the name as its only key and null as its
value. -/
def readName {α : Type} (accept : String → Option α) : Reader α
  | .text (some s) =>
    match accept s with
    | some a => .ok a
    | none => .error .mismatch
  | .object (.member (some key) value rest) =>
    match accept key, value, rest with
    | none, _, _ => .error .mismatch
    | some a, .null, .done => .ok a
    | some _, .null, _ => .error .malformed
    | some _, v, _ => .error v.misfit
  | _ => .error .malformed

/-- A value, or null for none. -/
def readOption {α : Type} (read : Reader α) : Reader (Option α)
  | .null => .ok none
  | t => (read t).map some

/-! ## Sequences -/

def readItems {α : Type} (read : Reader α) : Items → Except Fault (List α)
  | .done => .ok []
  | .cut => .error .malformed
  | .item value rest => do
    let a ← read value
    let more ← readItems read rest
    .ok (a :: more)

def readList {α : Type} (read : Reader α) : Reader (List α)
  | .array items => readItems read items
  | t => .error t.misfit

end Tree

/-! ## Records -/

/-- A field of a record under construction, whose state is a `δ`. -/
structure Member (δ : Type) where
  /-- The key of the field. -/
  name : String
  /-- Has the field been given? -/
  isGiven : δ → Bool
  /-- Takes the value of the field. -/
  take : δ → Tree → Except Fault δ
  /-- May the field be left out at the end of an array? -/
  mayEnd : Bool := false

/-- A field that is read by `read` and kept by `keep`. -/
def Member.of {δ β : Type} (name : String) (read : Reader β) (given : δ → Option β)
    (keep : δ → β → δ) (mayEnd : Bool := false) : Member δ where
  name := name
  isGiven d := (given d).isSome
  take d t := (read t).map (keep d)
  mayEnd := mayEnd

/-- Reads the members of an object into a record. -/
def readMembers {δ : Type} (fields : List (Member δ)) : Members → δ → Except Fault δ
  | .done, d => .ok d
  | .cut, _ => .error .malformed
  | .member none _ _, _ => .error .malformed
  | .member (some key) value rest, d =>
    match fields.find? (·.name = key) with
    | none => if value.isWhole then readMembers fields rest d else .error .malformed
    | some f =>
      if f.isGiven d then .error .mismatch
      else
        match f.take d value with
        | .ok d => readMembers fields rest d
        | .error e => .error e

/-- Reads the items of an array into a record, field by field. -/
def readFields {δ : Type} : List (Member δ) → Items → δ → Except Fault δ
  | [], .done, d => .ok d
  | [], _, _ => .error .malformed
  | _ :: _, .cut, _ => .error .malformed
  | f :: rest, .done, d =>
    if f.mayEnd then readFields rest .done d else .error .mismatch
  | f :: rest, .item value items, d =>
    match f.take d value with
    | .ok d => readFields rest items d
    | .error e => .error e

/-- Reads a record: its members or fields into the state `empty`, which `finish` turns into the
record unless a field is missing. -/
def readRecord {δ α : Type} (fields : List (Member δ)) (empty : δ) (finish : δ → Option α) :
    Reader α
  | .object members => do
    let d ← readMembers fields members empty
    match finish d with
    | some a => .ok a
    | none => .error .mismatch
  | .array items => do
    let d ← readFields fields items empty
    match finish d with
    | some a => .ok a
    | none => .error .mismatch
  | t => .error t.misfit

/-- Reads a whole text. What follows the value is a fault of grammar. -/
def readText {α : Type} (read : Reader α) (s : String) : Except Fault α :=
  let (tree, trailing) := Tree.ofText s
  match read tree with
  | .error e => .error e
  | .ok a => if trailing then .error .malformed else .ok a

end Occupancy.Json
