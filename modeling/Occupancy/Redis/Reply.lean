import Occupancy.Text.Decimal

/-!
# Replies of a Redis server

The replies that the server gives to commands, and what can be read out of them: a text, an integer,
or the entries of streams. Texts and integers are read leniently, as the server may give either form.
-/

namespace Occupancy.Redis

/-- A reply. -/
inductive Reply where
  /-- A text of any length. -/
  | bulk (s : String)
  /-- A short status text. -/
  | status (s : String)
  | integer (i : Int)
  /-- No value, as a text or as an array. -/
  | nothing
  | items (replies : List Reply)
  /-- An error: a code, and words about it after a blank. -/
  | failure (text : String)

namespace Reply

/-- The code of an error text: its first word. -/
def code (text : String) : String :=
  String.ofList (text.toList.takeWhile (· ≠ ' '))

mutual

/-- The first error within a reply. -/
def firstFailure : Reply → Option String
  | .failure text => some text
  | .items replies => firstFailureOf replies
  | _ => none

/-- The first error within several replies. -/
def firstFailureOf : List Reply → Option String
  | [] => none
  | r :: rest =>
    match r.firstFailure with
    | some text => some text
    | none => firstFailureOf rest

end

def text? : Reply → Option String
  | .bulk s => some s
  | .status s => some s
  | .integer i => some (Decimal.text i)
  | _ => none

def integer? : Reply → Option Int
  | .integer i => some i
  | .bulk s => (Decimal.readWord? s).map (·.toInt)
  | .status s => (Decimal.readWord? s).map (·.toInt)
  | _ => none

/-! ## Streams -/

/-- An array as pairs of keys and values, or nothing as no pairs. -/
def pairs? : Reply → Option (List (String × Reply))
  | .nothing => some []
  | .items replies => pairsOf replies
  | _ => none
where
  /-- Items two by two. -/
  pairsOf : List Reply → Option (List (String × Reply))
    | [] => some []
    | [_] => none
    | k :: v :: rest => do
      let key ← k.text?
      let more ← pairsOf rest
      some ((key, v) :: more)

/-- An array as a list, or nothing as an empty one. -/
def list? : Reply → Option (List Reply)
  | .nothing => some []
  | .items replies => some replies
  | _ => none

/-- An entry of a stream: its identifier and its fields. -/
structure Entry where
  id : String
  fields : List (String × Reply)

/-- The value of a field. The last one of a name counts. -/
def Entry.field? (e : Entry) (name : String) : Option Reply :=
  (e.fields.reverse.find? (·.1 = name)).map Prod.snd

def entriesOfItem (item : Reply) : Option (List Entry) := do
  (← item.pairs?).mapM fun (id, fields) => do some ⟨id, ← fields.pairs?⟩

def entriesOfStream (stream : Reply) : Option (List Entry) := do
  let items ← stream.list?
  some (← items.mapM entriesOfItem).flatten

/-- The entries of all streams of a reply, in order. -/
def entries? (reply : Reply) : Option (List Entry) := do
  let rows ← (← reply.list?).mapM fun row => do
    let streams ← row.pairs?
    some (← streams.mapM fun (_, stream) => entriesOfStream stream).flatten
  some rows.flatten

end Reply

end Occupancy.Redis
