import Occupancy.Text.Decimal

/-!
# Media types

Which content types announce JSON: `application/json`, or any subtype of `application` with the
suffix `+json`, in any case of letters and with any parameters. A text that is no media type
announces nothing.
-/

namespace Occupancy.Http.MediaType

def isToken (c : Char) : Bool :=
  c.isAlphanum || "!#$%&'*+-.^_\x60|~".toList.contains c

/-- Is this a character of a quoted value? -/
def isQuoted (c : Char) : Bool :=
  c.toNat > 31 && c != '\x7f'

/-- Is this a character that a header may show as text? -/
def isVisible (c : Char) : Bool :=
  c == '\t' || (' ' ≤ c && c ≤ '~')

/-- Where a reader of parameters stands. -/
inductive Position where
  /-- Before a name, where blanks are skipped. -/
  | start
  | name
  /-- Before a value. -/
  | equals
  | value
  /-- In a quoted value, which has characters or not. -/
  | quoted (some : Bool)
  /-- After a quoted value. -/
  | afterQuoted
deriving DecidableEq

/-- The position after one more character, if it may stand there. -/
def Position.step : Position → Char → Option Position
  | .start, c => if c = ' ' then some .start else if isToken c then some .name else none
  | .name, c => if isToken c then some .name else if c = '=' then some .equals else none
  | .equals, c => if c = '"' then some (.quoted false) else if isToken c then some .value else none
  | .value, c => if isToken c then some .value else if c = ';' then some .start else none
  | .quoted filled, c =>
    if c = '"' ∧ filled then some .afterQuoted
    else if isQuoted c then some (.quoted true) else none
  | .afterQuoted, c => if c = ';' then some .start else if c = ' ' then some .afterQuoted else none

/-- Are these the parameters of a media type, after the semicolon? -/
def areParameters (cs : List Char) : Bool :=
  match cs.foldlM Position.step .start with
  | some .start => true
  | some .equals => true
  | some .value => true
  | some .afterQuoted => true
  | _ => false

/-- Does a subtype stand for JSON? What counts is the part before the last plus sign, or the part
after it. -/
def isJsonSubtype (cs : List Char) : Bool :=
  let json := ['j', 's', 'o', 'n']
  let suffix := (cs.reverse.takeWhile (· ≠ '+')).reverse
  let stem := cs.take (cs.length - suffix.length - 1)
  if stem = [] then cs = json else suffix = json || stem = json

/-- Does a content type announce JSON? -/
def isJson (contentType : String) : Bool :=
  let cs := contentType.toList.map Char.toLower
  let kind := cs.takeWhile isToken
  match cs.drop kind.length with
  | '/' :: rest =>
    let subtype := rest.takeWhile isToken
    let wellFormed :=
      match rest.drop subtype.length with
      | [] => true
      | ';' :: parameters => areParameters parameters
      | _ => false
    cs.all isVisible && kind = "application".toList && wellFormed && isJsonSubtype subtype
  | _ => false

end Occupancy.Http.MediaType
