import Occupancy.Text.Blank

/-!
# Files of environment variables

Each line sets a variable: a key, an equals sign and a value. Values may be quoted, single quotes
keeping everything as it stands; outside them a dollar sign brings in another variable, from the
environment or from an earlier line. A value in quotes may run over several lines. A `#` after a blank
starts a comment. Reading stops at the first line that makes no sense, and what came before it counts.

Names are told from what follows them by ASCII letters and digits.
-/

namespace Occupancy.Host.EnvFile

/-! ## Lines -/

/-- Where the end of a physical line leaves the reader. -/
inductive Mark where
  | plain
  | blank
  | escape
  | weak
  | weakEscape
  | strong
  | strongEscape
deriving DecidableEq

/-- How far a physical line goes. -/
inductive Reach where
  /-- A comment starts after this text. -/
  | comment (before : List Char)
  | ended (mark : Mark)

/-- The mark after a character outside quotes. -/
def afterPlain (c : Char) : Mark :=
  if c = '\\' then .escape
  else if c = '"' then .weak
  else if c = '\'' then .strong
  else .plain

/-- The mark after a character; there is none where a comment starts. -/
def Mark.next (m : Mark) (c : Char) : Option Mark :=
  match m with
  | .blank => if c = '#' then none else some (afterPlain c)
  | .escape => some .plain
  | .plain => if isBlank c ∧ c ≠ '\n' ∧ c ≠ '\r' then some .blank else some (afterPlain c)
  | .weak => some (if c = '\\' then .weakEscape else if c = '"' then .plain else .weak)
  | .weakEscape => some .weak
  | .strong => some (if c = '\\' then .strongEscape else if c = '\'' then .plain else .strong)
  | .strongEscape => some .strong

/-- Follows a physical line. -/
def reach (m : Mark) (before : List Char) : List Char → Reach
  | [] => .ended m
  | c :: rest =>
    match m.next c with
    | none => .comment before
    | some m => reach m (before ++ [c]) rest

/-- The text without the line end after it. -/
def dropLineEnd (cs : List Char) : List Char :=
  match cs.reverse with
  | '\n' :: '\r' :: rest => rest.reverse
  | '\n' :: rest => rest.reverse
  | _ => cs

/-- The physical lines of a text, each with its line end. -/
def physicalLines : List Char → List (List Char)
  | [] => []
  | c :: rest =>
    if c = '\n' then ['\n'] :: physicalLines rest
    else
      match physicalLines rest with
      | [] => [[c]]
      | line :: more => (c :: line) :: more

/-- Joins physical lines to whole ones. A text that ends inside a line ends in none. -/
def wholeLines (m : Mark) (begun : List Char) : List (List Char) → List (Option (List Char))
  | [] => if m = .plain then [] else [none]
  | line :: rest =>
    let all := begun ++ line
    if (skipBlanks all).head? = some '#' then some [] :: wholeLines .plain [] rest
    else
      match reach m [] line with
      | .comment before => some (begun ++ before) :: wholeLines .plain [] rest
      | .ended .plain => some (dropLineEnd all) :: wholeLines .plain [] rest
      | .ended m => wholeLines m all rest

/-! ## Values -/

/-- What the reader of a value is in the middle of. -/
inductive Mode where
  | text
  | escape
  | strong
  /-- The name of a variable, as far as it is read. -/
  | name (read : List Char)
  /-- The same between braces. -/
  | braced (read : List Char)
  /-- The value is over; only blanks and a comment may follow. -/
  | finished
deriving DecidableEq

/-- A value read in part. -/
structure Partial where
  output : List Char := []
  mode : Mode := .text
  /-- Is the reader between double quotes? -/
  weak : Bool := false

/-- The value with the text of a variable. -/
def Partial.bring (p : Partial) (values : String → String) (name : List Char) : Partial :=
  { p with output := p.output ++ (values (String.ofList name)).toList, mode := .text }

/-- The value with one more character. -/
def Partial.push (p : Partial) (c : Char) : Partial :=
  { p with output := p.output ++ [c], mode := .text }

/-- The value after a character of its ordinary text. -/
def Partial.readText (p : Partial) (c : Char) : Partial :=
  if c = '$' then { p with mode := .name [] }
  else if c = '\\' then { p with mode := .escape }
  else if c = '"' then { p with weak := !p.weak }
  else if p.weak then p.push c
  else if c = '\'' then { p with mode := .strong }
  else if c = ' ' ∨ c = '\t' then { p with mode := .finished }
  else p.push c

/-- The value after a character, unless the character makes no sense there. -/
def Partial.read (p : Partial) (values : String → String) (c : Char) : Option Partial :=
  match p.mode with
  | .finished => if c = ' ' ∨ c = '\t' then some p else none
  | .escape =>
    if c = 'n' then some (p.push '\n')
    else if c = '\\' ∨ c = '\'' ∨ c = '"' ∨ c = '$' ∨ c = ' ' then some (p.push c)
    else none
  | .strong =>
    if c = '\'' then some { p with mode := .text }
    else some { p with output := p.output ++ [c] }
  | .name read =>
    if c.isAlphanum then some { p with mode := .name (read ++ [c]) }
    else if c = '{' ∧ read = [] then some { p with mode := .braced [] }
    else
      let p := p.bring values read
      if c = '$' then some { p with mode := .name [] } else some (p.push c)
  | .braced read =>
    if c = '}' then some (p.bring values read)
    else some { p with mode := .braced (read ++ [c]) }
  | .text => some (p.readText c)

def readValue (values : String → String) : Partial → List Char → Option (List Char)
  | p, [] =>
    match p.mode with
    | .strong => none
    | .braced _ => none
    | .name read => if p.weak then none else some (p.bring values read).output
    | _ => if p.weak then none else some p.output
  | p, c :: rest =>
    if p.mode = .finished ∧ c = '#' then some p.output
    else
      match p.read values c with
      | some p => readValue values p rest
      | none => none

/-! ## Assignments -/

/-- The key at the head of a text, and what follows it. -/
def readKey (cs : List Char) : Option (List Char × List Char) :=
  match cs with
  | c :: _ =>
    if c.isAlpha ∨ c = '_' then
      let isInner (c : Char) : Bool := c.isAlphanum || c == '_' || c == '.'
      some (cs.takeWhile isInner, cs.dropWhile isInner)
    else none
  | [] => none

/-- The text after an equals sign and blanks around it. -/
def afterEquals (cs : List Char) : Option (List Char) :=
  match skipBlanks cs with
  | '=' :: rest => some (skipBlanks rest)
  | _ => none

/-- The key of a line, after which an equals sign stands. The word `export` may come before it, or be
the key itself. -/
def readTarget (cs : List Char) : Option (List Char × List Char) := do
  let (key, rest) ← readKey cs
  match afterEquals rest with
  | some value => some (key, value)
  | none =>
    if key = "export".toList then
      let (key, rest) ← readKey (skipBlanks rest)
      some (key, ← afterEquals rest)
    else none

/-- What a whole line sets. -/
inductive Line where
  | nothing
  | sets (key value : String)
  | senseless

def readLine (values : String → String) (line : List Char) : Line :=
  match skipBlanks line with
  | [] => .nothing
  | '#' :: _ => .nothing
  | cs =>
    match readTarget cs with
    | none => .senseless
    | some (key, []) => .sets (String.ofList key) ""
    | some (key, '#' :: _) => .sets (String.ofList key) ""
    | some (key, value) =>
      match readValue values {} value with
      | some v => .sets (String.ofList key) (String.ofList v)
      | none => .senseless

/-! ## Files -/

/-- Variables that are set, the latest first. -/
abbrev Variables := List (String × String)

/-- The variables after several lines: one that the environment has is not set again. `given` holds
what the lines themselves said. -/
def readLines (environment given : Variables) : List (Option (List Char)) → Variables
  | [] => environment
  | none :: _ => environment
  | some line :: rest =>
    let values (name : String) : String :=
      ((environment.lookup name).orElse fun _ => given.lookup name).getD ""
    match readLine values line with
    | .senseless => environment
    | .nothing => readLines environment given rest
    | .sets key value =>
      let environment :=
        if (environment.lookup key).isSome then environment else (key, value) :: environment
      readLines environment ((key, value) :: given) rest

def load (environment : Variables) (text : String) : Variables :=
  let cs := match text.toList with
    | '\uFEFF' :: rest => rest
    | cs => cs
  readLines environment [] (wholeLines .plain [] (physicalLines cs))

end Occupancy.Host.EnvFile
