/-!
# Command lines

Options with values, given as `--name value` or `--name=value` and for some as `-n value`, each at
most once, or else by an environment variable. The words are read from left to right; an option that
still waits for its value when the next option or the end of the line comes has none.

Reading fills a state of any type `α`, whose options know how to take their values into it.
-/

namespace Occupancy.CommandLine

/-- Why a command line does not lead to a run. -/
inductive Refusal where
  /-- The help text is asked for. -/
  | help
  /-- The version is asked for. -/
  | version
  /-- A word that is no option and no value of one. -/
  | unknownWord
  /-- An option without a value, or with one that is not among its possible values. -/
  | unusableValue
  /-- A value that cannot be read as a number of the wanted range. -/
  | unreadableValue
  /-- A value for an option that takes none. -/
  | needlessValue
  /-- Two options, or one option twice, that exclude each other. -/
  | conflict
  /-- An option that another one needs is missing. -/
  | missingOption
deriving DecidableEq

/-- An option with a value. -/
structure Opt (α : Type) where
  /-- The name that follows two hyphens. -/
  name : String
  /-- The letter that follows one hyphen. -/
  letter : Option Char := none
  /-- The environment variable that stands in for a missing option. -/
  environmentName : Option String := none
  /-- Does the state hold a value of this option? -/
  isGiven : α → Bool
  /-- Takes a value into the state. -/
  take : String → α → Except Refusal α

/-! ## Words -/

inductive Word where
  /-- The two hyphens that end the options. -/
  | separator
  /-- A name after two hyphens, and the value after an equals sign. -/
  | long (name : String) (value : Option String)
  /-- Letters after one hyphen. -/
  | short (letter : Char) (rest : List Char)
  /-- Any other word. -/
  | plain (text : String)

/-- The shape of a word. A hyphen alone is a plain word. -/
def Word.ofText (s : String) : Word :=
  match s.toList with
  | ['-', '-'] => .separator
  | '-' :: '-' :: cs =>
    let value := (cs.dropWhile (· ≠ '=')).drop 1
    .long (String.ofList (cs.takeWhile (· ≠ '=')))
      (if '=' ∈ cs then some (String.ofList value) else none)
  | '-' :: c :: cs => .short c cs
  | _ => .plain s

/-- The value that stands directly after an option's letter, if one does. -/
def attachedValue (cs : List Char) : Option String :=
  match cs with
  | [] => none
  | '=' :: value => some (String.ofList value)
  | value => some (String.ofList value)

/-! ## Reading -/

/-- A line read in part: the state, and the last option with the value it has so far. -/
structure Progress (α : Type) where
  state : α
  pending : Option (Opt α × Option String) := none

variable {α : Type}

def give (state : α) (option : Opt α) (value : String) : Except Refusal α :=
  if option.isGiven state then .error .conflict else option.take value state

/-- The state once the last option has been taken into it. -/
def Progress.settle (p : Progress α) : Except Refusal α :=
  match p.pending with
  | none => .ok p.state
  | some (_, none) => .error .unusableValue
  | some (option, some value) => give p.state option value

def Progress.readOption (p : Progress α) (option : Opt α) (attached : Option String) :
    Except Refusal (Progress α) := do
  let state ← p.settle
  match attached with
  | none => .ok { state, pending := some (option, none) }
  | some value => .ok { state := ← give state option value }

/-- Reads a question in place of an option. -/
def Progress.readQuestion (p : Progress α) (answer : Refusal) : Except Refusal (Progress α) := do
  let _ ← p.settle
  .error answer

def Progress.read (options : List (Opt α)) (p : Progress α) (word : Word) :
    Except Refusal (Progress α) :=
  match word with
  | .separator => .ok p
  | .long name value =>
    match options.find? (·.name = name) with
    | some option => p.readOption option value
    | none =>
      if name = "help" ∨ name = "version" then
        if value.isSome then .error .needlessValue
        else p.readQuestion (if name = "help" then .help else .version)
      else .error .unknownWord
  | .short letter rest =>
    match options.find? (·.letter = some letter) with
    | some option => p.readOption option (attachedValue rest)
    | none =>
      if letter = 'h' then p.readQuestion .help
      else if letter = 'V' then p.readQuestion .version
      else .error .unknownWord
  | .plain text =>
    match p.pending with
    | some (option, none) => .ok { p with pending := some (option, some text) }
    | _ => .error .unknownWord

/-- Reads the words of a line. Nothing may follow the separator. -/
def Progress.readAll (options : List (Opt α)) : Progress α → List String → Except Refusal α
  | p, [] => p.settle
  | p, s :: rest =>
    match Word.ofText s with
    | .separator => if rest = [] then p.settle else .error .unknownWord
    | word =>
      match p.read options word with
      | .ok p => readAll options p rest
      | .error e => .error e

/-- Takes the value of an option's variable into the state, unless the option is given. -/
def readVariable (environment : String → Option String) (state : α) (option : Opt α) :
    Except Refusal α :=
  if option.isGiven state then .ok state
  else
    match option.environmentName.bind environment with
    | some value => option.take value state
    | none => .ok state

/-- Reads a command line and its environment into a state that holds nothing yet. -/
def read (options : List (Opt α)) (environment : String → Option String) (empty : α)
    (words : List String) : Except Refusal α := do
  let state ← Progress.readAll options { state := empty } words
  options.foldlM (readVariable environment) state

end Occupancy.CommandLine
