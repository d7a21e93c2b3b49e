import Occupancy.Text.Blank

/-!
# What is logged

How much is logged is set by a filter: directives between commas, each a level, a source, or both
with an equals sign between them. The directive with the longest source that fits decides. A filter
without directives lets errors pass.
-/

namespace Occupancy.Server

/-- How much passes: everything up to a kind of event. -/
inductive Level where
  | off
  | error
  | warn
  | info
  | debug
  | trace
deriving DecidableEq

namespace Level

/-- The place in the order. -/
def rank : Level → Nat
  | .off => 0
  | .error => 1
  | .warn => 2
  | .info => 3
  | .debug => 4
  | .trace => 5

/-- The levels by their names and by their numbers. -/
def names : List (String × Level) :=
  [("off", .off), ("error", .error), ("warn", .warn), ("info", .info), ("debug", .debug),
   ("trace", .trace), ("0", .off), ("1", .error), ("2", .warn), ("3", .info), ("4", .debug),
   ("5", .trace)]

/-- Reads a level, in capital or small letters. -/
def ofText? (s : String) : Option Level :=
  names.lookup (s.map Char.toLower)

end Level

/-- How much a source may say; the empty source stands for all. -/
structure Directive where
  source : String
  most : Level
deriving DecidableEq

/-- May this character stand in a source? -/
def isSourceChar (c : Char) : Bool :=
  c.isAlphanum || c == '-' || c == ':' || c == '_'

def Directive.ofText? (s : String) : Option Directive :=
  let cs := (skipBlanks (skipBlanks s.toList).reverse).reverse
  let source := String.ofList (cs.takeWhile isSourceChar)
  match cs.dropWhile isSourceChar with
  | [] => if source = "" then none else
    match Level.ofText? source with
    | some l => some ⟨"", l⟩
    | none => some ⟨source, .trace⟩
  | '=' :: level =>
    if source = "" then none
    else if level = [] then some ⟨source, .trace⟩
    else (Level.ofText? (String.ofList level)).map (⟨source, ·⟩)
  | _ => none

/-- The directives of a filter, of which there is at least one. -/
structure LogFilter where
  directives : List Directive

namespace LogFilter

/-- The source of everything that the server itself reports. -/
def serverSource : String :=
  "server_rooms"

def upTo (l : Level) : LogFilter :=
  ⟨[⟨"", l⟩]⟩

def ofText? (s : String) : Option LogFilter := do
  match ← ((s.splitOn ",").filter (· ≠ "")).mapM Directive.ofText? with
  | [] => some (upTo .error)
  | directives => some ⟨directives⟩

/-- The filter of a text, or the usual one if the text is none. -/
def ofText (s : String) : LogFilter :=
  (ofText? s).getD (upTo .info)

def fitting (f : LogFilter) : List Directive :=
  f.directives.filter fun d => serverSource.startsWith d.source

/-- Of two directives the one with the longer source, and otherwise the second one. -/
def closer (a b : Directive) : Directive :=
  if a.source.length ≤ b.source.length then b else a

/-- Does an event of this level pass? -/
def allows (f : LogFilter) (l : Level) : Bool :=
  match f.fitting with
  | [] => false
  | d :: rest => l.rank ≤ (rest.foldl closer d).most.rank

end LogFilter

end Occupancy.Server
