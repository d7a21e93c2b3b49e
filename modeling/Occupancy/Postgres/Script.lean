import Occupancy.Postgres.Client

/-!
# A database that answers by a script

A database of which only the answers matter. Each statement with parameters takes the next answer of
the script; after the last one a statement finds nothing and touches nothing. The other statements
succeed unless they are set to fail.
-/

namespace Occupancy.Postgres

/-- What is set to fail, with the code of the error. -/
structure Faults where
  start : Option String := none
  commit : Option String := none
  createTables : Option String := none

/-- A statement that the database got. -/
inductive Sent where
  | start
  | commit
  | rollback
  | createTables
  | statement (s : Statement)
deriving DecidableEq

/-- The answers still to be given, and the statements got, in order. -/
structure Stage where
  faults : Faults := {}
  script : List (Except String Result) := []
  log : List Sent := []

namespace Stage

/-- The stage with one more statement got. -/
def note (s : Stage) (sent : Sent) : Stage :=
  { s with log := s.log ++ [sent] }

/-- Succeeds, unless set to fail. -/
def outcome (fault : Option String) : Except String Unit :=
  match fault with
  | some code => .error code
  | none => .ok ()

/-- Answers one request of the store. -/
def answer : (c : Call) → Stage → c.Reply × Stage
  | .start, s => (outcome s.faults.start, s.note .start)
  | .commit, s => (outcome s.faults.commit, s.note .commit)
  | .rollback, s => ((), s.note .rollback)
  | .createTables, s => (outcome s.faults.createTables, s.note .createTables)
  | .execute statement, s =>
    match s.script with
    | [] => (.ok {}, s.note (.statement statement))
    | r :: rest => (r, { s with script := rest }.note (.statement statement))

/-- Runs an operation of the store. -/
def run {α : Type} (s : Stage) (p : Exchange α) : Except Failure α × Stage :=
  Program.run answer p.run s

end Stage

end Occupancy.Postgres
