import Occupancy.Redis.Client

/-!
# A server that answers by a script

A server of which only the replies matter. The replies of the script are used up in order; after them
each command has a usual reply. A reply may also be left out, which keeps its connection waiting from
then on, or be the end of the connection.
-/

namespace Occupancy.Redis

/-- What the server does on a command. -/
inductive Scripted where
  | reply (r : Reply)
  /-- The connection is closed. -/
  | drop
  /-- Nothing is answered. -/
  | stall

/-- The state of a connection, as the client feels it. -/
inductive Line where
  | live
  /-- A reply is missing, so every later reply belongs to an earlier command. -/
  | behind
  | lost
deriving DecidableEq

/-- A server and the broker that talks to it. -/
structure Stage where
  book : Book := {}
  /-- Is the server there to be dialled? -/
  listening : Bool := true
  /-- The connections, in the order of dialling. -/
  lines : List Line := []
  /-- The replies still to be given. -/
  script : List Scripted := []
  /-- The commands that the server got, in order, with their connections. -/
  log : List (Connection × List String) := []

namespace Stage

def usual (words : List String) : Reply :=
  match words with
  | "PING" :: _ => .status "PONG"
  | "XADD" :: _ => .bulk "1-0"
  | "XREADGROUP" :: _ => .nothing
  | "XACK" :: _ => .integer 1
  | "XGROUP" :: "DESTROY" :: _ => .integer 1
  | _ => .status "OK"

/-- Opens a connection, if the server is there. The first one has the number 1. -/
def dial (s : Stage) : Except DialFault Connection × Stage :=
  if s.listening then
    (.ok (s.lines.length + 1), { s with lines := s.lines ++ [.live] })
  else (.error .refused, s)

def line (s : Stage) (c : Connection) : Line :=
  (s.lines[c - 1]?).getD .lost

/-- Takes the next reply of the script. -/
def next (s : Stage) (words : List String) : Scripted × Stage :=
  match s.script with
  | [] => (.reply (usual words), s)
  | r :: rest => (r, { s with script := rest })

def setLine (s : Stage) (c : Connection) (l : Line) : Stage :=
  { s with lines := s.lines.set (c - 1) l }

def command (s : Stage) (c : Connection) (words : List String) : Outcome × Stage :=
  let line := s.line c
  if line = .lost then (.lost, s)
  else
    let (scripted, s) := { s with log := s.log ++ [(c, words)] }.next words
    match scripted with
    | .drop => (.lost, s.setLine c .lost)
    | .stall => (.late, s.setLine c .behind)
    | .reply r => (if line = .behind then .late else .reply r, s)

/-- Answers one request of the broker. -/
def answer : (c : Call) → Stage → c.Reply × Stage
  | .book section_, s => let (r, book) := s.book.perform section_; (r, { s with book })
  | .dial, s => s.dial
  | .command c words _, s => s.command c words

/-- The server goes away with all its connections. -/
def goDown (s : Stage) : Stage :=
  { s with listening := false, lines := s.lines.map fun _ => .lost }

/-- Runs an operation with a script for its commands. Results also in the commands that the server
got. -/
def run {α : Type} (s : Stage) (script : List Scripted) (p : Program Calls α) :
    α × List (Connection × List String) × Stage :=
  let (a, s) := p.run answer { s with script, log := [] }
  (a, s.log, s)

end Stage

end Occupancy.Redis
