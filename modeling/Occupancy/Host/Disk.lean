import Occupancy.Host.Path
import Occupancy.Table

/-!
# A disk

Files and directories by place. Every directory that leads to a file or directory is there too, or
comes into being with it.
-/

namespace Occupancy.Host

/-- What is at a place. -/
inductive Node where
  | file (text : String)
  | directory
deriving DecidableEq

/-- An item of a directory. -/
structure Entry where
  name : String
  isDirectory : Bool
  /-- The time of the last change, in any unit. -/
  modified : Int
deriving DecidableEq

/-- Why a directory cannot be listed. -/
inductive ListError where
  | missing
  | notDirectory
deriving DecidableEq

/-- The wording of the system. -/
def ListError.message : ListError → String
  | .missing => "No such file or directory (os error 2)"
  | .notDirectory => "Not a directory (os error 20)"

/-- Files and directories, with the times of their last changes. The root is always there. -/
structure Disk where
  nodes : Table Path (Node × Int) := ∅

namespace Disk

/-! ## Looking -/

def node? (d : Disk) (p : Path) : Option Node :=
  if p = [] then some .directory else (d.nodes.get? p).map Prod.fst

/-- Is anything at the place? -/
def exists_ (d : Disk) (p : Path) : Bool :=
  (d.node? p).isSome

def read? (d : Disk) (p : Path) : Option String :=
  match d.node? p with
  | some (.file text) => some text
  | _ => none

/-- Does the way to a place lead through a file? -/
def isBlocked (d : Disk) (p : Path) : Bool :=
  (List.range p.length).any fun n => (d.read? (p.take n)).isSome

/-- The items of a directory, in the order in which they came. -/
def list (d : Disk) (p : Path) : Except ListError (List Entry) :=
  match d.node? p with
  | some .directory =>
    .ok <| d.nodes.entries.filterMap fun (q, node, modified) =>
      match q.getLast? with
      | some name =>
        if q.dropLast = p then some ⟨name, decide (node = .directory), modified⟩ else none
      | none => none
  | some (.file _) => .error .notDirectory
  | none => .error (if d.isBlocked p then .notDirectory else .missing)

/-! ## Changing -/

/-- The disk with the directories on the way to a place, up to the place itself. -/
def withDirectories (d : Disk) (p : Path) : Disk :=
  (List.range p.length).foldl (fun d n =>
    let q := p.take (n + 1)
    if d.nodes.contains q then d else { d with nodes := d.nodes.set q (.directory, 0) }) d

/-- Makes a directory with all that lead to it, unless a file is in the way. -/
def createDirectories (d : Disk) (p : Path) : Option Disk :=
  if (d.read? p).isSome ∨ d.isBlocked p then none else some (d.withDirectories p)

/-- Writes a file, with the directories that lead to it. -/
def write (d : Disk) (p : Path) (text : String) (modified : Int) : Disk :=
  { d.withDirectories p.dropLast with
    nodes := (d.withDirectories p.dropLast).nodes.set p (.file text, modified) }

/-- Makes a directory with a time. -/
def writeDirectory (d : Disk) (p : Path) (modified : Int) : Disk :=
  { d.withDirectories p.dropLast with
    nodes := (d.withDirectories p.dropLast).nodes.set p (.directory, modified) }

/-- Removes a file. A directory stays. -/
def remove (d : Disk) (p : Path) : Disk :=
  match d.node? p with
  | some (.file _) => { d with nodes := d.nodes.erase p }
  | _ => d

/-- The files under a directory, at any depth. -/
def filesUnder (d : Disk) (p : Path) : List Path :=
  d.nodes.entries.filterMap fun (q, node, _) =>
    match node with
    | .file _ => if p.isPrefixOf q then some q else none
    | .directory => none

end Disk

end Occupancy.Host
