/-!
# Paths

A path is the list of its components from the root. Written paths that do not start with a slash
continue the working directory; empty components and single dots mean nothing, two dots go back.
-/

namespace Occupancy.Host

/-- The components of a place on the disk, from the root on. -/
abbrev Path := List String

namespace Path

/-- The place that one more written component leads to. -/
def step (p : Path) (component : String) : Path :=
  if component = "" ∨ component = "." then p
  else if component = ".." then p.dropLast
  else p ++ [component]

def components (s : String) : List String :=
  (s.toList.splitOn '/').map String.ofList

/-- The place that a written path stands for. -/
def ofText (working : Path) (s : String) : Path :=
  (components s).foldl step (if s.startsWith '/' then [] else working)

/-- The written form of a place. -/
def text (p : Path) : String :=
  if p = [] then "/" else String.join (p.map ("/" ++ ·))

/-- The written path of a name inside a directory. A name that starts with a slash stays as it is. -/
def join (directory name : String) : String :=
  if name.startsWith '/' then name
  else if directory = "" ∨ directory.endsWith '/' then directory ++ name
  else directory ++ "/" ++ name

/-- What stands after the last dot of a name, unless the name starts with its only dot or has
none. -/
def extension? (name : String) : Option String :=
  let reversed := name.toList.reverse
  let tail := reversed.takeWhile (· ≠ '.')
  if tail.length + 1 < reversed.length then some (String.ofList tail.reverse) else none

end Path

end Occupancy.Host
