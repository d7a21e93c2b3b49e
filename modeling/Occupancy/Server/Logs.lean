import Occupancy.Server.Requests

/-!
# The directory of logs

Every run writes a log of its own, of what a filter lets pass. Before that the logs of earlier runs are removed, all but the one
that was changed last. What is not a log stays; so does a directory that is named like one, although
it counts when the last change is looked for.
-/

namespace Occupancy.Server.Logs

def isLogName (name : String) : Bool :=
  Host.Path.extension? name = some "log"

/-- The logs of a directory, the one changed last first. -/
def newestFirst (entries : List Host.Entry) : List Host.Entry :=
  (entries.filter (isLogName ·.name)).mergeSort fun a b => b.modified ≤ a.modified

def outdated (entries : List Host.Entry) : List Host.Entry :=
  (newestFirst entries).drop 1

/-- The written path of an item of a directory. -/
def pathOf (directory : String) (e : Host.Entry) : String :=
  Host.Path.join directory e.name

/-- Removes items one after the other. One that cannot be removed is passed over. -/
def removeAll (directory : String) : List Host.Entry → Program Calls Unit
  | [] => .done ()
  | e :: rest => .ask (.remove (pathOf directory e)) fun _ => removeAll directory rest

/-- Removes the logs of earlier runs from a directory, all but the newest. -/
def cleanUp (directory : String) : Action Unit :=
  .mk <| .ask (.list directory) fun
    | .error reason => .done (.error (.listLogs reason))
    | .ok entries => (removeAll directory (outdated entries)).bind fun _ => .done (.ok ())

/-- Makes the directory if it is missing. -/
def ensureDirectory (directory : String) : Action Unit :=
  .mk <| .ask (.exists_ directory) fun (there : Bool) =>
    if there then .done (.ok ())
    else .ask (.createDirectories directory) fun (made : Bool) =>
      .done (if made then .ok () else .error (.createLogDirectory directory))

/-- Makes the directory ready and opens the log of this run, for what the filter of a text lets
pass. -/
def prepare (directory level : String) : Action LogFilter := do
  ensureDirectory directory
  cleanUp directory
  ExceptT.lift (ask (.openLog directory))
  return .ofText level

end Occupancy.Server.Logs
