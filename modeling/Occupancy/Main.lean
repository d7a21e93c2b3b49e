import Std.Time.DateTime.Timestamp
import Occupancy.Host.EnvFile
import Occupancy.Host.Pem
import Occupancy.Server.Console

/-!
# The command line

The server on the machine that runs it, without a network: requests are lines on the standard input,
and their answers are lines on the standard output. What the server reports goes to the standard
error. The server ends with its input.
-/

namespace Occupancy.Main

open Server

/-! ## The host -/

/-- The variables that matter to the server, as the environment has them. -/
def environment : IO Host.EnvFile.Variables := do
  let names := "HOME" :: Config.settings.filterMap (·.option.environmentName)
  names.filterMapM fun name => do return (← IO.getEnv name).map fun value => (name, value)

/-- The result of an action, unless it fails. -/
def attempt {α : Type} (action : IO α) : IO (Option α) := do
  try return some (← action) catch _ => return none

def readText (path : String) : IO (Option String) :=
  attempt (IO.FS.readFile path)

/-- The items of a directory, with the times of their last changes in nanoseconds. -/
def entries (path : String) : IO (Except Host.ListError (List Host.Entry)) := do
  if path = "" then return .error .missing
  let place := (← IO.currentDir) / path
  if !(← place.pathExists) then return .error .missing
  let some found ← attempt place.readDir | return .error .notDirectory
  let read (e : IO.FS.DirEntry) : IO Host.Entry := do
    let modified := (← e.path.metadata).modified
    return ⟨e.fileName, ← e.path.isDir, modified.sec * 1000000000 + modified.nsec.toNat⟩
  return .ok (← found.toList.mapM read)

def eventLine : Event → String
  | .configIgnored path => "Ignoring configuration file " ++ path
  | .listening scheme port => "Listening on " ++ scheme.text ++ ", port " ++ toString port
  | .serverFailed => "Server failed"
  | .shutdownComplete => "Shutdown complete"

/-- Does what the server asks of its host. Serving is left to `serveClients`. -/
def perform (known : IO.Ref Host.EnvFile.Variables) (serveClients : IO Unit) :
    (c : Call) → IO c.Reply
  | .adopt path => do
    if let some text ← readText path then known.modify (Host.EnvFile.load · text)
  | .value name => return (← known.get).lookup name
  | .home => return some (((← known.get).lookup "HOME").getD "/")
  | .exists_ path => do
    -- joined to the working directory, the empty path would lead there
    if path = "" then return false else ((← IO.currentDir) / path).pathExists
  | .read path => readText path
  | .createDirectories path => do
    if path = "" then return true else return (← attempt (IO.FS.createDirAll path)).isSome
  | .list path => entries path
  | .remove path => do
    if (← attempt (IO.FS.removeFile path)).isNone then
      IO.eprintln ("Failed to delete old log file " ++ path)
  | .openLog directory => do
    let second := (← Std.Time.Timestamp.now).toSecondsSinceUnixEpoch.val
    let name := "server_rooms_" ++ toString second ++ ".log"
    IO.FS.writeFile (Host.Path.join directory name) ""
  | .openPool _ _ => return false
  | .database c => return c.unreachable
  | .bind _ => return true
  | .identity cert key => return Host.Pem.holdsCertificates cert && Host.Pem.holdsKey key
  | .serve => serveClients
  | .note e => IO.eprintln (eventLine e)

/-- Carries out a program, each request on the host. -/
def carryOut {α : Type} (answer : (c : Call) → IO c.Reply) : Program Calls α → IO α
  | .done a => return a
  | .ask c next => do carryOut answer (next (← answer c))

/-! ## Endings -/

/-- The names of the options, one a line. -/
def usage : String :=
  let options := Config.settings.map fun s => "\n  --" ++ s.option.name ++ " <value>"
  "Usage: server_rooms [OPTIONS]\n\nOptions:" ++ String.join options

/-- Tells how a run ended. -/
def tell : Ending → IO Unit
  | .refused .help => IO.println usage
  | .refused .version => IO.println "server_rooms 0.1.0"
  | .refused _ => IO.eprintln usage
  | .failed e => do
    IO.eprintln ("Error: " ++ e.message)
    if let some cause := e.cause? then IO.eprintln ("\nCaused by:\n    " ++ cause)
  | .completed => pure ()

/-! ## Requests -/

def now : IO Instant := do
  let nanos := (← Std.Time.Timestamp.now).toNanosecondsSinceUnixEpoch.val
  return (Instant.ofNanos? nanos).getD .epoch

/-- Answers lines to the end of the input. -/
partial def answerLines (w : Simulation.World) (last : Nat) : IO Unit := do
  let line ← (← IO.getStdin).getLine
  if line.isEmpty then return
  let time ← IO.monoMsNow
  let text := String.ofList (Host.EnvFile.dropLineEnd line.toList)
  let (answer, w) := Console.answer w (← now) (time - last) text
  IO.println answer
  answerLines w time

/-- Serves with everything that was made ready. -/
def serveLines (r : Ready) : IO Unit := do
  answerLines (Console.worldOf r (← now)) (← IO.monoMsNow)

end Occupancy.Main

/-- Runs the server with the words of the command line. -/
def main (words : List String) : IO UInt32 := do
  let known ← IO.mkRef (← Occupancy.Main.environment)
  let host := Occupancy.Main.perform known
  let ending ← match ← Occupancy.Main.carryOut (host (pure ())) (Occupancy.Server.prepare words) with
    | .error ending => pure ending
    | .ok ready =>
      let host := host (Occupancy.Main.serveLines ready)
      Occupancy.Main.carryOut host (Occupancy.Server.serve ready)
  Occupancy.Main.tell ending
  return ending.code.toUInt32
