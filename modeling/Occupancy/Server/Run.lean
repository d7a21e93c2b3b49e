import Occupancy.Server.Listen
import Occupancy.Server.Logs
import Occupancy.Server.Startup

/-!
# A run of the server

From the command line to the end of the process. Variables come from a file beside the server, then
the layers of the configuration are put together and resolved, the logs are made ready, the backends
are opened and clients are served. A server that cannot listen says so and ends in good order.
-/

namespace Occupancy.Server

inductive Ending where
  /-- The command line asks for something else or makes no sense. -/
  | refused (r : CommandLine.Refusal)
  | failed (e : StartError)
  | completed
deriving DecidableEq

namespace Ending

/-- The exit code of the process. -/
def code : Ending → Nat
  | .refused .help => 0
  | .refused .version => 0
  | .refused _ => 2
  | .failed _ => 1
  | .completed => 0

/-- What is told about a failure, and then what lies behind it. -/
def messages : Ending → Option (List String)
  | .failed e => some (e.message :: e.cause?.toList)
  | _ => none

end Ending

def variableFile : String :=
  ".env"

/-! ## Configuration -/

/-- The values of several variables. -/
def valuesOf : List String → Program Calls (List (String × String))
  | [] => .done []
  | name :: rest =>
    .ask (.value name) fun value =>
      (valuesOf rest).bind fun more =>
        .done (match (value : Option String) with
          | some v => (name, v) :: more
          | none => more)

/-- The text of the configuration file, if it is there and can be used. -/
def configText (path : String) : Program Calls (Option String) :=
  .ask (.exists_ path) fun (there : Bool) =>
    if there then
      .ask (.read path) fun (text : Option String) =>
        match text.filter fun t => (Config.Layer.ofText? t).isSome with
        | some t => .done (some t)
        | none => .ask (.note (.configIgnored path)) fun _ => .done none
    else .done none

/-- The layers of the configuration under the uppermost one, put together with it. -/
def loadUnder (upper : Config.Layer) : Program Calls Config.Layer :=
  (configText upper.file).bind fun text =>
    .ask .home fun home => .done (Config.Layer.load home text upper)

/-- The layers of the configuration, put together. -/
def configure (words : List String) : Program Calls (Except CommandLine.Refusal Config.Layer) :=
  (valuesOf (Config.settings.filterMap (·.option.environmentName))).bind fun environment =>
    match Config.Layer.ofCommandLine (environment.lookup ·) words with
    | .error r => .done (.error r)
    | .ok upper => (loadUnder upper).bind fun layer => .done (.ok layer)

/-! ## The run -/

/-- A server that is ready to serve. -/
structure Ready where
  settings : Config.Settings
  log : LogFilter
  application : Application

/-- Makes the logs ready and opens the backends. -/
def start (settings : Config.Settings) : Action Ready := do
  let log ← Logs.prepare settings.logDir settings.logLevel
  return ⟨settings, log, ← Startup.run settings⟩

/-- Everything up to serving, with the words of the command line. -/
def prepare (words : List String) : Program Calls (Except Ending Ready) :=
  .ask (.adopt variableFile) fun _ =>
    (configure words).bind fun
      | .error r => .done (.error (.refused r))
      | .ok layer =>
        match layer.resolve with
        | .error reason => .done (.error (.failed (.unresolved reason)))
        | .ok settings =>
          (start settings).run.bind fun
            | .error e => .done (.error (.failed e))
            | .ok ready => .done (.ok ready)

def serve (r : Ready) : Program Calls Ending :=
  (Listen.run r.log r.settings.port r.settings.tls).bind fun served =>
    (if served then .done () else report r.log .serverFailed).bind fun _ =>
      (report r.log .shutdownComplete).bind fun _ => .done .completed

def run (words : List String) : Program Calls Ending :=
  (prepare words).bind fun
    | .error ending => .done ending
    | .ok ready => serve ready

end Occupancy.Server
