import Occupancy.Config.Settings
import Occupancy.Host.Disk
import Occupancy.Postgres.Client
import Occupancy.Server.LogFilter

/-!
# What the server asks of its host

Reading the environment and files, keeping the directory of logs, reaching a database, listening on a
port. What happened is noted as events, whose wording is left to the host. Since these are requests of
a program, starting the server is the same whether a machine or a model of one answers.
-/

namespace Occupancy.Server

/-- How clients connect. -/
inductive Scheme where
  | http
  | https
deriving DecidableEq

def Scheme.text : Scheme → String
  | .http => "http"
  | .https => "https"

/-- What is reported. -/
inductive Event where
  /-- The configuration file is there but cannot be used. -/
  | configIgnored (path : String)
  | listening (scheme : Scheme) (port : UInt16)
  | serverFailed
  | shutdownComplete
deriving DecidableEq

/-- How serious an event is. What comes before the log is open is told in any case. -/
def Event.level : Event → Level
  | .configIgnored _ => .off
  | .listening _ _ => .info
  | .serverFailed => .error
  | .shutdownComplete => .info

/-- A request to the host. -/
inductive Call where
  /-- Takes over the variables of a file, unless the environment has them. -/
  | adopt (path : String)
  | value (name : String)
  /-- The home directory of the user, if there is one. -/
  | home
  | exists_ (path : String)
  | read (path : String)
  | createDirectories (path : String)
  | list (path : String)
  | remove (path : String)
  /-- Opens the file of this run's log inside a directory. -/
  | openLog (directory : String)
  /-- Opens a pool of connections to a database. -/
  | openPool (url : String) (maxConnections : UInt32)
  | database (c : Postgres.Call)
  /-- Takes hold of a port. -/
  | bind (port : UInt16)
  /-- Are these texts a certificate and its key? -/
  | identity (cert key : String)
  /-- Serves until the end is called. -/
  | serve
  | note (e : Event)

def Call.Reply : Call → Type
  | .adopt _ => Unit
  | .value _ => Option String
  | .home => Option String
  | .exists_ _ => Bool
  | .read _ => Option String
  | .createDirectories _ => Bool
  | .list _ => Except Host.ListError (List Host.Entry)
  | .remove _ => Unit
  | .openLog _ => Unit
  | .openPool _ _ => Bool
  | .database c => c.Reply
  | .bind _ => Bool
  | .identity _ _ => Bool
  | .serve => Unit
  | .note _ => Unit

abbrev Calls : Signature :=
  ⟨Call, Call.Reply⟩

inductive StartError where
  | unresolved (reason : Config.Unresolved)
  | createLogDirectory (path : String)
  | listLogs (reason : Host.ListError)
  | connectDatabase
  | pingDatabase
  | createTables
  | readSeed (path : String)
  | parseSeed (path : String)
  | openBroker
deriving DecidableEq

namespace StartError

/-- The wording of a failure. -/
def message : StartError → String
  | .unresolved _ => "resolving configuration"
  | .createLogDirectory path => "creating log directory " ++ path
  | .listLogs reason => reason.message
  | .connectDatabase => "connecting to Postgres"
  | .pingDatabase => "pinging Postgres"
  | .createTables => "applying session schema"
  | .readSeed path => "reading seed file " ++ path
  | .parseSeed path => "parsing seed file " ++ path
  | .openBroker => "opening Redis client"

/-- The wording of what lies behind a failure, where it is told. -/
def cause? : StartError → Option String
  | .unresolved reason => some reason.message
  | _ => none

end StartError

/-- A program of the server that may fail. -/
abbrev Action (α : Type) :=
  ExceptT StartError (Program Calls) α

def ask (c : Call) : Program Calls c.Reply :=
  .ask c .done

/-- Notes an event that passes a filter. -/
def report (log : LogFilter) (e : Event) : Program Calls Unit :=
  if log.allows e.level then ask (.note e) else .done ()

def orFail {α : Type} (value : Option α) (e : StartError) : Action α :=
  .mk (.done (match value with
    | some a => .ok a
    | none => .error e))

end Occupancy.Server
