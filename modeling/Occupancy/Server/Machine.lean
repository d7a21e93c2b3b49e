import Occupancy.Host.EnvFile
import Occupancy.Host.Pem
import Occupancy.Postgres.Script
import Occupancy.Server.Run

/-!
# A model of a host

A disk, an environment, ports of which some are taken, and perhaps a database that answers by a
script. The end is called as soon as the server serves.
-/

namespace Occupancy.Server

/-- A host and what was reported on it. -/
structure Machine where
  disk : Host.Disk := {}
  /-- The working directory. -/
  working : Host.Path := []
  environment : Host.EnvFile.Variables := []
  home : Option String := some "/"
  taken : UInt16 → Bool := fun _ => false
  /-- The database, if there is one that can be reached. -/
  database : Option Postgres.Stage := none
  /-- The name of this run's log. -/
  logName : String := "server_rooms.log"
  events : List Event := []

namespace Machine

def place (m : Machine) (path : String) : Host.Path :=
  Host.Path.ofText m.working path

/-- Is anything at a written path? An empty path leads nowhere. -/
def hasPath (m : Machine) (path : String) : Bool :=
  path ≠ "" && m.disk.exists_ (m.place path)

/-- The text of a file. -/
def read? (m : Machine) (path : String) : Option String :=
  if path = "" then none else m.disk.read? (m.place path)

/-- The items of a directory. -/
def list (m : Machine) (path : String) : Except Host.ListError (List Host.Entry) :=
  if path = "" then .error .missing else m.disk.list (m.place path)

/-- Makes directories; nothing has to be made for the empty path. -/
def createDirectories (m : Machine) (path : String) : Bool × Machine :=
  if path = "" then (true, m)
  else
    match m.disk.createDirectories (m.place path) with
    | some disk => (true, { m with disk })
    | none => (false, m)

/-- Takes over the variables of a file. -/
def adopt (m : Machine) (path : String) : Machine :=
  match m.read? path with
  | some text => { m with environment := Host.EnvFile.load m.environment text }
  | none => m

/-- Answers a request of the store on Postgres. Without a database everything fails. -/
def onDatabase (m : Machine) (c : Postgres.Call) : c.Reply × Machine :=
  match m.database with
  | some stage => let (r, stage) := stage.answer c; (r, { m with database := some stage })
  | none => (c.unreachable, m)

/-- Answers one request of the server. -/
def answer : (c : Call) → Machine → c.Reply × Machine
  | .adopt path, m => ((), m.adopt path)
  | .value name, m => (m.environment.lookup name, m)
  | .home, m => (m.home, m)
  | .exists_ path, m => (m.hasPath path, m)
  | .read path, m => (m.read? path, m)
  | .createDirectories path, m => m.createDirectories path
  | .list path, m => (m.list path, m)
  | .remove path, m => ((), { m with disk := m.disk.remove (m.place path) })
  | .openLog directory, m =>
    ((), { m with disk := m.disk.write (m.place directory ++ [m.logName]) "" 0 })
  | .openPool _ _, m => (m.database.isSome, m)
  | .database c, m => m.onDatabase c
  | .bind port, m => (!m.taken port, m)
  | .identity cert key, m => (Host.Pem.holdsCertificates cert && Host.Pem.holdsKey key, m)
  | .serve, m => ((), m)
  | .note e, m => ((), { m with events := m.events ++ [e] })

def listening? (m : Machine) : Option Scheme :=
  m.events.findSome? fun
    | .listening scheme _ => some scheme
    | _ => none

/-- Was the configuration file unusable? -/
def ignoredConfig (m : Machine) : Bool :=
  m.events.any fun
    | .configIgnored _ => true
    | _ => false

def logCount (m : Machine) (directory : Host.Path) : Nat :=
  ((m.disk.filesUnder directory).filter fun p =>
    ((p.getLast?).map Logs.isLogName).getD false).length

end Machine

end Occupancy.Server
