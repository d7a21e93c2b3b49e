import Occupancy.Config.Layer
import Occupancy.Fanout.Retry
import Occupancy.Host.Path

/-!
# Settings

What the server runs with: the layers put over each other, every open question answered, and the
choices checked. The checks come in the order store, broker, sweep interval.
-/

namespace Occupancy.Config

/-- Where the sessions are kept. -/
inductive StoreChoice where
  | postgres (databaseUrl : String) (maxConnections : UInt32) (applySchema : Bool)
  | memory (seedPath : Option String)
deriving DecidableEq

/-- Where the messages are queued. -/
inductive BrokerChoice where
  | redis (url : String) (timeout : Wait)
  | memory
deriving DecidableEq

/-- The files that a secured server needs. -/
structure TlsPaths where
  cert : String
  key : String
deriving DecidableEq

/-- Checked settings. -/
structure Settings where
  port : UInt16
  logDir : String
  logLevel : String
  store : StoreChoice
  broker : BrokerChoice
  sweepInterval : Wait
  publishTimeout : Wait
  consumeBlock : Wait
  retry : RetryPolicy
  viewerBufferSize : Nat
  viewerWriteTimeout : Wait
  tls : Option TlsPaths
deriving DecidableEq

/-- Why a layer cannot be resolved. -/
inductive Unresolved where
  | noDatabaseUrl
  | unknownStore (name : String)
  | noRedisUrl
  | unknownBroker (name : String)
  | noSweepInterval
deriving DecidableEq

/-- The wording of a fault. -/
def Unresolved.message : Unresolved → String
  | .noDatabaseUrl => "databaseUrl is required for the postgres store"
  | .unknownStore name =>
    "unknown storeBackend '" ++ name ++ "' (expected postgres or memory)"
  | .noRedisUrl => "redisUrl is required for the redis broker"
  | .unknownBroker name =>
    "unknown brokerBackend '" ++ name ++ "' (expected redis or memory)"
  | .noSweepInterval => "sweepIntervalSeconds must be at least 1"

namespace Layer

def store (l : Layer) : Except Unresolved StoreChoice :=
  let name := l.storeBackend.getD "postgres"
  if name = "postgres" then
    match l.databaseUrl with
    | some url => .ok (.postgres url (l.dbMaxConnections.getD 10) (l.applySchema.getD false))
    | none => .error .noDatabaseUrl
  else if name = "memory" then .ok (.memory l.seedPath)
  else .error (.unknownStore name)

def broker (l : Layer) : Except Unresolved BrokerChoice :=
  let name := l.brokerBackend.getD "redis"
  if name = "redis" then
    match l.redisUrl with
    | some url => .ok (.redis url (.ofMillis (l.brokerTimeoutMs.getD 3000)))
    | none => .error .noRedisUrl
  else if name = "memory" then .ok .memory
  else .error (.unknownBroker name)

/-- The pause between sweeps, a second or more. -/
def sweepInterval (l : Layer) : Except Unresolved Wait :=
  let seconds := l.sweepIntervalSeconds.getD 10
  if seconds = 0 then .error .noSweepInterval else .ok (.ofSeconds seconds)

/-- The files of a secured server, if both are named. -/
def tls (l : Layer) : Option TlsPaths := do
  some ⟨← l.tlsCertPath, ← l.tlsKeyPath⟩

/-- The settings of a layer. -/
def resolve (l : Layer) : Except Unresolved Settings := do
  let store ← l.store
  let broker ← l.broker
  let sweepInterval ← l.sweepInterval
  .ok
    { port := l.port.getD 9010
      logDir := l.logDir.getD "./logs"
      logLevel := l.logLevel.getD "info"
      store, broker, sweepInterval
      publishTimeout := .ofMillis (l.publishTimeoutMs.getD 2000)
      consumeBlock := .ofMillis (l.consumeBlockMs.getD 5000)
      retry :=
        { base := .ofMillis (l.reconnectBaseDelayMs.getD 500)
          longest := .ofMillis (l.reconnectMaxDelayMs.getD 30000) }
      viewerBufferSize := max (l.viewerBufferSize.getD 16).toNat 1
      viewerWriteTimeout := .ofMillis (l.viewerWriteTimeoutMs.getD 5000)
      tls := l.tls }

/-! ## Putting the layers together -/

/-- The configuration file that is read when no other one is named. -/
def usualFile : String :=
  "server_rooms.conf"

/-- The file that the uppermost layer names. -/
def file (upper : Layer) : String :=
  upper.configPath.getD usualFile

def homeCertificate (home : String) : Layer :=
  let directory := Host.Path.join home ".letsencrypt"
  { tlsCertPath := some (Host.Path.join directory "fullchain.pem")
    tlsKeyPath := some (Host.Path.join directory "privkey.pem") }

/-- The layers put over each other: the certificate in the home directory if there is one, the defaults,
the text of the configuration file if it holds a layer, and the uppermost layer. -/
def load (home : Option String) (fileText : Option String) (upper : Layer) : Layer :=
  let file := (fileText.bind ofText?).getD {}
  upper.above (file.above (defaults.above ((home.map homeCertificate).getD {})))

end Layer

end Occupancy.Config
