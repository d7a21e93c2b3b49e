import Occupancy.CommandLine
import Occupancy.Json.Reader

/-!
# Configuration layers

A layer says something about some of the settings and is silent about the others. The defaults, the
configuration file, and the command line with the environment are one layer each; `above` puts one
layer over another.

Each setting has one key in files, one option on the command line and one environment variable.
-/

namespace Occupancy.Config

open Json CommandLine

/-- A layer of settings. -/
structure Layer where
  port : Option UInt16 := none
  configPath : Option String := none
  logDir : Option String := none
  logLevel : Option String := none
  storeBackend : Option String := none
  databaseUrl : Option String := none
  dbMaxConnections : Option UInt32 := none
  applySchema : Option Bool := none
  seedPath : Option String := none
  brokerBackend : Option String := none
  redisUrl : Option String := none
  brokerTimeoutMs : Option UInt64 := none
  sweepIntervalSeconds : Option UInt64 := none
  publishTimeoutMs : Option UInt64 := none
  consumeBlockMs : Option UInt64 := none
  reconnectBaseDelayMs : Option UInt64 := none
  reconnectMaxDelayMs : Option UInt64 := none
  viewerBufferSize : Option UInt64 := none
  viewerWriteTimeoutMs : Option UInt64 := none
  tlsCertPath : Option String := none
  tlsKeyPath : Option String := none
deriving DecidableEq

namespace Layer

/-- The layer `upper` over the layer `lower`: what the upper one says counts. -/
def above (upper lower : Layer) : Layer where
  port := upper.port <|> lower.port
  configPath := upper.configPath <|> lower.configPath
  logDir := upper.logDir <|> lower.logDir
  logLevel := upper.logLevel <|> lower.logLevel
  storeBackend := upper.storeBackend <|> lower.storeBackend
  databaseUrl := upper.databaseUrl <|> lower.databaseUrl
  dbMaxConnections := upper.dbMaxConnections <|> lower.dbMaxConnections
  applySchema := upper.applySchema <|> lower.applySchema
  seedPath := upper.seedPath <|> lower.seedPath
  brokerBackend := upper.brokerBackend <|> lower.brokerBackend
  redisUrl := upper.redisUrl <|> lower.redisUrl
  brokerTimeoutMs := upper.brokerTimeoutMs <|> lower.brokerTimeoutMs
  sweepIntervalSeconds := upper.sweepIntervalSeconds <|> lower.sweepIntervalSeconds
  publishTimeoutMs := upper.publishTimeoutMs <|> lower.publishTimeoutMs
  consumeBlockMs := upper.consumeBlockMs <|> lower.consumeBlockMs
  reconnectBaseDelayMs := upper.reconnectBaseDelayMs <|> lower.reconnectBaseDelayMs
  reconnectMaxDelayMs := upper.reconnectMaxDelayMs <|> lower.reconnectMaxDelayMs
  viewerBufferSize := upper.viewerBufferSize <|> lower.viewerBufferSize
  viewerWriteTimeoutMs := upper.viewerWriteTimeoutMs <|> lower.viewerWriteTimeoutMs
  tlsCertPath := upper.tlsCertPath <|> lower.tlsCertPath
  tlsKeyPath := upper.tlsKeyPath <|> lower.tlsKeyPath

/-- The lowest layer. -/
def defaults : Layer where
  port := some 9010
  logDir := some "./logs"
  logLevel := some "info"
  storeBackend := some "postgres"
  dbMaxConnections := some 10
  applySchema := some false
  brokerBackend := some "redis"
  brokerTimeoutMs := some 3000
  sweepIntervalSeconds := some 10
  publishTimeoutMs := some 2000
  consumeBlockMs := some 5000
  reconnectBaseDelayMs := some 500
  reconnectMaxDelayMs := some 30000
  viewerBufferSize := some 16
  viewerWriteTimeoutMs := some 5000

end Layer

/-! ## Kinds of values -/

/-- A kind of values of settings: how they stand in words, in files and in answers. -/
structure Kind (β : Type) where
  /-- Reads a value from a word of a command line. -/
  ofText : String → Except Refusal β
  /-- Reads a value from a file. -/
  read : Reader β
  /-- A value as JSON. -/
  toJson : β → Value

namespace Kind

def text : Kind String where
  ofText := .ok
  read := Tree.readText
  toJson := .text

/-- A path; on a command line it is not empty. -/
def path : Kind String where
  ofText s := if s = "" then .error .unusableValue else .ok s
  read := Tree.readText
  toJson := .text

def truth : Kind Bool where
  ofText s :=
    if s = "true" then .ok true else if s = "false" then .ok false else .error .unusableValue
  read := Tree.readBool
  toJson := .bool

/-- A natural number, or an error where there is none. -/
def orUnreadable {β : Type} (ofNat : Nat → β) (n : Option Nat) : Except Refusal β :=
  match n with
  | some n => .ok (ofNat n)
  | none => .error .unreadableValue

/-- A number below a bound that is smaller than a signed word; a minus sign may stand before zero. -/
def small {β : Type} (limit : Nat) (ofNat : Nat → β) (toNat : β → Nat) : Kind β where
  ofText s := orUnreadable ofNat <|
    (Decimal.integer? s.toList).bind fun i => if 0 ≤ i ∧ i ≤ limit then some i.toNat else none
  read t := (Tree.readNat limit t).map ofNat
  toJson b := .natural (toNat b)

def port : Kind UInt16 :=
  small 65535 UInt16.ofNat UInt16.toNat

/-- A number of things. -/
def count : Kind UInt32 :=
  small 4294967295 UInt32.ofNat UInt32.toNat

/-- A number of milliseconds, seconds or messages. -/
def amount : Kind UInt64 where
  ofText s := orUnreadable UInt64.ofNat (Decimal.readNat? 18446744073709551615 s)
  read t := (Tree.readNat 18446744073709551615 t).map UInt64.ofNat
  toJson b := .natural b.toNat

end Kind

/-! ## Settings by name -/

/-- A setting: its key, option and variable, and its place in a layer. -/
structure Setting where
  key : String
  option : Opt Layer
  /-- The field of the key, for a layer with the keys given so far. -/
  field : Member (Layer × List String)
  /-- The setting of a layer as JSON. -/
  toJson : Layer → Value

/-- The setting with a kind of values and a place in layers. -/
def Setting.of {β : Type} (key name variableName : String) (kind : Kind β)
    (get : Layer → Option β) (put : Layer → β → Layer) : Setting where
  key := key
  option :=
    { name, environmentName := some variableName
      isGiven := fun l => (get l).isSome
      take := fun s l => (kind.ofText s).map (put l) }
  field :=
    { name := key
      isGiven := fun (_, given) => given.contains key
      take := fun (l, given) t =>
        (Tree.readOption kind.read t).map fun b =>
          ((b.map (put l)).getD l, key :: given) }
  toJson l := .option kind.toJson (get l)

/-- All settings, in the order of the fields of a layer. -/
def settings : List Setting :=
  [.of "port" "port" "ROOMS_PORT" .port (·.port) fun l v => { l with port := some v },
   .of "configPath" "config-path" "ROOMS_CONFIG_PATH" .path (·.configPath)
    fun l v => { l with configPath := some v },
   .of "logDir" "log-dir" "ROOMS_LOG_DIR" .path (·.logDir) fun l v => { l with logDir := some v },
   .of "logLevel" "log-level" "ROOMS_LOG_LEVEL" .text (·.logLevel)
    fun l v => { l with logLevel := some v },
   .of "storeBackend" "store-backend" "ROOMS_STORE_BACKEND" .text (·.storeBackend)
    fun l v => { l with storeBackend := some v },
   .of "databaseUrl" "database-url" "DATABASE_URL" .text (·.databaseUrl)
    fun l v => { l with databaseUrl := some v },
   .of "dbMaxConnections" "db-max-connections" "ROOMS_DB_MAX_CONNECTIONS" .count
    (·.dbMaxConnections) fun l v => { l with dbMaxConnections := some v },
   .of "applySchema" "apply-schema" "ROOMS_APPLY_SCHEMA" .truth (·.applySchema)
    fun l v => { l with applySchema := some v },
   .of "seedPath" "seed-path" "ROOMS_SEED_PATH" .path (·.seedPath)
    fun l v => { l with seedPath := some v },
   .of "brokerBackend" "broker-backend" "ROOMS_BROKER_BACKEND" .text (·.brokerBackend)
    fun l v => { l with brokerBackend := some v },
   .of "redisUrl" "redis-url" "REDIS_URL" .text (·.redisUrl)
    fun l v => { l with redisUrl := some v },
   .of "brokerTimeoutMs" "broker-timeout-ms" "ROOMS_BROKER_TIMEOUT_MS" .amount
    (·.brokerTimeoutMs) fun l v => { l with brokerTimeoutMs := some v },
   .of "sweepIntervalSeconds" "sweep-interval-seconds" "ROOMS_SWEEP_INTERVAL_SECONDS" .amount
    (·.sweepIntervalSeconds) fun l v => { l with sweepIntervalSeconds := some v },
   .of "publishTimeoutMs" "publish-timeout-ms" "ROOMS_PUBLISH_TIMEOUT_MS" .amount
    (·.publishTimeoutMs) fun l v => { l with publishTimeoutMs := some v },
   .of "consumeBlockMs" "consume-block-ms" "ROOMS_CONSUME_BLOCK_MS" .amount
    (·.consumeBlockMs) fun l v => { l with consumeBlockMs := some v },
   .of "reconnectBaseDelayMs" "reconnect-base-delay-ms" "ROOMS_RECONNECT_BASE_DELAY_MS" .amount
    (·.reconnectBaseDelayMs) fun l v => { l with reconnectBaseDelayMs := some v },
   .of "reconnectMaxDelayMs" "reconnect-max-delay-ms" "ROOMS_RECONNECT_MAX_DELAY_MS" .amount
    (·.reconnectMaxDelayMs) fun l v => { l with reconnectMaxDelayMs := some v },
   .of "viewerBufferSize" "viewer-buffer-size" "ROOMS_VIEWER_BUFFER_SIZE" .amount
    (·.viewerBufferSize) fun l v => { l with viewerBufferSize := some v },
   .of "viewerWriteTimeoutMs" "viewer-write-timeout-ms" "ROOMS_VIEWER_WRITE_TIMEOUT_MS" .amount
    (·.viewerWriteTimeoutMs) fun l v => { l with viewerWriteTimeoutMs := some v },
   .of "tlsCertPath" "tls-cert-path" "TLS_CERT_PATH" .path (·.tlsCertPath)
    fun l v => { l with tlsCertPath := some v },
   .of "tlsKeyPath" "tls-key-path" "TLS_KEY_PATH" .path (·.tlsKeyPath)
    fun l v => { l with tlsKeyPath := some v }]

namespace Layer

/-- A layer as JSON; silence is null. -/
def toJson (l : Layer) : Value :=
  .object (settings.map fun s => (s.key, s.toJson l))

/-- Reads a layer from a file. A key that is missing or null says nothing. -/
def read : Reader Layer :=
  readRecord (settings.map (·.field)) (({} : Layer), []) fun (l, _) => some l

def ofText? (s : String) : Option Layer :=
  (readText read s).toOption

def ofCommandLine (environment : String → Option String) (words : List String) :
    Except Refusal Layer :=
  CommandLine.read (settings.map (·.option)) environment {} words

end Layer

end Occupancy.Config
