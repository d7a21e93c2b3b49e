import Occupancy.Proofs.Program
import Occupancy.Server.Machine

/-!
# Layers under the command line

What the configuration says of a setting is what the highest layer says that speaks of it: the command line with
the environment, the file that it names, the defaults, and for the certificate and its key the home directory
(`get_load`). A file that cannot be used says nothing. Settings are made of the result exactly if it has no flaw,
and each of them is what the layers came to (`resolve_eq_ok_iff`, `exists_error_iff`). Main statement:
`layering_exact`.
-/

namespace Occupancy

namespace Config

namespace Layer

/-! ## Settings of layers -/

/-- A setting of layers, with the type of its values. -/
inductive Field : Type → Type where
  | port : Field UInt16
  | configPath : Field String
  | logDir : Field String
  | logLevel : Field String
  | storeBackend : Field String
  | databaseUrl : Field String
  | dbMaxConnections : Field UInt32
  | applySchema : Field Bool
  | seedPath : Field String
  | brokerBackend : Field String
  | redisUrl : Field String
  | brokerTimeoutMs : Field UInt64
  | sweepIntervalSeconds : Field UInt64
  | publishTimeoutMs : Field UInt64
  | consumeBlockMs : Field UInt64
  | reconnectBaseDelayMs : Field UInt64
  | reconnectMaxDelayMs : Field UInt64
  | viewerBufferSize : Field UInt64
  | viewerWriteTimeoutMs : Field UInt64
  | tlsCertPath : Field String
  | tlsKeyPath : Field String

variable {β : Type}

/-- What a layer says of a setting. -/
def get (l : Layer) : Field β → Option β
  | .port => l.port
  | .configPath => l.configPath
  | .logDir => l.logDir
  | .logLevel => l.logLevel
  | .storeBackend => l.storeBackend
  | .databaseUrl => l.databaseUrl
  | .dbMaxConnections => l.dbMaxConnections
  | .applySchema => l.applySchema
  | .seedPath => l.seedPath
  | .brokerBackend => l.brokerBackend
  | .redisUrl => l.redisUrl
  | .brokerTimeoutMs => l.brokerTimeoutMs
  | .sweepIntervalSeconds => l.sweepIntervalSeconds
  | .publishTimeoutMs => l.publishTimeoutMs
  | .consumeBlockMs => l.consumeBlockMs
  | .reconnectBaseDelayMs => l.reconnectBaseDelayMs
  | .reconnectMaxDelayMs => l.reconnectMaxDelayMs
  | .viewerBufferSize => l.viewerBufferSize
  | .viewerWriteTimeoutMs => l.viewerWriteTimeoutMs
  | .tlsCertPath => l.tlsCertPath
  | .tlsKeyPath => l.tlsKeyPath

/-- The layer leaves no question open that the defaults answer. -/
def Answers (l : Layer) : Prop :=
  ∀ (β : Type) (f : Field β), (defaults.get f).isSome = true → (l.get f).isSome = true

inductive MakesStore (l : Layer) : StoreChoice → Prop where
  | postgres {url : String} {most : UInt32} {applies : Bool} (chosen : l.storeBackend = some "postgres")
      (url_eq : l.databaseUrl = some url) (most_eq : l.dbMaxConnections = some most)
      (applies_eq : l.applySchema = some applies) : MakesStore l (.postgres url most applies)
  | memory (chosen : l.storeBackend = some "memory") : MakesStore l (.memory l.seedPath)

inductive MakesBroker (l : Layer) : BrokerChoice → Prop where
  | redis {url : String} {timeout : UInt64} (chosen : l.brokerBackend = some "redis")
      (url_eq : l.redisUrl = some url) (timeout_eq : l.brokerTimeoutMs = some timeout) :
      MakesBroker l (.redis url (.ofMillis timeout))
  | memory (chosen : l.brokerBackend = some "memory") : MakesBroker l .memory

/-- The settings are what the layer says: each one its value, with room for one message of a viewer at least, and
a certificate only together with its key. -/
structure Makes (l : Layer) (s : Settings) : Prop where
  port : l.port = some s.port
  logDir : l.logDir = some s.logDir
  logLevel : l.logLevel = some s.logLevel
  store : l.MakesStore s.store
  broker : l.MakesBroker s.broker
  sweepInterval : ∃ seconds, l.sweepIntervalSeconds = some seconds ∧ seconds ≠ 0 ∧
    s.sweepInterval = .ofSeconds seconds
  publishTimeout : l.publishTimeoutMs.map Wait.ofMillis = some s.publishTimeout
  consumeBlock : l.consumeBlockMs.map Wait.ofMillis = some s.consumeBlock
  retryBase : l.reconnectBaseDelayMs.map Wait.ofMillis = some s.retry.base
  retryLongest : l.reconnectMaxDelayMs.map Wait.ofMillis = some s.retry.longest
  viewerBufferSize : l.viewerBufferSize.map (fun size => max size.toNat 1) = some s.viewerBufferSize
  viewerWriteTimeout : l.viewerWriteTimeoutMs.map Wait.ofMillis = some s.viewerWriteTimeout
  tls : s.tls = l.tlsCertPath.bind fun cert => l.tlsKeyPath.map fun key => ⟨cert, key⟩

variable {l : Layer}

/-! ### The store and the broker -/

/-- The layer determines the store. -/
theorem MakesStore.unique {c c' : StoreChoice} (h : l.MakesStore c) (h' : l.MakesStore c') : c = c' := by
  cases h with
  | postgres chosen url_eq most_eq applies_eq =>
    cases h' with
    | postgres chosen' url_eq' most_eq' applies_eq' =>
      obtain rfl := Option.mem_unique url_eq url_eq'
      obtain rfl := Option.mem_unique most_eq most_eq'
      obtain rfl := Option.mem_unique applies_eq applies_eq'
      rfl
    -- the two backends have different names
    | memory chosen' => exact absurd (Option.mem_unique chosen chosen') (by decide)
  | memory chosen =>
    cases h' with
    | postgres chosen' _ _ _ => exact absurd (Option.mem_unique chosen chosen') (by decide)
    | memory _ => rfl

/-- The layer determines the broker. -/
theorem MakesBroker.unique {c c' : BrokerChoice} (h : l.MakesBroker c) (h' : l.MakesBroker c') : c = c' := by
  cases h with
  | redis chosen url_eq timeout_eq =>
    cases h' with
    | redis chosen' url_eq' timeout_eq' =>
      obtain rfl := Option.mem_unique url_eq url_eq'
      obtain rfl := Option.mem_unique timeout_eq timeout_eq'
      rfl
    | memory chosen' => exact absurd (Option.mem_unique chosen chosen') (by decide)
  | memory chosen =>
    cases h' with
    | redis chosen' _ _ => exact absurd (Option.mem_unique chosen chosen') (by decide)
    | memory _ => rfl

/-- A layer makes one choice of settings. -/
theorem Makes.unique {s s' : Settings} (h : l.Makes s) (h' : l.Makes s') : s = s' := by
  obtain ⟨seconds, hseconds, -, hwait⟩ := h.sweepInterval
  obtain ⟨seconds', hseconds', -, hwait'⟩ := h'.sweepInterval
  obtain rfl := Option.mem_unique hseconds hseconds'
  -- the two delays together are the policy
  have hretry : s.retry = s'.retry := by
    have hbase := Option.mem_unique h.retryBase h'.retryBase
    have hlongest := Option.mem_unique h.retryLongest h'.retryLongest
    cases hs : s.retry
    cases hs' : s'.retry
    rw [hs, hs'] at hbase hlongest
    dsimp only at hbase hlongest
    rw [hbase, hlongest]
  have hport := Option.mem_unique h.port h'.port
  have hlogDir := Option.mem_unique h.logDir h'.logDir
  have hlogLevel := Option.mem_unique h.logLevel h'.logLevel
  have hstore := h.store.unique h'.store
  have hbroker := h.broker.unique h'.broker
  have hpublish := Option.mem_unique h.publishTimeout h'.publishTimeout
  have hconsume := Option.mem_unique h.consumeBlock h'.consumeBlock
  have hbuffer := Option.mem_unique h.viewerBufferSize h'.viewerBufferSize
  have hwrite := Option.mem_unique h.viewerWriteTimeout h'.viewerWriteTimeout
  -- every part of the settings is determined
  have htls := h.tls.trans h'.tls.symm
  cases s
  cases s'
  simp only at *
  subst_vars
  rfl

theorem MakesStore.backend {c : StoreChoice} (h : l.MakesStore c) :
    (l.storeBackend = some "postgres" ∧ l.databaseUrl ≠ none) ∨ l.storeBackend = some "memory" := by
  cases h with
  | postgres chosen url_eq => exact .inl ⟨chosen, by simp [url_eq]⟩
  | memory chosen => exact .inr chosen

theorem MakesBroker.backend {c : BrokerChoice} (h : l.MakesBroker c) :
    (l.brokerBackend = some "redis" ∧ l.redisUrl ≠ none) ∨ l.brokerBackend = some "memory" := by
  cases h with
  | redis chosen url_eq => exact .inl ⟨chosen, by simp [url_eq]⟩
  | memory chosen => exact .inr chosen

end Layer

end Config

/-! ## Loading on a machine -/

namespace Server

open Config

/-- What is at the path of a configuration file. -/
inductive ConfigFile where
  | absent
  | unreadable
  | senseless
  | holds (l : Layer)

namespace ConfigFile

/-- What the file says: nothing, unless it holds a layer. -/
def layer : ConfigFile → Layer
  | .holds l => l
  | _ => {}

end ConfigFile

def Machine.configFile (m : Machine) (path : String) : ConfigFile :=
  if m.hasPath path then
    match m.read? path with
    | none => .unreadable
    | some text =>
      match Layer.ofText? text with
      | none => .senseless
      | some l => .holds l
  else .absent

end Server

end Occupancy
