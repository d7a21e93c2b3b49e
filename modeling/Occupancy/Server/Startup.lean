import Occupancy.Fanout.Link
import Occupancy.Fanout.Registry
import Occupancy.Fanout.Supervisor
import Occupancy.Redis.Address
import Occupancy.Server.Requests

/-!
# Starting the server

The backends that the settings name are opened, the store before the broker. A store on a database
has to answer a first statement; a store in memory is filled from its seed. A broker on Redis is not
connected yet, but its address has to make sense. The server then starts with the link down, without
viewers and without consumers.
-/

namespace Occupancy.Server

inductive StoreBackend where
  | memory (s : Store)
  | postgres

inductive BrokerBackend where
  | memory
  | redis (address : Redis.Address) (timeout : Wait)

/-- The server before its first task runs. -/
structure Application where
  store : StoreBackend
  broker : BrokerBackend
  link : Link := {}
  registry : Registry := {}
  supervisor : Supervisor := {}
  viewerBufferSize : Nat
  viewerWriteTimeout : Wait

namespace Startup

/-- A request of the store as one to the host. -/
def databaseCall (c : Postgres.Call) : Program Calls c.Reply :=
  ask (.database c)

/-- An operation on the database that must not fail. -/
def onDatabase {α : Type} (p : Postgres.Exchange α) (e : StartError) : Action α :=
  .mk <| (p.run.lift databaseCall).bind fun
    | .ok a => .done (.ok a)
    | .error _ => .done (.error e)

/-- Opens the store on Postgres. A pool without connections never opens. -/
def openPostgres (url : String) (maxConnections : UInt32) (applySchema : Bool) :
    Action StoreBackend := do
  let connected : Bool ← ExceptT.lift (ask (.openPool url maxConnections))
  orFail (if connected && maxConnections ≠ 0 then some () else none) .connectDatabase
  onDatabase Postgres.ping .pingDatabase
  if applySchema then onDatabase Postgres.createTables .createTables
  return .postgres

/-- Opens the store in memory, filled from a file if one is named. -/
def openMemory (seedPath : Option String) : Action StoreBackend := do
  match seedPath with
  | none => return .memory (.ofSeed {})
  | some path =>
    let text : Option String ← ExceptT.lift (ask (.read path))
    let seed ← orFail (Seed.ofText? (← orFail text (.readSeed path))) (.parseSeed path)
    return .memory (.ofSeed seed)

/-- Opens the store that the settings name. -/
def openStore : Config.StoreChoice → Action StoreBackend
  | .postgres url maxConnections applySchema => openPostgres url maxConnections applySchema
  | .memory seedPath => openMemory seedPath

/-- Opens the broker that the settings name. -/
def openBroker : Config.BrokerChoice → Action BrokerBackend
  | .redis url timeout => do
    let address ← orFail (Redis.Address.ofUrl? url) .openBroker
    return .redis address timeout
  | .memory => return .memory

/-- The view of a room at `now`, from an opened store. -/
def viewFrom (store : StoreBackend) (room : RoomId) (now : Instant) :
    Program Calls (Except Postgres.Failure RoomView) :=
  match store with
  | .memory s =>
    .done (match s.view room now with
      | .ok v => .ok v
      | .error (.refused e) => .error (.refused e)
      | .error .overflow => .error .overflow)
  | .postgres => (Postgres.view room now).run.lift databaseCall

/-- Opens the backends. -/
def run (s : Config.Settings) : Action Application := do
  let store ← openStore s.store
  let broker ← openBroker s.broker
  return {
    store, broker
    viewerBufferSize := s.viewerBufferSize
    viewerWriteTimeout := s.viewerWriteTimeout }

end Startup

end Occupancy.Server
