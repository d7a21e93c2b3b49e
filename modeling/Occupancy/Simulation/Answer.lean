import Occupancy.Broker.Memory
import Occupancy.Fanout.Socket
import Occupancy.Http.Routes
import Occupancy.Operation.Sweep

/-!
# Answers of a simulation

What a step of a simulated server results in.
-/

namespace Occupancy.Simulation

/-- What a viewer's client got. -/
inductive Frame where
  | text (payload : String)
  | close
  /-- The connection is gone. -/
  | ended
deriving DecidableEq

/-- What a reader of a viewer's queue met last. -/
inductive QueueEnd where
  /-- One payload was read. -/
  | opened
  /-- Nothing waits. -/
  | empty
  | closed
deriving DecidableEq

/-- The result of a step. -/
inductive Answer where
  | unit
  | flag (b : Bool)
  | number (n : Nat)
  | instant (i : Instant)
  /-- A result is out of range; the step had no effect. -/
  | overflow
  /-- The step waits for more than a day. -/
  | stuck
  /-- The request has no valid target. -/
  | badTarget
  | refused (e : RoomError)
  | broken (e : BrokerError)
  | view (v : RoomView)
  | views (vs : List RoomView)
  | commit (c : Commit)
  | commits (cs : List Commit)
  | opened (id : SessionId)
  | sessions (ss : List Session)
  | rooms (ids : List RoomId)
  | device (d : Option Device)
  | toggles (ts : List (DeviceId × Bool))
  | race (succeeded : Nat) (errors : List RoomError)
  | swept (r : SweepReport)
  | received (d : Option Delivery) (waited : Option Nat)
  | waiting
  | established (up : Bool) (elapsed : Nat)
  | link (s : LinkState)
  | observed (changed : Bool) (s : LinkState)
  | published (r : PublishReport)
  | topics (ts : List Topic)
  | names (ns : List String)
  | name (n : Option String)
  | registry (buckets : List (Topic × Nat)) (total : Nat)
  | delivery (r : Except DeliveryError Unit)
  | viewer (closed : Bool) (token : Option Bool)
  | messages (ms : List String) (ending : QueueEnd)
  | fannedOut (r : FanOutReport)
  | broker (connected : Bool) (connects : Nat) (calls : List (String × Nat))
  | response (r : Http.Response)
  | upgraded
  | frames (fs : List Frame)

end Occupancy.Simulation
