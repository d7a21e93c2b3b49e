import Occupancy.Table
import Occupancy.Topic

/-!
# The broker in memory

Queues of unread messages, one for each topic, bounded by dropping the oldest message. With a bound
of one a queue is a register that holds the latest value. The broker can be cut off and made to
refuse connections.

A message that waits unread outlives the loss of the connection; what is forgotten then is which
topics were declared, and queues without a message.
-/

namespace Occupancy

/-- A message handed to a reader. -/
structure Delivery where
  /-- The broker's name for the message. -/
  id : String
  payload : String
deriving DecidableEq

/-- A message in a queue, with its serial number. -/
structure Message where
  serial : UInt64
  payload : String
deriving DecidableEq

def Message.delivery (m : Message) : Delivery :=
  ⟨Decimal.text m.serial.toNat ++ "-0", m.payload⟩

/-- A queue of unread messages, oldest first. -/
structure Queue where
  /-- Tells this queue from others that the topic had or will have. -/
  id : Nat
  /-- The most unread messages, at least one. -/
  limit : Nat
  unread : List Message

/-- The queue with a message put last and the oldest messages dropped to keep the bound. -/
def Queue.push (q : Queue) (m : Message) : Queue :=
  let all := q.unread ++ [m]
  { q with unread := all.drop (all.length - q.limit) }

/-- The state of the broker. -/
structure MemoryBroker where
  queues : Table Topic Queue := ∅
  declared : List Topic := []
  connected : Bool := false
  /-- How many of the next attempts to connect are refused. -/
  refusals : Nat := 0
  /-- How many connections were made. -/
  connects : UInt64 := 0
  nextSerial : UInt64 := 0
  nextQueue : Nat := 0

namespace MemoryBroker

/-! ## The connection -/

/-- Connects, unless the attempt is refused. Connecting again changes nothing. -/
def connect (b : MemoryBroker) : Except BrokerError Unit × MemoryBroker :=
  match b.refusals with
  | n + 1 => (.error (.connect "connection refused"), { b with refusals := n })
  | 0 =>
    if b.connected then (.ok (), b)
    else (.ok (), { b with connected := true, connects := b.connects + 1 })

/-- Cuts the connection. -/
def sever (b : MemoryBroker) : MemoryBroker :=
  { b with connected := false }

/-- Makes the next attempts to connect fail. -/
def refuse (b : MemoryBroker) (count : Nat) : MemoryBroker :=
  { b with refusals := count }

/-- Drops the connection, the declarations and the queues without a message. -/
def teardown (b : MemoryBroker) : MemoryBroker :=
  { b with
    connected := false
    declared := []
    queues := b.queues.filter fun _ q => !q.unread.isEmpty }

/-! ## Queues -/

def declare (b : MemoryBroker) (t : Topic) (limit : Nat) : Except BrokerError MemoryBroker :=
  if !b.connected then .error .disconnected
  else
    let b := { b with declared := if t ∈ b.declared then b.declared else b.declared ++ [t] }
    if b.queues.contains t then .ok b
    else .ok { b with
      queues := b.queues.set t ⟨b.nextQueue, max limit 1, []⟩
      nextQueue := b.nextQueue + 1 }

def queue (b : MemoryBroker) (t : Topic) : Except BrokerError Queue :=
  match b.queues.get? t with
  | some q =>
    if t ∈ b.declared then .ok q
    else .error (.protocol ("queue " ++ t.text ++ " is not declared"))
  | none => .error (.protocol ("queue " ++ t.text ++ " is not declared"))

/-- Puts a message into the queue of a topic. -/
def publish (b : MemoryBroker) (t : Topic) (payload : String) : Except BrokerError MemoryBroker :=
  if !b.connected then .error .disconnected
  else
    match b.queue t with
    | .error e => .error e
    | .ok q => .ok { b with
        queues := b.queues.set t (q.push ⟨b.nextSerial, payload⟩)
        nextSerial := b.nextSerial + 1 }

/-- Takes the oldest message out of the queue with number `id`, if the topic still has that queue.
A queue that the topic lost had no message. -/
def pop (b : MemoryBroker) (t : Topic) (id : Nat) : Option Delivery × MemoryBroker :=
  match b.queues.get? t with
  | none => (none, b)
  | some q =>
    if q.id ≠ id then (none, b)
    else
      match q.unread with
      | [] => (none, b)
      | m :: rest => (some m.delivery, { b with queues := b.queues.set t { q with unread := rest } })

/-- Takes the oldest message of a topic, or answers that there is none right now. -/
def receive (b : MemoryBroker) (t : Topic) : Except BrokerError (Option Delivery × MemoryBroker) :=
  if !b.connected then .error .disconnected
  else
    match b.queue t with
    | .error e => .error e
    | .ok q => .ok (b.pop t q.id)

/-- Confirms that a message was passed on. -/
def ack (b : MemoryBroker) : Except BrokerError Unit :=
  if b.connected then .ok () else .error .disconnected

/-- The number of unread messages of a topic. -/
def depth (b : MemoryBroker) (t : Topic) : Nat :=
  ((b.queues.get? t).map (·.unread.length)).getD 0

end MemoryBroker

end Occupancy
