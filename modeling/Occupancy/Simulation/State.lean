import Occupancy.Fanout.Consumer
import Occupancy.Fanout.Manager
import Occupancy.Fanout.Retry
import Occupancy.Simulation.Answer
import Occupancy.Simulation.Fault

/-!
# State of a simulated server

A whole server on one thread: the store with its clock, the broker, the fanout, and the tasks that
run over them. Time that is waited for is virtual, in milliseconds, and apart from the clock of the
store. A task that waits is listed with what it waits for; when that happens, it queues up to go on.
-/

namespace Occupancy.Simulation

/-- Number of a task. The step under way is task zero. -/
abbrev TaskId := Nat

/-- Number of a viewer's connection. -/
abbrev SocketId := Nat

/-- The settings of a simulated server, in milliseconds where they are times. -/
structure Settings where
  publishTimeout : Nat
  receiveWait : Nat
  retry : RetryPolicy
  viewerBuffer : Nat
  writeTimeout : Nat

/-! ## Calls -/

/-- Everything that tasks and steps ask of the server. -/
inductive Call where
  | store (c : StoreCall)
  | publish (c : PublishCall)
  | consume (c : ConsumeCall)
  | manage (c : ManageCall)
  | socket (s : SocketId) (c : SocketCall)
  /-- Publish a view on a task of its own; answers the task. -/
  | spawnPublish (v : RoomView)
  | health
  /-- The virtual time. -/
  | time
  | sleep (ms : Nat)
  /-- Wait for the given time; answers the time when it came, or none if the end was called. -/
  | tick (due : Nat)
  /-- Wait for a task and answer its result. -/
  | join (t : TaskId)
  /-- Call the end. -/
  | shutdown
  | connect
  | declare (t : Topic) (limit : Nat)
  | put (t : Topic) (payload : String)
  | receive (t : Topic) (ms : Nat)
  | ack (t : Topic)

def Call.Reply : Call → Type
  | .store c => c.Reply
  | .publish c => c.Reply
  | .consume c => c.Reply
  | .manage c => c.Reply
  | .socket _ c => c.Reply
  | .spawnPublish _ => TaskId
  | .health => Http.Health
  | .time => Nat
  | .sleep _ => Unit
  | .tick _ => Option Nat
  | .join _ => Answer
  | .shutdown => Unit
  | .connect => Except BrokerError Unit
  | .declare _ _ => Except BrokerError Unit
  | .put _ _ => Except BrokerError Unit
  | .receive _ _ => Except BrokerError (Option Delivery)
  | .ack _ => Except BrokerError Unit

/-- The requests of simulated tasks. -/
abbrev Calls : Signature :=
  ⟨Call, Call.Reply⟩

/-! ## Tasks -/

/-- What follows when the program of a task has run to its end. -/
inductive Next where
  | answered (a : Answer)
  | consumer (t : Topic) (g : Generation) (n : Consume.Next)
  | socket (s : SocketId) (t : Topic) (n : Socket.Next)
  /-- The manager's attempt to connect has ended. -/
  | dialled (attempt : Nat) (d : Manage.Dialled)
  /-- The manager's connection has ended; was the end called? -/
  | served (ended : Bool)
  /-- An attempt to connect within a step that started at a given time. -/
  | establishing (start attempt : Nat) (d : Manage.Dialled)
  /-- The sweeper waits for the given time next. -/
  | sweeper (due period : Nat)

/-- Something that a task waits for. -/
inductive Interest where
  /-- A message in a queue of the broker, or the loss of the connection. -/
  | queue (id : Nat)
  | cancelled (g : Generation)
  | linkDown
  | shutdown
  | appShutdown
  | inbox (v : ViewerId)
  | socket (s : SocketId)
  | finished (t : TaskId)
deriving DecidableEq

/-- How a task was told of a message. Being the only one told is passed on if the task does not
look. -/
inductive Notice where
  | none
  | alone
  | together
deriving DecidableEq

/-- What a task remembers of the call that it waits in. -/
inductive Hold where
  /-- It does not wait in a call. -/
  | fresh
  | sleeping (due : Nat)
  | reading (queue due : Nat)
  | forever
deriving DecidableEq

structure Task where
  program : Program Calls Next
  hold : Hold := .fresh
  interests : List Interest := []
  due : Option Nat := none
  /-- When the task began to wait, compared with others. -/
  since : Nat := 0
  notice : Notice := .none
  /-- How often the end had been called when the task started to listen for it. -/
  endsSeen : Nat := 0

/-! ## Connections of viewers -/

inductive ClientFrame where
  | data
  | close
deriving DecidableEq

/-- A viewer's connection, both sides. -/
structure Connection where
  /-- Does the client never read? -/
  stalled : Bool
  /-- How many octets the way to a client that does not read holds. -/
  capacity : Nat
  /-- How many of them are taken. -/
  used : Nat := 0
  /-- Is the client gone? -/
  gone : Bool := false
  /-- Has the server ended the connection? -/
  ended : Bool := false
  sent : List ClientFrame := []
  got : List Frame := []

/-! ## The server -/

/-- A simulated server. -/
structure World where
  settings : Settings
  /-- The clock of the store. -/
  now : Instant
  store : Store
  /-- How many sessions were opened. -/
  opened : Nat := 0
  storeFaults : List (Fault StoreTarget RoomError) := []
  brokerFaults : List (Fault BrokerTarget BrokerError) := []
  broker : MemoryBroker := {}
  /-- The calls of the broker that are counted, in order of their first. -/
  brokerCalls : Table String Nat := ∅
  link : Link := {}
  pending : Pending := {}
  registry : Registry := {}
  supervisor : Supervisor := {}
  /-- Was the server told to close its connections? -/
  appShutdown : Bool := false
  /-- How often the end was called. -/
  ends : Nat := 0
  /-- The virtual time in milliseconds. -/
  time : Nat := 0
  /-- The tasks that have not ended. -/
  tasks : Table TaskId Task := ∅
  /-- The results of the tasks that have. -/
  results : Table TaskId Answer := ∅
  /-- Tasks that can go on, in the order in which they do. -/
  ready : List TaskId := []
  nextTask : TaskId := 1
  nextSince : Nat := 0
  connections : Table SocketId Connection := ∅
  nextSocket : SocketId := 0
  viewerNames : Table String ViewerId := ∅
  readers : Table String TaskId := ∅
  watches : Table String Nat := ∅
  clients : Table String SocketId := ∅
  manager : Option TaskId := none
  sweeper : Option TaskId := none

namespace World

/-- The server before its first step. -/
def new (settings : Settings) (seed : Seed) (now : Instant) : World where
  settings := settings
  now := now
  store := Store.ofSeed seed

/-! ## Waking tasks -/

/-- Puts a task last among those that can go on, unless it is there. -/
def enqueue (w : World) (t : TaskId) : World :=
  if t ∈ w.ready then w else { w with ready := w.ready ++ [t] }

/-- The tasks that wait for something, those first that have waited longest. -/
def waiters (w : World) (i : Interest) : List TaskId :=
  let waiting := w.tasks.entries.filter fun (_, t) => i ∈ t.interests
  (waiting.mergeSort fun a b => a.2.since ≤ b.2.since).map Prod.fst

/-- Lets every task go on that waits for something. -/
def wake (w : World) (i : Interest) : World :=
  (w.waiters i).foldl enqueue w

/-- Notes how a task was told of a message, and lets it go on. -/
def tell (w : World) (n : Notice) (queue : Nat) (t : TaskId) : World :=
  { w with tasks := w.tasks.modify t fun task =>
      { task with notice := n, interests := task.interests.filter (· ≠ Interest.queue queue) } }.enqueue t

/-- Tells the task that has waited longest of a message in a queue. -/
def notifyOne (w : World) (queue : Nat) : World :=
  match w.waiters (.queue queue) with
  | [] => w
  | t :: _ => w.tell .alone queue t

/-- Tells every task that waits for a queue to look again. -/
def notifyAll (w : World) (queue : Nat) : World :=
  (w.waiters (.queue queue)).foldl (fun w t => w.tell .together queue t) w

/-- Tells every task that waits for any queue to look again. -/
def notifyQueues (w : World) : World :=
  (w.broker.queues.values.map (·.id)).foldl notifyAll w

def spawn (w : World) (program : Program Calls Next) : TaskId × World :=
  (w.nextTask,
    { w with
      tasks := w.tasks.set w.nextTask { program, endsSeen := w.ends }
      nextTask := w.nextTask + 1
      ready := w.ready ++ [w.nextTask] })

/-! ## Changes that others notice -/

def setLink (w : World) (l : Link) : World :=
  let w := { w with link := l }
  if l.state = .down then w.wake .linkDown else w

def reportFailure (w : World) (e : BrokerError) : World :=
  w.setLink (w.link.report e)

/-- Replaces the registry and lets the given viewers' readers go on. -/
def setRegistry (w : World) (r : Registry) (touched : List ViewerId) : World :=
  touched.foldl (fun w v => w.wake (.inbox v)) { w with registry := r }

def count (w : World) (call : String) : World :=
  { w with brokerCalls := w.brokerCalls.alter call fun n => n.getD 0 + 1 }

end World

end Occupancy.Simulation
