import Occupancy.Broker.Memory
import Occupancy.Redis.Book
import Occupancy.Redis.Reply
import Occupancy.Uuid

/-!
# The broker on Redis

Each topic is a stream that keeps one entry, and each server process reads through a group of its
own. Declaring, publishing and confirming share one connection; every topic that is read has another
one, since a read holds its connection until it returns. Every dial and every command has a limit of
time. Closing destroys the groups that this process created.

Each operation is a program of sections on the book, dials and commands, in which other operations
may come between any two of them.
-/

namespace Occupancy.Redis

/-! ## Requests -/

/-- What became of a command. -/
inductive Outcome where
  | reply (r : Reply)
  /-- The connection is gone. -/
  | lost
  /-- No reply came within the limit. -/
  | late

/-- Why no connection was dialled. -/
inductive DialFault where
  | refused
  /-- No connection stood within the limit. -/
  | late
deriving DecidableEq

/-- What the broker asks of its book and of the network. -/
inductive Call where
  | book (s : Section)
  | dial
  | command (c : Connection) (words : List String) (limit : Wait)

def Call.Reply : Call → Type
  | .book s => s.Reply
  | .dial => Except DialFault Connection
  | .command _ _ _ => Outcome

/-- The requests of the broker. -/
abbrev Calls : Signature :=
  ⟨Call, Call.Reply⟩

/-- Why an operation failed. -/
inductive Failure where
  | disconnected
  /-- The server could not be reached. -/
  | unreachable
  /-- A dial or a command took longer than the limit. -/
  | late (limit : Wait)
  /-- The server answered with an error. -/
  | refused (text : String)
  /-- The reply has another form than the command calls for. -/
  | misfit
  | noPayload (id : String) (t : Topic)
deriving DecidableEq

def Failure.toBrokerError : Failure → BrokerError
  | .disconnected => .disconnected
  | .unreachable => .connect "no connection"
  | .late limit => .timeout limit
  | .refused text => .protocol text
  | .misfit => .protocol "unexpected reply"
  | .noPayload id t => .protocol ("entry " ++ id ++ " on " ++ t.text ++ " has no payload")

abbrev Exchange (α : Type) :=
  Program Calls (Except Failure α)

/-! ## Commands -/

/-- The field of an entry that holds the message. -/
def payloadField : String :=
  "payload"

/-- The name under which a process reads in its group. -/
def consumerName : String :=
  "fanout"

def groupName (process : Uuid) : String :=
  "rooms-" ++ String.ofList (Uuid.hex 32 process.toNat)

/-- Asks whether the server is there. -/
def pingCommand : List String :=
  ["PING"]

/-- Creates a group that starts with what already stands in the stream. -/
def createCommand (group : String) (t : Topic) : List String :=
  ["XGROUP", "CREATE", t.text, group, "0", "MKSTREAM"]

/-- Destroys a group. -/
def destroyCommand (group : String) (t : Topic) : List String :=
  ["XGROUP", "DESTROY", t.text, group]

/-- Makes a message the only entry of its stream. -/
def addCommand (t : Topic) (payload : String) : List String :=
  ["XADD", t.text, "MAXLEN", "1", "*", payloadField, payload]

/-- Reads one entry that the group has not read, waiting for it. -/
def readCommand (group : String) (t : Topic) (milliseconds : Nat) : List String :=
  ["XREADGROUP", "GROUP", group, consumerName, "BLOCK", Decimal.text milliseconds, "COUNT", "1",
    "STREAMS", t.text, ">"]

/-- Confirms an entry. -/
def ackCommand (group : String) (t : Topic) (id : String) : List String :=
  ["XACK", t.text, group, id]

/-- The whole milliseconds that a read waits on the server: one at least, as zero would be for ever,
and at most what the server can be told. -/
def blockMilliseconds (wait : Wait) : Nat :=
  max (min (wait.nanos / 1000000) 18446744073709551615) 1

/-! ## Replies -/

/-- The reply of an outcome, unless it is or holds an error. -/
def answered (limit : Wait) : Outcome → Except Failure Reply
  | .lost => .error .disconnected
  | .late => .error (.late limit)
  | .reply r =>
    match r.firstFailure with
    | some text => .error (.refused text)
    | none => .ok r

/-- The connection that was dialled, or why there is none. -/
def dialled (limit : Wait) : Except DialFault Connection → Except Failure Connection
  | .ok c => .ok c
  | .error .refused => .error .unreachable
  | .error .late => .error (.late limit)

/-- What is read from a reply, or the fault that it does not fit. -/
def fitting {α : Type} (value : Option α) : Except Failure α :=
  match value with
  | some a => .ok a
  | none => .error .misfit

/-- A group that is already there counts as created. -/
def created (result : Except Failure Reply) : Except Failure Unit :=
  match result with
  | .ok _ => .ok ()
  | .error (.refused text) => if Reply.code text = "BUSYGROUP" then .ok () else .error (.refused text)
  | .error e => .error e

/-- The first message of a reply to a read. -/
def firstDelivery (t : Topic) (entries : List Reply.Entry) : Except Failure (Option Delivery) :=
  match entries with
  | [] => .ok none
  | e :: _ =>
    match (e.field? payloadField).bind Reply.text? with
    | some payload => .ok (some ⟨e.id, payload⟩)
    | none => .error (.noPayload e.id t)

/-! ## Operations -/

def onBook (s : Section) : Program Calls s.Reply :=
  .ask (.book s) .done

def command (c : Connection) (words : List String) (limit : Wait) : Exchange Reply :=
  .ask (.command c words limit) fun outcome => .done (answered limit outcome)

def withShared {α : Type} (next : Connection → Exchange α) : Exchange α :=
  .ask (.book .shared) fun
    | some c => next c
    | none => .done (.error .disconnected)

/-- Connects, unless there is a connection. A connection is kept once the server has answered. -/
def connect (limit : Wait) : Exchange Unit :=
  .ask (.book .shared) fun
    | some _ => .done (.ok ())
    | none =>
      .ask .dial fun dial =>
        match dialled limit dial with
        | .error e => .done (.error e)
        | .ok c =>
          (command c pingCommand limit).bind fun result =>
            match result.bind fun r => fitting r.text? with
            | .error e => .done (.error e)
            | .ok _ => (onBook (.keepShared c)).bind fun _ => .done (.ok ())

/-- Forgets all connections and declarations. -/
def teardown : Program Calls Unit :=
  onBook .clear

/-- Forgets the connection of a topic that is read no more. -/
def release (t : Topic) : Program Calls Unit :=
  onBook (.release t)

/-- Destroys the groups of several topics over one connection, whatever the replies. -/
def destroyAll (group : String) (limit : Wait) (c : Connection) : List Topic → Program Calls Unit
  | [] => .done ()
  | t :: rest =>
    .ask (.command c (destroyCommand group t) limit) fun _ => destroyAll group limit c rest

/-- Destroys the groups that were created and forgets everything. -/
def close (group : String) (limit : Wait) : Program Calls Unit :=
  (onBook .declared).bind fun (shared, topics) =>
    match shared with
    | some c => (destroyAll group limit c topics).bind fun _ => teardown
    | none => teardown

/-- Creates the group of a topic, unless it is known to be there. -/
def declare (group : String) (limit : Wait) (t : Topic) : Exchange Unit :=
  .ask (.book (.isDeclared t)) fun (known : Bool) =>
    if known then .done (.ok ())
    else withShared fun c =>
      (command c (createCommand group t) limit).bind fun result =>
        match created result with
        | .error e => .done (.error e)
        | .ok () => (onBook (.declare t)).bind fun _ => .done (.ok ())

/-- Makes a message the latest one of a topic. -/
def publish (limit : Wait) (t : Topic) (payload : String) : Exchange Unit :=
  withShared fun c =>
    (command c (addCommand t payload) limit).bind fun result =>
      .done ((result.bind fun r => fitting r.text?).map fun _ => ())

def consumer (limit : Wait) (t : Topic) : Exchange Connection :=
  .ask (.book (.reading t)) fun
    | .unlinked => .done (.error .disconnected)
    | .held c => .done (.ok c)
    | .missing =>
      .ask .dial fun dial =>
        match dialled limit dial with
        | .error e => .done (.error e)
        | .ok c => (onBook (.keepConsumer t c)).bind fun kept => .done (.ok kept)

/-- The limit of a read: the time it waits on the server and that of any command. -/
def readLimit (limit wait : Wait) : Wait :=
  (Wait.ofNanos? (limit.nanos + wait.nanos)).getD wait

/-- Reads the next message of a topic, waiting for one. If the group is not there any more, the topic
no longer counts as declared. -/
def receive (group : String) (limit : Wait) (t : Topic) (wait : Wait) :
    Exchange (Option Delivery) :=
  (consumer limit t).bind fun
    | .error e => .done (.error e)
    | .ok c =>
      (command c (readCommand group t (blockMilliseconds wait)) (readLimit limit wait)).bind fun
        | .error (.refused text) =>
          if Reply.code text = "NOGROUP" then
            (onBook (.forget t)).bind fun _ => .done (.error (.refused text))
          else .done (.error (.refused text))
        | .error e => .done (.error e)
        | .ok r => .done ((fitting r.entries?).bind (firstDelivery t))

/-- Confirms a message. -/
def ack (group : String) (limit : Wait) (t : Topic) (id : String) : Exchange Unit :=
  withShared fun c =>
    (command c (ackCommand group t id) limit).bind fun result =>
      .done ((result.bind fun r => fitting r.integer?).map fun _ => ())

end Occupancy.Redis
