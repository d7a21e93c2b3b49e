import Occupancy.Broker.Memory
import Occupancy.Fanout.Registry
import Occupancy.Fanout.Supervisor
import Occupancy.Program

/-!
# What a consumer does

A consumer declares the queue of its topic and then goes round: it waits for a message, hands it to
the viewers and confirms it. After every round it retires if nobody listens any more. A lost
connection is reported and ends it; a refused read is followed by a pause and a new declaration.
-/

namespace Occupancy

/-- What a consumer finds when it waits for a message. -/
inductive Received where
  /-- It was told to stop. -/
  | cancelled
  /-- A message, or none within the time. -/
  | message (d : Option Delivery)
  | failed (e : BrokerError)
deriving DecidableEq

/-- What a consumer asks of the broker, the registry and its supervisor. -/
inductive ConsumeCall where
  | declare (t : Topic)
  | receive (t : Topic) (g : Generation)
  | fanOut (t : Topic) (payload : String)
  | ack (t : Topic) (d : Delivery)
  /-- Wait a while; answers whether the consumer was told to stop. -/
  | pause (g : Generation)
  | count (t : Topic)
  /-- Leave the slot of the topic if nobody listens; answers whether that was so. -/
  | retire (t : Topic) (g : Generation)
  | release (t : Topic)
  | report (e : BrokerError)
deriving DecidableEq

def ConsumeCall.Reply : ConsumeCall → Type
  | .declare _ => Except BrokerError Unit
  | .receive _ _ => Received
  | .fanOut _ _ => FanOutReport
  | .ack _ _ => Except BrokerError Unit
  | .pause _ => Bool
  | .count _ => Nat
  | .retire _ _ => Bool
  | .release _ => Unit
  | .report _ => Unit

abbrev ConsumeCalls : Signature :=
  ⟨ConsumeCall, ConsumeCall.Reply⟩

namespace Consume

/-- Does the consumer go on for another round? -/
inductive Next where
  | again
  | stopped
deriving DecidableEq

/-- A part of a consumer's life. -/
abbrev Stretch :=
  Program ConsumeCalls Next

/-- The failure of a consumer: it reports and stops. -/
def giveUp (e : BrokerError) : Stretch :=
  .ask (.report e) fun _ => .done .stopped

/-- The start: the queue is declared. -/
def start (t : Topic) : Stretch :=
  .ask (.declare t) fun
    | .error e => giveUp e
    | .ok _ => .done .again

/-- The end of a round: the consumer retires if nobody listens. -/
def finishRound (t : Topic) (g : Generation) : Stretch :=
  .ask (.count t) fun (n : Nat) =>
    if n = 0 then
      .ask (.retire t g) fun
        | true => .ask (.release t) fun _ => .done .stopped
        | false => .done .again
    else .done .again

/-- A message is handed to the viewers and confirmed. -/
def handle (t : Topic) (g : Generation) (d : Delivery) : Stretch :=
  .ask (.fanOut t d.payload) fun _ =>
  .ask (.ack t d) fun
    | .ok _ => finishRound t g
    | .error e => if e.isConnectionLoss then giveUp e else finishRound t g

/-- After a refused read: a pause and a new declaration. -/
def redeclare (t : Topic) (g : Generation) : Stretch :=
  .ask (.pause g) fun
    | true => .done .stopped
    | false =>
      .ask (.declare t) fun
        | .error e => giveUp e
        | .ok _ => finishRound t g

def round (t : Topic) (g : Generation) : Stretch :=
  .ask (.receive t g) fun
    | .cancelled => .done .stopped
    | .message (some d) => handle t g d
    | .message none => finishRound t g
    | .failed e => if e.isConnectionLoss then giveUp e else redeclare t g

end Consume

end Occupancy
