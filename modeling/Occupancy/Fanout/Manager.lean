import Occupancy.Fanout.Link
import Occupancy.Fanout.Publisher

/-!
# What the manager of the link does

It dials until the broker answers, with longer and longer waits; then it starts a consumer for every
topic with viewers, flushes what was held back, and waits for the loss of the connection, after which
it starts over. At the end it stops the consumers and closes the broker.
-/

namespace Occupancy

/-- What the manager of the link asks of the link, the broker and the consumers. -/
inductive ManageCall where
  | become (s : LinkState)
  | teardown
  | connect
  /-- Wait after a failed attempt; answers whether the end was called meanwhile. -/
  | backoff (attempt : Nat)
  /-- The topics with a consumer in their slot. -/
  | served
  /-- Cancel the consumer in the slot of a topic. -/
  | drop (t : Topic)
  /-- The topics with viewers. -/
  | wanted
  /-- Start a consumer for a topic unless one runs; answers whether it was started. -/
  | ensure (t : Topic)
  | publish (c : PublishCall)
  /-- Wait for the loss of the connection; answers whether the end was called instead. -/
  | awaitLoss
  | close

def ManageCall.Reply : ManageCall → Type
  | .become _ => Unit
  | .teardown => Unit
  | .connect => Except BrokerError Unit
  | .backoff _ => Bool
  | .served => List Topic
  | .drop _ => Unit
  | .wanted => List Topic
  | .ensure _ => Bool
  | .publish c => c.Reply
  | .awaitLoss => Bool
  | .close => Unit

/-- The requests of the manager of the link. -/
abbrev ManageCalls : Signature :=
  ⟨ManageCall, ManageCall.Reply⟩

namespace Manage

abbrev Duty (α : Type) :=
  Program ManageCalls α

/-- The end of an attempt to connect. -/
inductive Dialled where
  | up
  | retry
  | shutdown
deriving DecidableEq

/-- One attempt to connect, after `attempt` failed ones. What was left of an earlier connection is
torn down first. -/
def dial (attempt : Nat) : Duty Dialled :=
  .ask (.become .connecting) fun _ =>
  .ask .teardown fun _ =>
  .ask .connect fun
    | .ok _ => .ask (.become .up) fun _ => .done .up
    | .error _ =>
      .ask (.become .down) fun _ =>
      .ask (.backoff attempt) fun
        | true => .done .shutdown
        | false => .done .retry

/-- Cancels the consumers of the given topics. -/
def dropAll : List Topic → Duty Unit
  | [] => .done ()
  | t :: rest => .ask (.drop t) fun _ => dropAll rest

/-- Starts consumers for the given topics and counts those started, from `n` on. -/
def ensureAll : List Topic → Nat → Duty Nat
  | [], n => .done n
  | t :: rest, n => .ask (.ensure t) fun
      | true => ensureAll rest (n + 1)
      | false => ensureAll rest n

/-- Cancels every consumer. -/
def stopConsumers : Duty Unit :=
  .ask .served dropAll

/-- Cancels every consumer and starts one for each topic with viewers. Results in their number. -/
def restart : Duty Nat :=
  stopConsumers.bind fun _ => .ask .wanted fun ts => ensureAll ts 0

/-- Flushes what is held back. -/
def flush : Duty PublishReport :=
  Publish.flush.lift fun c => .ask (.publish c) .done

/-- While connected: consumers are started and held payloads flushed, then the manager waits.
Results in whether the end was called. -/
def serve : Duty Bool :=
  restart.bind fun _ => flush.bind fun _ => .ask .awaitLoss .done

/-- The end: consumers are stopped, the broker closed and the link left down. -/
def finish : Duty Unit :=
  stopConsumers.bind fun _ => .ask .close fun _ => .ask (.become .down) .done

end Manage

end Occupancy
