import Occupancy.Program
import Occupancy.Table
import Occupancy.Topic

/-!
# Publishing views

A view is sent to every topic that it concerns, one after the other; a failure on one topic does not
keep it from the others. A topic that did not get its payload holds it back until the link is up
again and the held payloads are flushed, or until a later view is published there.
-/

namespace Occupancy

/-- A payload that a topic has not got yet. The stamp tells publications of equal text apart. -/
structure Held where
  payload : String
  stamp : Nat
deriving DecidableEq

/-- The payloads held back, by topic. -/
structure Pending where
  held : Table Topic Held := ∅
  nextStamp : Nat := 0

namespace Pending

/-- The topics with a payload held back, in order. -/
def topics (p : Pending) : List Topic :=
  Topic.sort p.held.keys

/-- Holds a payload back for a topic, in place of what was held there. -/
def hold (p : Pending) (t : Topic) (h : Held) : Pending :=
  { p with held := p.held.set t h }

/-- Gives up what is held for a topic. -/
def settle (p : Pending) (t : Topic) : Pending :=
  { p with held := p.held.erase t }

/-- Gives up what is held for a topic if it is still the publication with this stamp. -/
def settleSame (p : Pending) (t : Topic) (stamp : Nat) : Pending :=
  if (p.held.get? t).map (·.stamp) = some stamp then p.settle t else p

end Pending

/-- What publishing asks of the link, the broker and the held payloads. -/
inductive PublishCall where
  /-- A stamp for a new publication. -/
  | stamp
  /-- Is the link up? -/
  | linkUp
  /-- Declare the topic's queue and put the payload into it, within the time limit. -/
  | send (t : Topic) (payload : String)
  /-- Report a failure to the link. -/
  | report (e : BrokerError)
  | hold (t : Topic) (h : Held)
  | settle (t : Topic)
  | settleSame (t : Topic) (stamp : Nat)
  | heldTopics
  | held (t : Topic)
deriving DecidableEq

def PublishCall.Reply : PublishCall → Type
  | .stamp => Nat
  | .linkUp => Bool
  | .send _ _ => Except BrokerError Unit
  | .report _ => Unit
  | .hold _ _ => Unit
  | .settle _ => Unit
  | .settleSame _ _ => Unit
  | .heldTopics => List Topic
  | .held _ => Option Held

abbrev PublishCalls : Signature :=
  ⟨PublishCall, PublishCall.Reply⟩

/-- Outcome of publishing, topic by topic. -/
structure PublishReport where
  delivered : List Topic := []
  failed : List Topic := []
deriving DecidableEq

namespace PublishReport

def deliver (r : PublishReport) (t : Topic) : PublishReport :=
  { r with delivered := r.delivered ++ [t] }

def fail (r : PublishReport) (t : Topic) : PublishReport :=
  { r with failed := r.failed ++ [t] }

end PublishReport

namespace Publish

abbrev Publication (α : Type) :=
  Program PublishCalls α

/-- Holds a payload back for every topic. -/
def holdAll (h : Held) : List Topic → Publication Unit
  | [] => .done ()
  | t :: rest => .ask (.hold t h) fun _ => holdAll h rest

/-- Sends a payload to every topic. A topic that gets it holds nothing back any more; one that does
not holds it back, after the failure was reported. -/
def sendAll (h : Held) : List Topic → PublishReport → Publication PublishReport
  | [], report => .done report
  | t :: rest, report =>
    .ask (.send t h.payload) fun
      | .ok _ => .ask (.settle t) fun _ => sendAll h rest (report.deliver t)
      | .error e => .ask (.report e) fun _ => .ask (.hold t h) fun _ =>
          sendAll h rest (report.fail t)

/-- Publishes a view on all of its topics. While the link is not up nothing is sent and every topic
holds the view back. -/
def publishView (v : RoomView) : Publication PublishReport :=
  .ask .stamp fun stamp =>
  .ask .linkUp fun
    | true => sendAll ⟨v.payload, stamp⟩ v.topics {}
    | false => (holdAll ⟨v.payload, stamp⟩ v.topics).bind fun _ => .done { failed := v.topics }

/-- Sends what the given topics hold back. A topic keeps what it holds if it fails again, or if
something newer took its place meanwhile. -/
def flushTopics : List Topic → PublishReport → Publication PublishReport
  | [], report => .done report
  | t :: rest, report =>
    .ask (.held t) fun
      | none => flushTopics rest report
      | some h =>
        .ask (.send t h.payload) fun
          | .ok _ => .ask (.settleSame t h.stamp) fun _ => flushTopics rest (report.deliver t)
          | .error e => .ask (.report e) fun _ => flushTopics rest (report.fail t)

/-- Sends everything that is held back, in the order of topics. -/
def flush : Publication PublishReport :=
  .ask .heldTopics fun ts => flushTopics ts {}

end Publish

end Occupancy
