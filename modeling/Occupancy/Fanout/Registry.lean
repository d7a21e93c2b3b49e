import Occupancy.Table
import Occupancy.Topic

/-!
# The registry of viewers

Which viewers listen to which topic, and what waits for each of them. Every viewer has a bounded
queue that its socket empties. Fanning a payload out never waits: a viewer whose queue is full or
closed is removed from the topic and told to close, and the others are served.

A topic is listed only while somebody listens to it. Removing a viewer has two halves, each
indivisible: taking the viewer out, and dropping the topic if nobody is left.
-/

namespace Occupancy

/-- Number of a viewer, never used twice. -/
abbrev ViewerId := Nat

/-- The queue of one viewer. -/
structure Viewer where
  /-- The most payloads that may wait. -/
  capacity : Nat
  /-- Payloads that wait, oldest first. -/
  waiting : List String := []
  /-- Was the viewer told to close? -/
  closed : Bool := false
  /-- Does the socket still read the queue? -/
  attached : Bool := true

/-- Why a payload was not put into a viewer's queue. -/
inductive DeliveryError where
  | full
  | closed
deriving DecidableEq

namespace Viewer

/-- A viewer with room for `buffer` payloads, at least one. -/
def new (buffer : Nat) : Viewer :=
  { capacity := max buffer 1 }

/-- Puts a payload last into the queue. -/
def deliver (v : Viewer) (payload : String) : Except DeliveryError Viewer :=
  if v.closed || !v.attached then .error .closed
  else if v.capacity ≤ v.waiting.length then .error .full
  else .ok { v with waiting := v.waiting ++ [payload] }

/-- Has either side given the queue up? -/
def isClosed (v : Viewer) : Bool :=
  v.closed || !v.attached

/-- What a socket finds when it turns to the queue. -/
inductive Next where
  /-- A payload to write. -/
  | payload (text : String)
  /-- Nothing yet. -/
  | empty
  /-- The viewer was told to close. -/
  | closed
deriving DecidableEq

/-- Takes the oldest payload. A viewer that was told to close gets nothing more. -/
def next (v : Viewer) : Next × Viewer :=
  if v.closed then (.closed, v)
  else
    match v.waiting with
    | [] => (.empty, v)
    | p :: rest => (.payload p, { v with waiting := rest })

end Viewer

/-- Outcome of fanning out one payload. -/
structure FanOutReport where
  delivered : Nat := 0
  dropped : Nat := 0
deriving DecidableEq

/-- Viewers by topic, and the queue of every viewer. -/
structure Registry where
  buckets : Table Topic (List ViewerId) := ∅
  viewers : Table ViewerId Viewer := ∅
  nextViewer : ViewerId := 1

namespace Registry

/-! ## Viewers -/

/-- A new viewer with room for `buffer` payloads, under no topic yet. -/
def newViewer (r : Registry) (buffer : Nat) : ViewerId × Registry :=
  (r.nextViewer, { r with
    viewers := r.viewers.set r.nextViewer (.new buffer)
    nextViewer := r.nextViewer + 1 })

def close (r : Registry) (id : ViewerId) : Registry :=
  { r with viewers := r.viewers.modify id fun v => { v with closed := true } }

/-- Gives up the socket's side of a viewer's queue. What waits is lost. -/
def detachSocket (r : Registry) (id : ViewerId) : Registry :=
  { r with viewers := r.viewers.modify id fun v => { v with attached := false, waiting := [] } }

/-- Puts a payload into the queue of a viewer. -/
def deliver (r : Registry) (id : ViewerId) (payload : String) : Except DeliveryError Registry :=
  match r.viewers.get? id with
  | none => .error .closed
  | some v =>
    match v.deliver payload with
    | .error e => .error e
    | .ok v => .ok { r with viewers := r.viewers.set id v }

/-- Takes the next payload of a viewer. -/
def next (r : Registry) (id : ViewerId) : Viewer.Next × Registry :=
  match r.viewers.get? id with
  | none => (.closed, r)
  | some v => let (n, v) := v.next; (n, { r with viewers := r.viewers.set id v })

/-! ## Topics -/

def snapshot (r : Registry) (t : Topic) : List ViewerId :=
  (r.buckets.get? t).getD []

/-- The number of viewers of a topic. -/
def count (r : Registry) (t : Topic) : Nat :=
  (r.snapshot t).length

def topics (r : Registry) : List Topic :=
  r.buckets.keys

/-- The number of viewers of all topics. -/
def total (r : Registry) : Nat :=
  r.buckets.values.foldr (fun viewers n => viewers.length + n) 0

/-- Adds a viewer to a topic. Answers whether it is the only one. -/
def add (r : Registry) (t : Topic) (id : ViewerId) : Bool × Registry :=
  let bucket := r.snapshot t
  (bucket.isEmpty, { r with
    buckets := r.buckets.set t (if id ∈ bucket then bucket else bucket ++ [id]) })

/-- First half of a removal: takes a viewer out of a topic. Answers whether it was there. -/
def takeOut (r : Registry) (t : Topic) (id : ViewerId) : Bool × Registry :=
  let bucket := r.snapshot t
  if id ∈ bucket then
    (true, { r with buckets := r.buckets.set t (bucket.filter (· ≠ id)) })
  else (false, r)

/-- Second half of a removal: drops a topic that nobody listens to. -/
def prune (r : Registry) (t : Topic) : Registry :=
  if (r.snapshot t).isEmpty then { r with buckets := r.buckets.erase t } else r

/-- Removes a viewer from a topic. Answers whether it was there. -/
def remove (r : Registry) (t : Topic) (id : ViewerId) : Bool × Registry :=
  let (found, r) := r.takeOut t id
  (found, r.prune t)

/-! ## Fan-out -/

/-- Delivers a payload to the given viewers of a topic, one after the other. -/
def fanOutTo (t : Topic) (payload : String) :
    List ViewerId → FanOutReport × Registry → FanOutReport × Registry
  | [], state => state
  | id :: rest, (report, r) =>
    match r.deliver id payload with
    | .ok r => fanOutTo t payload rest ({ report with delivered := report.delivered + 1 }, r)
    | .error _ =>
      fanOutTo t payload rest
        ({ report with dropped := report.dropped + 1 }, (r.remove t id).2.close id)

/-- Delivers a payload to every viewer of a topic. Viewers that cannot take it are removed from the
topic and told to close. -/
def fanOut (r : Registry) (t : Topic) (payload : String) : FanOutReport × Registry :=
  fanOutTo t payload (r.snapshot t) ({}, r)

end Registry

end Occupancy
