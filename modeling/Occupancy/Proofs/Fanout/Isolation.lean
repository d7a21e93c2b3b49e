import Occupancy.Proofs.Fanout.Registry

/-!
# A fan-out isolates the viewers that fail

A fan-out goes through the viewers of its topic one by one and drops those that cannot take the payload while it
goes. `Isolates` says what one fan-out comes to: each viewer fares by its own queue alone. The queues are seen
through `viewer_step`, what a turn does to the queue of one viewer. `Follows` carries the rest: a viewer that was
added to a topic has taken, or has waiting, a gapless beginning of what was fanned out there since.

Main statement: `fanOut_isolates`.
-/

namespace Occupancy

/-- The payload that a socket found, if any. -/
def Viewer.Next.payloads : Viewer.Next → List String
  | .payload text => [text]
  | .empty | .closed => []

namespace Registry

variable {r : Registry} {t t' : Topic} {v : ViewerId} {x : Viewer} {payload : String}

/-! ## Turns -/

/-- What may happen to a registry. -/
inductive Turn where
  | fanOut (t : Topic) (payload : String)
  /-- A viewer takes the next payload from its queue. -/
  | next (v : ViewerId)
  /-- A viewer with room for `buffer` payloads is made. -/
  | newViewer (buffer : Nat)
  /-- A viewer that was made is added to a topic. -/
  | add (t : Topic) (v : ViewerId)
  /-- First half of a removal. -/
  | takeOut (t : Topic) (v : ViewerId)
  /-- Second half of a removal. -/
  | prune (t : Topic)
  | close (v : ViewerId)
  | detachSocket (v : ViewerId)

def step (r : Registry) : Turn → Registry
  | .fanOut t payload => (r.fanOut t payload).2
  | .next v => (r.next v).2
  | .newViewer buffer => (r.newViewer buffer).2
  | .add t v => if r.viewers.contains v then (r.add t v).2 else r
  | .takeOut t v => (r.takeOut t v).2
  | .prune t => r.prune t
  | .close v => r.close v
  | .detachSocket v => r.detachSocket v

def run (r : Registry) (turns : List Turn) : Registry :=
  turns.foldl step r

def Turn.sent (t : Topic) : Turn → List String
  | .fanOut t' payload => if t' = t then [payload] else []
  | _ => []

/-- What is fanned out under a topic during turns. -/
def fanned (t : Topic) (turns : List Turn) : List String :=
  turns.flatMap (Turn.sent t)

/-- What a viewer takes from its queue in a turn. -/
def taken (r : Registry) (v : ViewerId) : Turn → List String
  | .next v' => if v' = v then (r.next v).1.payloads else []
  | _ => []

/-- What a viewer takes from its queue during turns. -/
def obtained (v : ViewerId) : Registry → List Turn → List String
  | _, [] => []
  | r, turn :: rest => r.taken v turn ++ obtained v (r.step turn) rest

/-! ## What a turn does -/

def queueAfter (r : Registry) (v : ViewerId) (x : Viewer) : Turn → Viewer
  | .fanOut t payload => if v ∈ r.snapshot t then x.offer payload else x
  | .next v' => if v' = v then x.next.2 else x
  | .close v' => if v' = v then { x with closed := true } else x
  | .detachSocket v' => if v' = v then { x with attached := false, waiting := [] } else x
  | .newViewer _ | .add _ _ | .takeOut _ _ | .prune _ => x

/-- A turn does to a queue that is there what the viewer's own part in it says. -/
theorem viewer_step (distinct : r.Distinct) {turn : Turn}
    (old : ∀ buffer, turn = .newViewer buffer → v ≠ r.nextViewer) :
    (r.step turn).viewers.get? v = (r.viewers.get? v).map (r.queueAfter v · turn) := by
  cases turn with
  | fanOut t payload =>
    -- each turn either meets the viewer's own queue or passes it by
    rw [step, viewer_fanOut distinct]
    by_cases hv : v ∈ r.snapshot t <;> simp [queueAfter, hv]
  | next v' =>
    cases hv' : r.viewers.get? v' with
    | none =>
      by_cases hv : v' = v
      · subst hv
        simp [step, next, hv']
      · simp [step, next, hv', queueAfter, hv]
    | some x' =>
      by_cases hv : v' = v
      · subst hv
        simp [step, next, hv', queueAfter]
      · simp [step, next, hv', queueAfter, hv, Ne.symm hv]
  | newViewer buffer => simp [step, newViewer, queueAfter, old buffer rfl]
  | add t v' =>
    rw [step]
    split <;> simp [add, queueAfter]
  | takeOut t v' => simp [step, queueAfter]
  | prune t => simp [step, queueAfter]
  | close v' =>
    by_cases hv : v = v'
    · simp [step, close, queueAfter, hv]
    · simp [step, close, queueAfter, hv, Ne.symm hv]
  | detachSocket v' =>
    by_cases hv : v = v'
    · simp [step, detachSocket, queueAfter, hv]
    · simp [step, detachSocket, queueAfter, hv, Ne.symm hv]

/-- Viewers come to a topic by being added, and only those that were made. -/
theorem mem_snapshot_of_step {turn : Turn} (h : v ∈ (r.step turn).snapshot t) :
    v ∈ r.snapshot t ∨ turn = .add t v ∧ (r.viewers.get? v).isSome = true := by
  -- only an addition lists anybody
  cases turn with
  | fanOut t' payload => exact .inl (mem_snapshot_of_fanOutTo _ _ _ _ _ h)
  | add t' v' =>
    rw [step] at h
    split at h
    · rename_i made
      rcases mem_snapshot_add.mp h with h | ⟨rfl, rfl⟩
      · exact .inl h
      · exact .inr ⟨rfl, made⟩
    · exact .inl h
  | takeOut t' v' =>
    rw [step, snapshot_takeOut] at h
    split at h
    · rename_i ht
      rw [ht]
      exact .inl (List.mem_filter.mp h).1
    · exact .inl h
  | next v' => exact .inl (by rwa [step, snapshot_next] at h)
  | prune t' => exact .inl (by rwa [step, snapshot_prune] at h)
  | newViewer | close | detachSocket => exact .inl h

theorem mem_snapshot_of_notAdded {turn : Turn} (notAdded : ∀ t, turn ≠ .add t v)
    (h : v ∈ (r.step turn).snapshot t) : v ∈ r.snapshot t :=
  (mem_snapshot_of_step h).resolve_right fun hadd => notAdded t hadd.1

theorem notAdded_cons {turn : Turn} {rest : List Turn} (h : ∀ t, .add t v ∉ turn :: rest) :
    (∀ t, turn ≠ .add t v) ∧ ∀ t, .add t v ∉ rest :=
  ⟨fun t heq => h t (heq ▸ List.mem_cons_self), fun t hmem => h t (List.mem_cons_of_mem _ hmem)⟩

/-- Numbers of viewers are never given back. -/
theorem nextViewer_of_step {turn : Turn} (h : (r.step turn).nextViewer ≤ v) :
    r.nextViewer ≤ v ∧ ∀ buffer, turn = .newViewer buffer → v ≠ r.nextViewer := by
  -- numbers are given out upwards, and only to new viewers
  cases turn with
  | newViewer buffer =>
    have hlt : r.nextViewer < v := h
    exact ⟨Nat.le_of_lt hlt, fun _ _ => Nat.ne_of_gt hlt⟩
  | fanOut t payload =>
    rw [step, fanOut, nextViewer_fanOutTo] at h
    simp [h]
  | next v' =>
    have hsame : (r.next v').2.nextViewer = r.nextViewer := by
      unfold next
      cases r.viewers.get? v' <;> rfl
    rw [step, hsame] at h
    simp [h]
  | add t v' =>
    have hsame : (r.step (.add t v')).nextViewer = r.nextViewer := by
      rw [step]
      split <;> rfl
    rw [hsame] at h
    simp [h]
  | takeOut t v' =>
    rw [step, nextViewer_takeOut] at h
    simp [h]
  | prune t =>
    rw [step, nextViewer_prune] at h
    simp [h]
  | close v' | detachSocket v' =>
    have hle : r.nextViewer ≤ v := h
    simp [hle]

/-! ## Sound registries -/

/-- The viewers of a topic are all different and all were made, and numbers to come are not in use. -/
structure Sound (r : Registry) : Prop where
  distinct : r.Distinct
  made : ∀ t, ∀ v ∈ r.snapshot t, (r.viewers.get? v).isSome = true
  fresh : ∀ v, r.nextViewer ≤ v → r.viewers.get? v = none

theorem Sound.lt_nextViewer (h : r.Sound) (hx : r.viewers.get? v = some x) : v < r.nextViewer := by
  refine Nat.lt_of_not_le fun hle => ?_
  rw [h.fresh v hle] at hx
  cases hx

/-- In a sound registry a turn does to a queue what that queue's own view of the turn says. -/
theorem Sound.viewer_step (h : r.Sound) (hx : r.viewers.get? v = some x) (turn : Turn) :
    (r.step turn).viewers.get? v = some (r.queueAfter v x turn) := by
  rw [Registry.viewer_step h.distinct fun _ _ => Nat.ne_of_lt (h.lt_nextViewer hx), hx, Option.map_some]

/-- Every turn keeps the registry sound. -/
theorem Sound.step (h : r.Sound) (turn : Turn) : (r.step turn).Sound where
  distinct := by
    cases turn with
    | fanOut t payload => exact h.distinct.fanOut t payload
    | add t v =>
      rw [Registry.step]
      split
      · exact h.distinct.add t v
      · exact h.distinct
    | takeOut t v => exact h.distinct.takeOut t v
    | prune t => exact h.distinct.congr (snapshot_prune r t)
    | next v => exact h.distinct.congr (snapshot_next r v)
    | newViewer | close | detachSocket => exact h.distinct.congr rfl
  made t v hv := by
    -- whoever is listed was listed before, or had to be there to be added
    have made : (r.viewers.get? v).isSome = true := by
      rcases mem_snapshot_of_step hv with hv | ⟨-, made⟩
      · exact h.made t v hv
      · exact made
    obtain ⟨x, hx⟩ := Option.isSome_iff_exists.mp made
    rw [h.viewer_step hx turn]
    rfl
  fresh v hv := by
    obtain ⟨hle, old⟩ := nextViewer_of_step hv
    rw [Registry.viewer_step h.distinct old, h.fresh v hle, Option.map_none]

theorem Sound.run (h : r.Sound) (turns : List Turn) : (r.run turns).Sound := by
  induction turns generalizing r with
  | nil => exact h
  | cons turn rest ih => exact ih (h.step turn)

theorem sound_empty : ({} : Registry).Sound :=
  ⟨fun _ => List.nodup_nil, nofun, fun _ _ => rfl⟩

/-! ## One fan-out -/

/-- What a fan-out of `payload` under `t` comes to, with its report and the registry afterwards. -/
structure Isolates (r : Registry) (t : Topic) (payload : String) (report : FanOutReport) (r' : Registry) :
    Prop where
  /-- A viewer that is open and has room stays and has the payload last in its queue. -/
  served : ∀ v ∈ r.snapshot t, ∀ x, r.viewers.get? v = some x →
    x.isClosed = false → x.waiting.length < x.capacity →
      v ∈ r'.snapshot t ∧ r'.viewers.get? v = some { x with waiting := x.waiting ++ [payload] }
  /-- Any other viewer of the topic leaves it and is told to close, and what waits for it is left alone. -/
  dropped : ∀ v ∈ r.snapshot t, ∀ x, r.viewers.get? v = some x →
    x.isClosed = true ∨ x.capacity ≤ x.waiting.length →
      v ∉ r'.snapshot t ∧ r'.viewers.get? v = some { x with closed := true }
  others : ∀ v, v ∉ r.snapshot t → v ∉ r'.snapshot t ∧ r'.viewers.get? v = r.viewers.get? v
  counts : report.delivered = r'.count t ∧
    report.dropped = (r.snapshot t).countP (· ∉ r'.snapshot t) ∧
    report.delivered + report.dropped = r.count t
  /-- A topic that had viewers is dropped exactly if none is left. -/
  unlisted : r.snapshot t ≠ [] → (t ∉ r'.topics ↔ r'.snapshot t = [])
  /-- Where nobody listens there is nothing to do. -/
  idle : r.snapshot t = [] → r' = r
  buckets : ∀ t', t' ≠ t → r'.buckets.get? t' = r.buckets.get? t'
  nextViewer : r'.nextViewer = r.nextViewer

theorem mem_snapshot_fanOut_iff (distinct : r.Distinct) (hv : v ∈ r.snapshot t) :
    v ∈ (r.fanOut t payload).2.snapshot t ↔ r.takes v = true := by
  rw [snapshot_fanOut distinct, if_pos rfl, List.mem_filter]
  exact and_iff_right hv

/-- How a viewer of the topic fares, by its own queue alone. -/
theorem viewer_fanOut_of_mem (distinct : r.Distinct) (hv : v ∈ r.snapshot t)
    (hx : r.viewers.get? v = some x) (payload : String) :
    (v ∈ (r.fanOut t payload).2.snapshot t ↔ x.takes = true) ∧
      (r.fanOut t payload).2.viewers.get? v = some (x.offer payload) := by
  rw [mem_snapshot_fanOut_iff distinct hv, takes, viewer_fanOut distinct, if_pos hv, hx]
  exact ⟨Iff.rfl, rfl⟩

/-- In a sound registry a fan-out isolates its viewers from one another. -/
theorem isolates_fanOut (h : r.Sound) (t : Topic) (payload : String) :
    r.Isolates t payload (r.fanOut t payload).1 (r.fanOut t payload).2 where
  served v hv x hx hopen hroom := by
    obtain ⟨hstays, hafter⟩ := viewer_fanOut_of_mem h.distinct hv hx payload
    have htakes : x.takes = true := Viewer.takes_iff.mpr ⟨hopen, hroom⟩
    rw [Viewer.offer, if_pos htakes] at hafter
    exact ⟨hstays.mpr htakes, hafter⟩
  dropped v hv x hx hfails := by
    obtain ⟨hstays, hafter⟩ := viewer_fanOut_of_mem h.distinct hv hx payload
    -- closed or full, it cannot have taken the payload
    have htakes : ¬ x.takes = true := by
      rw [Viewer.takes_iff]
      rintro ⟨hopen, hroom⟩
      rcases hfails with hclosed | hfull
      · rw [hopen] at hclosed
        cases hclosed
      · exact Nat.not_le.mpr hroom hfull
    rw [Viewer.offer, if_neg htakes] at hafter
    exact ⟨fun hv' => htakes (hstays.mp hv'), hafter⟩
  others v hv := by
    rw [viewer_fanOut h.distinct, if_neg hv]
    exact ⟨fun hv' => hv (mem_snapshot_of_fanOutTo t payload _ _ r hv'), rfl⟩
  counts := by
    have report := (fanOutTo_spec t payload (h.distinct t) {} r).2.2
    -- delivered are those that took it, and dropped are the others of the topic
    simp only [Nat.zero_add] at report
    have hdelivered : (r.fanOut t payload).2.count t = (r.snapshot t).countP r.takes := by
      rw [count, snapshot_fanOut h.distinct, if_pos rfl, List.countP_eq_length_filter]
    have hdropped : (r.snapshot t).countP (· ∉ (r.fanOut t payload).2.snapshot t) =
        (r.snapshot t).countP fun v => !r.takes v := by
      refine List.countP_congr fun v hv => ?_
      simp [mem_snapshot_fanOut_iff h.distinct hv]
    -- each viewer of the topic either takes the payload or does not
    have hall : r.count t =
        (r.snapshot t).countP r.takes + (r.snapshot t).countP fun v => !r.takes v := by
      rw [count, List.length_eq_countP_add_countP r.takes]
      simp
    rw [hdelivered, hdropped, hall, fanOut, report]
    exact ⟨rfl, rfl, rfl⟩
  unlisted hsome := by
    -- a bucket that still has somebody is not an empty one
    have hbucket : r.buckets.get? t ≠ some [] := fun hbucket => hsome (by rw [snapshot, hbucket]; rfl)
    have hafter := (buckets_fanOutTo t payload (r.snapshot t) {} r).2 hbucket
    rw [fanOut, mem_topics_iff hafter, ne_eq, not_not]
  idle hnone := by rw [fanOut, hnone, fanOutTo]
  buckets := (buckets_fanOutTo t payload (r.snapshot t) {} r).1
  nextViewer := nextViewer_fanOutTo t payload _ {} r

/-! ## Viewers that were told to close -/

theorem closed_queueAfter (hx : x.closed = true) (turn : Turn) :
    (r.queueAfter v x turn).closed = true := by
  cases turn with
  | fanOut t payload =>
    have hoffer : (x.offer payload).closed = true := by
      rw [Viewer.offer]
      split
      · exact hx
      · rfl
    rw [queueAfter]
    split
    · exact hoffer
    · exact hx
  | next v' =>
    -- it does not take what waits
    have hnext : x.next.2 = x := by rw [Viewer.next, if_pos hx]
    rwa [queueAfter, hnext, ite_self]
  | close v' | detachSocket v' =>
    rw [queueAfter]
    split <;> simp [hx]
  | newViewer | add | takeOut | prune => exact hx

/-- A viewer that was told to close gets nothing more, whatever happens. -/
theorem next_of_closed (h : r.Sound) (hx : r.viewers.get? v = some x) (closed : x.closed = true)
    (turns : List Turn) : ((r.run turns).next v).1 = .closed := by
  induction turns generalizing r x with
  | nil =>
    change (r.next v).1 = _
    simp [next, hx, Viewer.next, closed]
  | cons turn rest ih => exact ih (h.step turn) (h.viewer_step hx turn) (closed_queueAfter closed turn)

/-! ## Viewers before they are added -/

/-- A viewer with room for `buffer` payloads was made and is under no topic yet. -/
def Newcomer (r : Registry) (v : ViewerId) (buffer : Nat) : Prop :=
  (∀ t, v ∉ r.snapshot t) ∧
    ∃ x, r.viewers.get? v = some x ∧ x.capacity = max buffer 1 ∧ x.waiting = []

/-- A viewer that was just made is a newcomer. -/
theorem Sound.newcomer (h : r.Sound) (buffer : Nat) :
    (r.newViewer buffer).2.Newcomer r.nextViewer buffer := by
  refine ⟨fun t hv => ?_, .new buffer, by simp [newViewer], rfl, rfl⟩
  have made := h.made t _ hv
  rw [h.fresh _ (Nat.le_refl _)] at made
  cases made

/-- Nothing is put into the queue of a newcomer. -/
theorem Newcomer.step {buffer : Nat} (new : r.Newcomer v buffer) (h : r.Sound) {turn : Turn}
    (notAdded : ∀ t, turn ≠ .add t v) : (r.step turn).Newcomer v buffer := by
  obtain ⟨nowhere, x, hx, hcapacity, hwaiting⟩ := new
  -- nobody adds it, so no fan-out and no closing reaches more than its own queue
  refine ⟨fun t hv => ?_, r.queueAfter v x turn, h.viewer_step hx turn, ?_⟩
  · exact nowhere t (mem_snapshot_of_notAdded notAdded hv)
  · cases turn with
    | fanOut t payload => simp [queueAfter, nowhere t, hcapacity, hwaiting]
    | next v' =>
      -- nothing waits, so nothing is taken
      have hnext : x.next.2 = x := by
        rw [Viewer.next, hwaiting]
        split <;> rfl
      simp [queueAfter, hnext, hcapacity, hwaiting]
    | close v' | detachSocket v' =>
      rw [queueAfter]
      split <;> simp [hcapacity, hwaiting]
    | newViewer | add | takeOut | prune => exact ⟨hcapacity, hwaiting⟩

/-- Until it is added a newcomer stays one. -/
theorem Newcomer.run {buffer : Nat} (new : r.Newcomer v buffer) (h : r.Sound) {turns : List Turn}
    (notAdded : ∀ t, .add t v ∉ turns) : (r.run turns).Newcomer v buffer := by
  induction turns generalizing r with
  | nil => exact new
  | cons turn rest ih =>
    obtain ⟨hturn, hrest⟩ := notAdded_cons notAdded
    exact ih (new.step h hturn) (h.step turn) hrest

/-! ## Viewers after they were added -/

/-- How a viewer with room for `room` payloads stands to what was sent to it: what it `got` and what waits are a
gapless beginning, and all of it while the viewer is listed and neither side has given the queue up. -/
structure Follows (x : Viewer) (room : Nat) (listed : Prop) (got sent : List String) : Prop where
  capacity : x.capacity = room
  bounded : x.waiting.length ≤ room
  gapless : got ++ x.waiting <+: sent
  complete : listed → x.isClosed = false → got ++ x.waiting = sent

section

variable {room : Nat} {listed listed' : Prop} {got sent : List String}

/-- What is sent past a viewer is of no concern to it, for it is not listed any more. -/
theorem Follows.behind (h : Follows x room listed got sent) (more : List String)
    (missed : listed' → listed ∧ more = []) : Follows x room listed' got (sent ++ more) where
  capacity := h.capacity
  bounded := h.bounded
  gapless := h.gapless.trans (List.prefix_append _ _)
  complete hlisted hopen := by
    obtain ⟨hlisted, rfl⟩ := missed hlisted
    rw [h.complete hlisted hopen, List.append_nil]

theorem Follows.mono (h : Follows x room listed got sent) (himp : listed' → listed) :
    Follows x room listed' got sent := by
  simpa using h.behind [] fun hlisted => ⟨himp hlisted, rfl⟩

/-- A viewer that has room takes what it is offered, and one that has not is closed. -/
theorem Follows.offer (h : Follows x room listed got sent) (hlisted : listed) (payload : String) :
    Follows (x.offer payload) room listed' got (sent ++ [payload]) := by
  rw [Viewer.offer]
  split
  · rename_i htakes
    obtain ⟨hopen, hroom⟩ := Viewer.takes_iff.mp htakes
    -- it was open and listed, so it had everything before
    have hall : got ++ (x.waiting ++ [payload]) = sent ++ [payload] := by
      rw [← List.append_assoc, h.complete hlisted hopen]
    refine ⟨h.capacity, ?_, hall ▸ List.prefix_refl _, fun _ _ => hall⟩
    have hcapacity := h.capacity
    simp only [List.length_append, List.length_singleton]
    omega
  -- the payload is missed, and the viewer is closed and gets no more
  · refine ⟨h.capacity, h.bounded, h.gapless.trans (List.prefix_append _ _), fun _ hopen => ?_⟩
    simp [Viewer.isClosed] at hopen

/-- Taking a payload moves it from what waits to what was got. -/
theorem Follows.next (h : Follows x room listed got sent) :
    Follows x.next.2 room listed (got ++ x.next.1.payloads) sent := by
  -- closed or without anything waiting, it takes nothing
  unfold Viewer.next
  split
  · simpa [Viewer.Next.payloads] using h
  · cases hwaiting : x.waiting with
    | nil => simpa [Viewer.Next.payloads] using h
    | cons p rest =>
      obtain ⟨hcapacity, hbounded, hgapless, hcomplete⟩ := h
      rw [hwaiting] at hbounded hgapless hcomplete
      refine ⟨hcapacity, Nat.le_of_succ_le hbounded, ?_, fun hlisted hopen => ?_⟩
      · simpa [Viewer.Next.payloads] using hgapless
      · simpa [Viewer.Next.payloads] using hcomplete hlisted hopen

/-- A viewer that is closed, or whose queue is given up, gets no more. -/
theorem Follows.give_up (h : Follows x room listed got sent) {x' : Viewer}
    (hcapacity : x'.capacity = x.capacity) (hwaiting : x'.waiting <+: x.waiting)
    (closed : x'.isClosed = true) : Follows x' room listed' got sent where
  capacity := hcapacity.trans h.capacity
  bounded := Nat.le_trans hwaiting.length_le h.bounded
  gapless := ((List.prefix_append_right_inj got).mpr hwaiting).trans h.gapless
  complete _ hopen := by
    rw [closed] at hopen
    cases hopen

/-- A viewer that is listed under a topic only keeps following it, unless it is added again. -/
theorem Follows.step (follows : Follows x room (v ∈ r.snapshot t) got sent)
    (hx : r.viewers.get? v = some x) (only : ∀ t', v ∈ r.snapshot t' → t' = t) {turn : Turn}
    (notAdded : ∀ t', turn ≠ .add t' v) :
    Follows (r.queueAfter v x turn) room (v ∈ (r.step turn).snapshot t) (got ++ r.taken v turn)
      (sent ++ turn.sent t) := by
  have hlisted : v ∈ (r.step turn).snapshot t → v ∈ r.snapshot t := mem_snapshot_of_notAdded notAdded
  cases turn with
  | fanOut t' payload =>
    simp only [queueAfter, taken, Turn.sent, List.append_nil]
    by_cases hv : v ∈ r.snapshot t'
    · -- the one topic that lists it is the topic that it follows
      obtain rfl := only t' hv
      rw [if_pos hv, if_pos rfl]
      exact follows.offer hv payload
    · -- if its topic is meant, then it is not listed there any more
      rw [if_neg hv]
      refine follows.behind _ fun hv' => ⟨hlisted hv', if_neg ?_⟩
      rintro rfl
      exact hv (hlisted hv')
  | next v' =>
    simp only [queueAfter, taken, Turn.sent, List.append_nil]
    split
    · have hnext : (r.next v).1 = x.next.1 := by simp [Registry.next, hx]
      rw [hnext]
      exact follows.next.mono hlisted
    · simpa using follows.mono hlisted
  | close v' =>
    simp only [queueAfter, taken, Turn.sent, List.append_nil]
    split
    · exact follows.give_up rfl (List.prefix_refl _) rfl
    · exact follows.mono hlisted
  | detachSocket v' =>
    simp only [queueAfter, taken, Turn.sent, List.append_nil]
    split
    · exact follows.give_up rfl List.nil_prefix (by simp [Viewer.isClosed])
    · exact follows.mono hlisted
  | newViewer | add | takeOut | prune =>
    simpa only [queueAfter, taken, Turn.sent, List.append_nil] using follows.mono hlisted

/-- What holds of a viewer's queue at its addition holds after any turns. -/
theorem Follows.run {turns : List Turn} (follows : Follows x room (v ∈ r.snapshot t) got sent)
    (h : r.Sound) (hx : r.viewers.get? v = some x) (only : ∀ t', v ∈ r.snapshot t' → t' = t)
    (notAdded : ∀ t', .add t' v ∉ turns) :
    ∃ x', (r.run turns).viewers.get? v = some x' ∧
      Follows x' room (v ∈ (r.run turns).snapshot t) (got ++ obtained v r turns)
        (sent ++ fanned t turns) := by
  -- the stream so far and what was sent so far grow together, turn by turn
  induction turns generalizing r x got sent with
  | nil => exact ⟨x, hx, by simpa [obtained, fanned, Registry.run] using follows⟩
  | cons turn rest ih =>
    obtain ⟨hturn, hrest⟩ := notAdded_cons notAdded
    have only' : ∀ t', v ∈ (r.step turn).snapshot t' → t' = t := fun t' hv =>
      only t' (mem_snapshot_of_notAdded hturn hv)
    have hrun := ih (follows.step hx only hturn) (h.step turn) (h.viewer_step hx turn) only' hrest
    simpa only [obtained, fanned, List.flatMap_cons, List.append_assoc, Registry.run,
      List.foldl_cons] using hrun

end

/-- A newcomer follows the topic that it is added to. -/
theorem Newcomer.follows {buffer : Nat} (new : r.Newcomer v buffer) (h : r.Sound) (t : Topic)
    {turns : List Turn} (notAdded : ∀ t', .add t' v ∉ turns) :
    ∃ x, ((r.add t v).2.run turns).viewers.get? v = some x ∧
      Follows x (max buffer 1) (v ∈ ((r.add t v).2.run turns).snapshot t)
        (obtained v (r.add t v).2 turns) (fanned t turns) := by
  obtain ⟨nowhere, x, hx, hcapacity, hwaiting⟩ := new
  have hadd : r.step (.add t v) = (r.add t v).2 := if_pos (by rw [Table.contains, hx]; rfl)
  have sound : (r.add t v).2.Sound := hadd ▸ h.step (.add t v)
  have only : ∀ t', v ∈ (r.add t v).2.snapshot t' → t' = t := fun t' hv =>
    ((mem_snapshot_add.mp hv).resolve_left (nowhere t')).1
  -- nothing waits yet and nothing was sent yet
  have start : Follows x (max buffer 1) (v ∈ (r.add t v).2.snapshot t) [] [] := by
    refine ⟨hcapacity, ?_, ?_, fun _ _ => ?_⟩ <;> simp [hwaiting]
  simpa using start.run sound hx only notAdded

/-- **A fan-out isolates the viewers that fail.** Whatever the registry, a fan-out does to each viewer of its topic
what the viewer's own queue calls for, and nothing to anybody else. So, for a viewer that is made at any time and
added to a topic at any later time, and whatever happens then: what it takes is a gapless beginning of what is
fanned out under the topic since it was added, with what waits it still is, and it is all of that while the viewer
is listed and neither side has given the queue up; no more waits than there is room for. And a viewer that a
fan-out drops gets nothing more, though something may wait. -/
theorem fanOut_isolates (h : r.Sound) :
    (∀ t payload, r.Isolates t payload (r.fanOut t payload).1 (r.fanOut t payload).2) ∧
    (∀ (t : Topic) (buffer : Nat) (before turns : List Turn), let v := r.nextViewer
      (∀ t', .add t' v ∉ before ++ turns) →
        let added := (((r.newViewer buffer).2.run before).add t v).2
        ∃ x, (added.run turns).viewers.get? v = some x ∧ x.waiting.length ≤ max buffer 1 ∧
          obtained v added turns <+: fanned t turns ∧
          obtained v added turns ++ x.waiting <+: fanned t turns ∧
          (v ∈ (added.run turns).snapshot t → x.isClosed = false →
            obtained v added turns ++ x.waiting = fanned t turns)) ∧
    ∀ t payload, ∀ v ∈ r.snapshot t, v ∉ (r.fanOut t payload).2.snapshot t →
      ∀ turns, (((r.fanOut t payload).2.run turns).next v).1 = .closed := by
  refine ⟨isolates_fanOut h, ?_, ?_⟩
  · intro t buffer before turns v notAdded added
    have sound := h.step (.newViewer buffer)
    -- nobody added it before, so it comes to its topic with an empty queue
    have new := (h.newcomer buffer).run sound fun t' hmem => notAdded t' (List.mem_append_left _ hmem)
    have notAgain : ∀ t', .add t' v ∉ turns := fun t' hmem => notAdded t' (List.mem_append_right _ hmem)
    obtain ⟨x, hx, follows⟩ := new.follows (sound.run before) t notAgain
    exact ⟨x, hx, follows.bounded, (List.prefix_append _ _).trans follows.gapless, follows.gapless,
      follows.complete⟩
  · intro t payload v hv gone turns
    obtain ⟨x, hx⟩ := Option.isSome_iff_exists.mp (h.made t v hv)
    obtain ⟨hstays, hafter⟩ := viewer_fanOut_of_mem h.distinct hv hx payload
    -- dropped means that it did not take the payload, which has closed its queue
    rw [Viewer.offer, if_neg fun htakes => gone (hstays.mpr htakes)] at hafter
    exact next_of_closed (h.step (.fanOut t payload)) hafter rfl turns

/-- One viewer has a full queue and the other has room. The next fan-out drops the first alone, and a third viewer
that comes before it begins with its payload. -/
theorem fanOut_isolates_full :
    let r := ({} : Registry).run [.newViewer 1, .newViewer 2, .add .allRooms 1, .add .allRooms 2,
      .fanOut .allRooms "first"]
    r.Sound ∧ (r.fanOut .allRooms "second").1 = { delivered := 1, dropped := 1 } ∧
      r.Isolates .allRooms "second" { delivered := 1, dropped := 1 } (r.fanOut .allRooms "second").2 ∧
      (∀ turns, (((r.fanOut .allRooms "second").2.run turns).next 1).1 = .closed) ∧
      let turns := [.fanOut .allRooms "second", .next 3, .fanOut .allRooms "third"]
      obtained 3 (((r.newViewer 1).2).add .allRooms 3).2 turns = ["second"] ∧
        ["second"] <+: fanned .allRooms turns := by
  intro r
  have sound : r.Sound := sound_empty.run _
  obtain ⟨isolates, follows, dropped⟩ := fanOut_isolates sound
  have report : (r.fanOut .allRooms "second").1 = { delivered := 1, dropped := 1 } := by decide
  refine ⟨sound, report, report ▸ isolates .allRooms "second",
    dropped .allRooms "second" 1 (by decide) (by decide), ?_⟩
  intro turns
  obtain ⟨x, -, -, hprefix, -⟩ := follows .allRooms 1 [] turns (by simp [turns])
  have hobtained : obtained 3 (((r.newViewer 1).2).add .allRooms 3).2 turns = ["second"] := by decide
  exact ⟨hobtained, hobtained ▸ hprefix⟩

end Registry

end Occupancy
