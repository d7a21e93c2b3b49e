import Occupancy.Proofs.Broker.Memory
import Occupancy.Proofs.Fanout.Registry

/-!
# From publishing to viewers

Payloads go through two bounded places: the queue of a topic, which keeps the last one, and the queues of
its viewers, which drop the viewer rather than a payload. A feed is the broker with the registry and a
record of what was accepted and taken; its turns are any interleaving of publishing, reading, viewers that
come and go, and losses of the connection.

Main statement: `conflates`. What a viewer takes is a subsequence of what its topic accepted, and once the
queue of the topic is empty the viewer has the last payload. `Kept` is what every turn keeps: while a
payload is unread in the queue, the viewers are behind by that payload at least.
-/

namespace Occupancy

/-- A viewer of a topic: how much the topic had accepted when the viewer joined, and what the viewer has
taken since. -/
structure Seat where
  topic : Topic
  joined : Nat
  taken : List String := []

/-- The broker and the registry, with what each topic accepted and each viewer took. -/
structure Feed where
  broker : MemoryBroker := {}
  registry : Registry := {}
  accepted : Table Topic (List String) := ∅
  seats : Table ViewerId Seat := ∅

namespace Feed

/-- The payloads that a topic has accepted, in order. -/
def log (w : Feed) (t : Topic) : List String :=
  (w.accepted.get? t).getD []

/-- What may happen next. -/
inductive Turn where
  | publish (t : Topic) (payload : String)
  /-- A consumer reads the queue of a topic and fans the message out. -/
  | consume (t : Topic)
  /-- A consumer that has waited for a message of the queue with number `id` goes on. -/
  | resume (t : Topic) (id : Nat)
  /-- A viewer with room for `buffer` payloads joins a topic. -/
  | join (t : Topic) (buffer : Nat)
  /-- A viewer leaves a topic. -/
  | leave (t : Topic) (v : ViewerId)
  | prune (t : Topic)
  | close (v : ViewerId)
  | detachSocket (v : ViewerId)
  /-- A viewer takes the next payload from its queue. -/
  | take (v : ViewerId)
  | connect
  | sever
  | refuse (count : Nat)
  | teardown
  /-- The queue of a topic is declared as a register for the latest value. -/
  | declare (t : Topic)

/-- Fans a message out that was read. -/
def handOut (w : Feed) (t : Topic) (r : Option Delivery × MemoryBroker) : Feed :=
  match r.1 with
  | none => { w with broker := r.2 }
  | some d => { w with broker := r.2, registry := (w.registry.fanOut t d.payload).2 }

/-- One turn. A call that the broker refuses changes nothing. -/
def step (w : Feed) : Turn → Feed
  | .publish t payload =>
    match w.broker.publish t payload with
    | .ok broker => { w with broker, accepted := w.accepted.set t (w.log t ++ [payload]) }
    | .error _ => w
  | .consume t =>
    match w.broker.receive t with
    | .ok r => w.handOut t r
    | .error _ => w
  | .resume t id => if w.broker.connected then w.handOut t (w.broker.pop t id) else w
  | .join t buffer =>
    let (v, registry) := w.registry.newViewer buffer
    { w with
      registry := (registry.add t v).2
      seats := w.seats.set v { topic := t, joined := (w.log t).length } }
  | .leave t v => { w with registry := (w.registry.takeOut t v).2 }
  | .prune t => { w with registry := w.registry.prune t }
  | .close v => { w with registry := w.registry.close v }
  | .detachSocket v => { w with registry := w.registry.detachSocket v }
  | .take v =>
    let (n, registry) := w.registry.next v
    match n with
    | .payload p =>
      { w with registry, seats := w.seats.modify v fun s => { s with taken := s.taken ++ [p] } }
    | _ => { w with registry }
  | .connect => { w with broker := w.broker.connect.2 }
  | .sever => { w with broker := w.broker.sever }
  | .refuse count => { w with broker := w.broker.refuse count }
  | .teardown => { w with broker := w.broker.teardown }
  | .declare t =>
    match w.broker.declare t 1 with
    | .ok broker => { w with broker }
    | .error _ => w

/-- The feed after a list of turns, from nothing at all. -/
def run (turns : List Turn) : Feed :=
  turns.foldl step {}

/-! ## The invariant -/

/-- How a viewer stands to the payloads that its topic accepted, while `depth` of them are unread. -/
structure Kept (log : List String) (depth : Nat) (seat : Seat) (viewer : Viewer) (listed : Prop) :
    Prop where
  sub : (seat.taken ++ viewer.waiting).Sublist (if depth = 0 then log else log.dropLast)
  latest : depth = 0 → seat.joined < log.length → listed → viewer.isClosed = false →
    (seat.taken ++ viewer.waiting).getLast? = log.getLast?

/-- Every viewer stands right to its topic, and the queue of a topic holds its last payload at most. -/
structure Faithful (w : Feed) : Prop where
  distinct : w.registry.Distinct
  seated : ∀ t v, v ∈ w.registry.snapshot t → ∃ seat, w.seats.get? v = some seat ∧ seat.topic = t
  fresh : ∀ v, w.registry.nextViewer ≤ v → w.seats.get? v = none
  lastOnly : ∀ t, w.broker.LastOnly (w.log t) t
  kept : ∀ v seat viewer, w.seats.get? v = some seat → w.registry.viewers.get? v = some viewer →
    Kept (w.log seat.topic) (w.broker.depth seat.topic) seat viewer
      (v ∈ w.registry.snapshot seat.topic)

/-! ## One viewer -/

section Viewers

variable {log : List String} {depth : Nat} {seat seat' : Seat} {viewer viewer' : Viewer}
  {listed listed' : Prop} {payload : String}

/-- A viewer may lose what waits for it as it closes or leaves, and may take what waits. -/
theorem Kept.mono (h : Kept log depth seat viewer listed) (hjoined : seat'.joined = seat.joined)
    (hsub : (seat'.taken ++ viewer'.waiting).Sublist (seat.taken ++ viewer.waiting))
    (hopen : listed' → viewer'.isClosed = false → listed ∧ viewer.isClosed = false ∧
      seat'.taken ++ viewer'.waiting = seat.taken ++ viewer.waiting) :
    Kept log depth seat' viewer' listed' where
  sub := hsub.trans h.sub
  latest hdepth hbefore hlisted hclosed := by
    obtain ⟨hlisted, hclosed, hsame⟩ := hopen hlisted hclosed
    rw [hsame]
    exact h.latest hdepth (hjoined ▸ hbefore) hlisted hclosed

/-- When a payload is accepted, the viewers are behind by it. -/
theorem Kept.publish (h : Kept log depth seat viewer listed) (payload : String) :
    Kept (log ++ [payload]) 1 seat viewer listed where
  sub := by
    rw [if_neg Nat.one_ne_zero, List.dropLast_concat]
    refine h.sub.trans ?_
    split
    · exact .refl log
    · exact List.dropLast_sublist log
  latest hdepth := nomatch hdepth

/-- A viewer of the topic gets the unread payload or is told to close. -/
theorem Kept.offer (h : Kept log 1 seat viewer listed) (hlast : log.getLast? = some payload)
    (htakes : listed' → viewer.takes = true) : Kept log 0 seat (viewer.offer payload) listed' := by
  have hsub : (seat.taken ++ viewer.waiting).Sublist log.dropLast := h.sub
  unfold Viewer.offer
  split
  · refine ⟨?_, fun _ _ _ _ => ?_⟩
    · -- what the viewer was behind by is what it gets
      rw [if_pos rfl, ← List.dropLast_append_getLast? payload hlast, ← List.append_assoc]
      exact hsub.append (.refl [payload])
    · rw [← List.append_assoc, List.getLast?_concat, hlast]
  · rename_i hfull
    -- one that takes nothing misses the payload and leaves the topic, so nothing is promised for it
    exact ⟨hsub.trans (List.dropLast_sublist log), fun _ _ hlisted => absurd (htakes hlisted) hfull⟩

theorem Kept.miss (h : Kept log 1 seat viewer listed) (hgone : ¬ listed') :
    Kept log 0 seat viewer listed' where
  sub := (show (seat.taken ++ viewer.waiting).Sublist log.dropLast from h.sub).trans
    (List.dropLast_sublist log)
  latest _ _ hlisted := absurd hlisted hgone

end Viewers

/-! ## Every turn -/

variable {w : Feed} {t : Topic} {v : ViewerId} {payload : String}

/-- The broker may do whatever leaves the unread messages as they are. -/
theorem Faithful.broker (h : w.Faithful) {broker : MemoryBroker}
    (hlast : ∀ t, broker.LastOnly (w.log t) t) (hdepth : ∀ t, broker.depth t = w.broker.depth t) :
    Faithful { w with broker } where
  distinct := h.distinct
  seated := h.seated
  fresh := h.fresh
  lastOnly := hlast
  kept v seat viewer hseat hviewer := by
    rw [hdepth]
    exact h.kept v seat viewer hseat hviewer

/-- Viewers may leave, close and lose what waits for them. -/
theorem Faithful.registry (h : w.Faithful) {registry : Registry} (distinct : registry.Distinct)
    (hnext : registry.nextViewer = w.registry.nextViewer)
    (hsub : ∀ t v, v ∈ registry.snapshot t → v ∈ w.registry.snapshot t)
    (hviewers : ∀ v viewer', registry.viewers.get? v = some viewer' →
      ∃ viewer, w.registry.viewers.get? v = some viewer ∧
        viewer'.waiting.Sublist viewer.waiting ∧
        (viewer'.isClosed = false → viewer.isClosed = false ∧ viewer'.waiting = viewer.waiting)) :
    Faithful { w with registry } where
  -- fewer viewers are listed, so fewer are to be seated
  distinct := distinct
  seated t v hv := h.seated t v (hsub t v hv)
  fresh v hv := h.fresh v (hnext ▸ hv)
  lastOnly := h.lastOnly
  kept v seat viewer' hseat hviewer' := by
    -- what a viewer waits for may shrink, which keeps it part of the log
    obtain ⟨viewer, hviewer, hwaiting, hopen⟩ := hviewers v viewer' hviewer'
    refine (h.kept v seat viewer hseat hviewer).mono rfl (hwaiting.append_left _)
      fun hlisted hclosed => ?_
    obtain ⟨hclosed, hsame⟩ := hopen hclosed
    exact ⟨hsub _ v hlisted, hclosed, by rw [hsame]⟩

/-- A publish keeps the feed faithful. -/
theorem faithful_publish (h : w.Faithful) (t : Topic) (payload : String) :
    (w.step (.publish t payload)).Faithful := by
  simp only [step]
  split
  · rename_i broker hpublish
    have hlog : ∀ t', log { w with broker, accepted := w.accepted.set t (w.log t ++ [payload]) } t' =
        if t' = t then w.log t ++ [payload] else w.log t' := by
      intro t'
      simp only [log, Table.get?_set]
      split <;> rfl
    -- the queue of the topic is the only one that changes
    obtain ⟨q, m, -, -, hqueues⟩ := MemoryBroker.publish_spec hpublish
    have hothers : ∀ t', t' ≠ t → broker.queues.get? t' = w.broker.queues.get? t' := by
      intro t' ht
      rw [hqueues, if_neg ht]
    obtain ⟨hlast, hdepth⟩ := (h.lastOnly t).publish hpublish
    refine ⟨h.distinct, h.seated, h.fresh, fun t' => ?_, fun v seat viewer hseat hviewer => ?_⟩
    · rw [hlog]
      split
      · rename_i ht
        exact ht ▸ hlast
      · rename_i ht
        exact (h.lastOnly t').congr (hothers t' ht)
    · -- the viewers of the topic fall behind, the others see nothing of it
      have hkept := h.kept v seat viewer hseat hviewer
      rw [hlog]
      split
      · rename_i ht
        rw [ht] at hkept ⊢
        simp only [hdepth]
        exact hkept.publish payload
      · rename_i ht
        simp only [MemoryBroker.depth_congr (hothers _ ht)]
        exact hkept
  · exact h

/-- A viewer that joins keeps the feed faithful. -/
theorem faithful_join (h : w.Faithful) (t : Topic) (buffer : Nat) :
    (w.step (.join t buffer)).Faithful := by
  -- nobody has the number of the new viewer
  have hnobody := h.fresh w.registry.nextViewer (Nat.le_refl _)
  have hunlisted : ∀ t', w.registry.nextViewer ∉ w.registry.snapshot t' := by
    intro t' hv
    obtain ⟨seat, hseat, -⟩ := h.seated t' _ hv
    rw [hnobody] at hseat
    cases hseat
  have hseats : ∀ v, (w.step (.join t buffer)).seats.get? v =
      if v = w.registry.nextViewer then some { topic := t, joined := (w.log t).length }
      else w.seats.get? v :=
    fun v => Table.get?_set ..
  have hviewers : ∀ v, (w.step (.join t buffer)).registry.viewers.get? v =
      if v = w.registry.nextViewer then some (.new buffer) else w.registry.viewers.get? v :=
    fun v => Table.get?_set ..
  refine ⟨(h.distinct.congr rfl).add t _, fun t' v hv => ?_, fun v hv => ?_, h.lastOnly,
    fun v seat viewer hseat hviewer => ?_⟩
  · rw [hseats]
    rcases Registry.mem_snapshot_add.mp hv with hv | ⟨rfl, rfl⟩
    -- a viewer that was listed already has a smaller number than the new one
    · have hne : v ≠ w.registry.nextViewer := fun heq => hunlisted t' (heq ▸ hv)
      rw [if_neg hne]
      exact h.seated t' v hv
    · exact ⟨_, if_pos rfl, rfl⟩
  · have hv : w.registry.nextViewer + 1 ≤ v := hv
    rw [hseats, if_neg (Nat.ne_of_gt hv)]
    exact h.fresh v (Nat.le_of_succ_le hv)
  · rw [hseats] at hseat
    rw [hviewers] at hviewer
    split at hseat
    · rename_i hnew
      rw [if_pos hnew] at hviewer
      cases hseat
      cases hviewer
      -- nothing was accepted since it joined
      refine ⟨List.nil_sublist _, fun _ hbefore => ?_⟩
      exact absurd hbefore (Nat.lt_irrefl _)
    -- the others keep their seats
    · rename_i hold
      rw [if_neg hold] at hviewer
      refine (h.kept v seat viewer hseat hviewer).mono rfl (.refl _) fun hlisted hclosed => ?_
      refine ⟨?_, hclosed, rfl⟩
      exact (Registry.mem_snapshot_add.mp hlisted).resolve_right fun hnew => hold hnew.2

/-- A viewer that takes its next payload keeps the feed faithful. -/
theorem faithful_take (h : w.Faithful) (v : ViewerId) : (w.step (.take v)).Faithful := by
  rcases w.registry.next_cases v with ⟨viewer₀, p, rest, hviewer₀, hwaiting, hnext⟩ |
    ⟨hnone, hnextViewer, hviewers⟩
  · simp only [step, hnext]
    refine ⟨h.distinct, fun t v' hv' => ?_, fun v' hv' => ?_, h.lastOnly,
      fun v' seat' viewer' hseat' hviewer' => ?_⟩
    · obtain ⟨seat, hseat, htopic⟩ := h.seated t v' hv'
      rw [Table.get?_modify, hseat]
      -- the seat only learns what was taken
      split
      · exact ⟨_, rfl, htopic⟩
      · exact ⟨seat, rfl, htopic⟩
    · rw [Table.get?_modify, h.fresh v' hv']
      split <;> rfl
    · rw [Table.get?_modify] at hseat'
      rw [Table.get?_set] at hviewer'
      by_cases hv : v' = v
      · subst hv
        rw [if_pos rfl] at hseat' hviewer'
        obtain ⟨seat, hseat, rfl⟩ := Option.map_eq_some_iff.mp hseat'
        cases hviewer'
        -- the payload goes from the queue to what was taken
        have hsame : seat.taken ++ [p] ++ rest = seat.taken ++ viewer₀.waiting := by
          rw [hwaiting, List.append_assoc]
          rfl
        exact (h.kept v' seat viewer₀ hseat hviewer₀).mono rfl (by rw [hsame])
          fun hlisted hclosed => ⟨hlisted, hclosed, hsame⟩
      · rw [if_neg hv] at hseat' hviewer'
        exact h.kept v' seat' viewer' hseat' hviewer'
  -- nothing to take: the registry changes, but no queue and no bucket
  · have hfaithful : Faithful { w with registry := (w.registry.next v).2 } := by
      refine h.registry (h.distinct.congr (Registry.snapshot_next _ _)) hnextViewer
        (fun t v' hv' => by rwa [Registry.snapshot_next] at hv') fun v' viewer hviewer => ?_
      rw [hviewers] at hviewer
      exact ⟨viewer, hviewer, .refl _, fun hclosed => ⟨hclosed, rfl⟩⟩
    simp only [step]
    exact hfaithful

/-- The last payload of a topic is fanned out as it leaves the queue of the topic. -/
theorem Faithful.fanOut (h : w.Faithful) {broker : MemoryBroker}
    (hlast : (w.log t).getLast? = some payload) (hbefore : w.broker.depth t = 1)
    (hafter : broker.depth t = 0) (hothers : ∀ t', t' ≠ t → broker.depth t' = w.broker.depth t')
    (honly : ∀ t', broker.LastOnly (w.log t') t') :
    Faithful { w with broker, registry := (w.registry.fanOut t payload).2 } where
  -- fanning out only unlists viewers
  distinct := h.distinct.fanOut t payload
  seated t' v hv := h.seated t' v (Registry.mem_snapshot_of_fanOutTo _ _ _ _ _ hv)
  fresh v hv := h.fresh v (Registry.nextViewer_fanOutTo t payload _ {} w.registry ▸ hv)
  lastOnly := honly
  kept v seat viewer' hseat hviewer' := by
    change w.seats.get? v = some seat at hseat
    change Kept (w.log seat.topic) (broker.depth seat.topic) seat viewer'
      (v ∈ (w.registry.fanOut t payload).2.snapshot seat.topic)
    rw [Registry.viewer_fanOut h.distinct] at hviewer'
    by_cases hlisted : v ∈ w.registry.snapshot t
    · -- a viewer of the topic, which is its only one, is offered the payload
      obtain ⟨seat', hseat', htopic⟩ := h.seated t v hlisted
      rw [hseat] at hseat'
      cases hseat'
      rw [if_pos hlisted] at hviewer'
      obtain ⟨viewer, hviewer, rfl⟩ := Option.map_eq_some_iff.mp hviewer'
      have hkept := h.kept v seat viewer hseat hviewer
      rw [htopic, hbefore] at hkept
      rw [htopic, hafter]
      refine hkept.offer hlast fun hstays => ?_
      rw [Registry.snapshot_fanOut h.distinct, if_pos rfl] at hstays
      simpa [Registry.takes, hviewer] using (List.mem_filter.mp hstays).2
    · rw [if_neg hlisted] at hviewer'
      have hkept := h.kept v seat viewer' hseat hviewer'
      by_cases htopic : seat.topic = t
      · -- one that has left the topic misses it
        rw [htopic, hbefore] at hkept
        rw [htopic, hafter]
        exact hkept.miss fun hstays => hlisted (Registry.mem_snapshot_of_fanOutTo _ _ _ _ _ hstays)
      · rw [hothers _ htopic, Registry.snapshot_fanOut h.distinct, if_neg htopic]
        exact hkept

/-- A read and the fan-out of what it found. -/
theorem faithful_handOut (h : w.Faithful) (t : Topic) (id : Nat) :
    (w.handOut t (w.broker.pop t id)).Faithful := by
  rcases hpop : w.broker.pop t id with ⟨_ | d, broker⟩
  · rw [MemoryBroker.pop_none hpop]
    exact h
  -- the queue held one payload, the last that was accepted, and holds none now
  · obtain ⟨hlast, hbefore, hafter, honly, hothers⟩ := (h.lastOnly t).pop hpop
    refine h.fanOut hlast hbefore hafter
      (fun t' ht => MemoryBroker.depth_congr (hothers t' ht)) fun t' => ?_
    by_cases ht : t' = t
    · exact ht ▸ honly
    · exact (h.lastOnly t').congr (hothers t' ht)

/-- Every turn keeps the feed faithful. -/
theorem faithful_step (h : w.Faithful) (turn : Turn) : (w.step turn).Faithful := by
  cases turn with
  | publish t payload => exact faithful_publish h t payload
  | consume t =>
    simp only [step]
    split
    · rename_i r hr
      -- a read that is in time and one that was under way hand out alike
      obtain ⟨id, -, rfl⟩ := MemoryBroker.receive_eq_pop hr
      exact faithful_handOut h t id
    · exact h
  | resume t id =>
    simp only [step]
    split
    · exact faithful_handOut h t id
    · exact h
  | join t buffer => exact faithful_join h t buffer
  | leave t v =>
    -- the viewer that leaves is unlisted, and its queue stays as it is
    refine h.registry (h.distinct.takeOut t v) (by simp) (fun t' v' hv' => ?_)
      fun v' viewer hviewer => ?_
    · rw [Registry.snapshot_takeOut] at hv'
      split at hv'
      · rename_i ht
        exact ht ▸ (List.mem_filter.mp hv').1
      · exact hv'
    · rw [Registry.viewers_takeOut] at hviewer
      exact ⟨viewer, hviewer, .refl _, fun hclosed => ⟨hclosed, rfl⟩⟩
  | prune t =>
    refine h.registry (h.distinct.congr (Registry.snapshot_prune _ _)) (by simp)
      (fun t' v' hv' => by rwa [Registry.snapshot_prune] at hv') fun v' viewer hviewer => ?_
    rw [Registry.viewers_prune] at hviewer
    exact ⟨viewer, hviewer, .refl _, fun hclosed => ⟨hclosed, rfl⟩⟩
  | close v =>
    -- closing takes nothing from a queue
    refine h.registry h.distinct rfl (fun _ _ => id) fun v' viewer' hviewer' => ?_
    rw [Registry.close, Table.get?_modify] at hviewer'
    split at hviewer'
    · obtain ⟨viewer, hviewer, rfl⟩ := Option.map_eq_some_iff.mp hviewer'
      exact ⟨viewer, hviewer, .refl _, by rintro ⟨⟩⟩
    · exact ⟨viewer', hviewer', .refl _, fun hclosed => ⟨hclosed, rfl⟩⟩
  | detachSocket v =>
    -- without a socket nothing waits any more
    refine h.registry h.distinct rfl (fun _ _ => id) fun v' viewer' hviewer' => ?_
    rw [Registry.detachSocket, Table.get?_modify] at hviewer'
    split at hviewer'
    · obtain ⟨viewer, hviewer, rfl⟩ := Option.map_eq_some_iff.mp hviewer'
      exact ⟨viewer, hviewer, List.nil_sublist _, by simp [Viewer.isClosed]⟩
    · exact ⟨viewer', hviewer', .refl _, fun hclosed => ⟨hclosed, rfl⟩⟩
  | take v => exact faithful_take h v
  | connect =>
    -- the broker's link alone changes no queue
    have hqueues := w.broker.queues_connect
    exact h.broker (fun t => (h.lastOnly t).congr (by rw [hqueues]))
      fun t => MemoryBroker.depth_congr (by rw [hqueues])
  | sever => exact h.broker h.lastOnly fun _ => rfl
  | refuse count => exact h.broker h.lastOnly fun _ => rfl
  | teardown => exact h.broker (fun t => (h.lastOnly t).teardown) fun t => w.broker.depth_teardown t
  | declare t =>
    simp only [step]
    split
    · rename_i broker hdeclare
      exact h.broker (fun t' => (h.lastOnly t').declare hdeclare)
        fun t' => MemoryBroker.depth_declare hdeclare t'
    · exact h

/-- The feed is faithful after any turns. -/
theorem faithful_run (turns : List Turn) : (run turns).Faithful := by
  have hfrom : ∀ w : Feed, w.Faithful → (turns.foldl step w).Faithful := by
    induction turns with
    | nil => exact fun _ h => h
    | cons turn rest ih => exact fun w h => ih _ (faithful_step h turn)
  -- at the start nobody is seated and nothing is queued
  refine hfrom {} ⟨fun _ => List.nodup_nil, fun _ _ hv => ?_, fun _ _ => rfl, fun _ _ hq => ?_,
    fun _ _ _ hseat => ?_⟩
  · cases hv
  · cases hq
  · cases hseat

/-- **Nothing is lost but intermediate values.** After any turns, what a viewer has taken is a
subsequence of what its topic has accepted. If the queue of the topic is empty, and the topic has accepted
something since the viewer joined, then a viewer that is still listed and open has the last accepted payload
as the last that it has taken or that waits for it. -/
theorem conflates (turns : List Turn) (v : ViewerId) (seat : Seat) (viewer : Viewer)
    (seated : (run turns).seats.get? v = some seat)
    (queued : (run turns).registry.viewers.get? v = some viewer) :
    seat.taken.Sublist ((run turns).log seat.topic) ∧
    ((run turns).broker.depth seat.topic = 0 → seat.joined < ((run turns).log seat.topic).length →
      v ∈ (run turns).registry.snapshot seat.topic → viewer.isClosed = false →
      (seat.taken ++ viewer.waiting).getLast? = ((run turns).log seat.topic).getLast?) := by
  have hkept := (faithful_run turns).kept v seat viewer seated queued
  refine ⟨?_, hkept.latest⟩
  refine (List.sublist_append_left seat.taken viewer.waiting).trans (hkept.sub.trans ?_)
  split
  · exact .refl _
  · exact List.dropLast_sublist _

/-- Of two payloads that are accepted before the consumer turns to the queue, the viewer gets the second,
also through a loss of the connection. -/
theorem conflates_two_published :
    let w := run [.connect, .declare .allRooms, .join .allRooms 4, .publish .allRooms "first",
      .publish .allRooms "second", .sever, .teardown, .connect, .declare .allRooms,
      .consume .allRooms, .take 1]
    w.log .allRooms = ["first", "second"] ∧ ["second"].Sublist (w.log .allRooms) ∧
      (["second"] ++ []).getLast? = (w.log .allRooms).getLast? :=
  have h := conflates [.connect, .declare .allRooms, .join .allRooms 4, .publish .allRooms "first",
      .publish .allRooms "second", .sever, .teardown, .connect, .declare .allRooms,
      .consume .allRooms, .take 1]
    1 ⟨.allRooms, 0, ["second"]⟩ { capacity := 4 } rfl rfl
  ⟨rfl, h.1, h.2 rfl (by decide) (by decide) rfl⟩

end Feed

end Occupancy
