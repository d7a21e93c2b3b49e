import Mathlib.Data.List.Basic
import Occupancy.Fanout.Registry
import Occupancy.Proofs.Table

/-!
# What each operation does to a registry

A registry is seen through two views: `snapshot`, the viewers of a topic, and the queue of each viewer.
Every operation is described by what it does to the two. Main statements: `snapshot_fanOut` and
`viewer_fanOut`. A fan-out offers the payload once to every viewer of its topic, keeps those that take it,
and touches nothing else.
-/

namespace Occupancy

namespace Viewer

def takes (v : Viewer) : Bool :=
  !v.isClosed && decide (v.waiting.length < v.capacity)

/-- The viewer after it was offered a payload: it waits last in the queue, or the viewer is told to
close. -/
def offer (v : Viewer) (payload : String) : Viewer :=
  if v.takes then { v with waiting := v.waiting ++ [payload] } else { v with closed := true }

theorem takes_iff {v : Viewer} :
    v.takes = true ↔ v.isClosed = false ∧ v.waiting.length < v.capacity := by
  simp only [takes, Bool.and_eq_true, Bool.not_eq_true', decide_eq_true_eq]

theorem deliver_of_takes {v : Viewer} (h : v.takes = true) (payload : String) :
    v.deliver payload = .ok { v with waiting := v.waiting ++ [payload] } := by
  obtain ⟨hopen, hroom⟩ := takes_iff.mp h
  simp only [isClosed] at hopen
  rw [deliver, hopen, if_neg Bool.false_ne_true, if_neg (Nat.not_le.mpr hroom)]

theorem deliver_of_not_takes {v : Viewer} (h : v.takes = false) (payload : String) :
    ∃ e, v.deliver payload = .error e := by
  unfold deliver
  split
  · exact ⟨_, rfl⟩
  · rename_i hopen
    split
    · exact ⟨_, rfl⟩
    · rename_i hroom
      -- an open viewer with room takes the payload
      have takes : v.takes = true := takes_iff.mpr ⟨Bool.eq_false_iff.mpr hopen, Nat.lt_of_not_le hroom⟩
      rw [h] at takes
      cases takes

end Viewer

namespace Registry

variable {r r' : Registry} {t t' : Topic} {v v' : ViewerId} {payload : String}

/-! ## Viewers of a topic -/

theorem snapshot_congr (h : r'.buckets = r.buckets) : r'.snapshot = r.snapshot := by
  funext t
  rw [snapshot, snapshot, h]

@[simp] theorem snapshot_close (r : Registry) (v : ViewerId) : (r.close v).snapshot = r.snapshot :=
  rfl

@[simp] theorem snapshot_next (r : Registry) (v : ViewerId) : (r.next v).2.snapshot = r.snapshot := by
  unfold next
  cases r.viewers.get? v <;> rfl

/-- Adding a viewer puts it at the end of its bucket, unless it is there. -/
theorem snapshot_add (r : Registry) (t t' : Topic) (v : ViewerId) :
    (r.add t v).2.snapshot t' =
      if t' = t then (if v ∈ r.snapshot t then r.snapshot t else r.snapshot t ++ [v])
      else r.snapshot t' := by
  by_cases h : t' = t <;> simp [add, snapshot, h]

theorem snapshot_takeOut (r : Registry) (t t' : Topic) (v : ViewerId) :
    (r.takeOut t v).2.snapshot t' =
      if t' = t then (r.snapshot t).filter (· ≠ v) else r.snapshot t' := by
  by_cases hv : v ∈ r.snapshot t
  · simp only [takeOut, if_pos hv]
    by_cases h : t' = t <;> simp [snapshot, h]
  · -- nobody to take out
    have hall : (r.snapshot t).filter (· ≠ v) = r.snapshot t :=
      List.filter_eq_self.mpr fun v' hv' => decide_eq_true fun heq => hv (heq ▸ hv')
    simp only [takeOut, if_neg hv, hall]
    split
    · rename_i h
      rw [h]
    · rfl

/-- Pruning takes away a bucket that is empty, which nobody can see. -/
@[simp] theorem snapshot_prune (r : Registry) (t : Topic) : (r.prune t).snapshot = r.snapshot := by
  unfold prune
  split
  -- the bucket that goes had nobody in it
  · rename_i hempty
    funext t'
    by_cases h : t' = t
    · subst h
      rw [List.isEmpty_iff.mp hempty]
      simp [snapshot]
    · simp [snapshot, h]
  · rfl

/-- Removing a viewer takes it out of its bucket, and leaves the others. -/
theorem snapshot_remove (r : Registry) (t t' : Topic) (v : ViewerId) :
    (r.remove t v).2.snapshot t' =
      if t' = t then (r.snapshot t).filter (· ≠ v) else r.snapshot t' := by
  rw [← snapshot_takeOut, remove, snapshot_prune]

theorem snapshot_of_deliver (h : r.deliver v payload = .ok r') : r'.snapshot = r.snapshot := by
  unfold deliver at h
  split at h
  · cases h
  · split at h <;> cases h
    rfl

/-- Who is listed after an addition. -/
theorem mem_snapshot_add :
    v' ∈ (r.add t v).2.snapshot t' ↔ v' ∈ r.snapshot t' ∨ (t' = t ∧ v' = v) := by
  rw [snapshot_add]
  by_cases h : t' = t
  · subst h
    by_cases hv : v ∈ r.snapshot t'
    · simp only [if_pos hv, if_true, true_and]
      exact ⟨.inl, fun h => h.elim id fun heq => heq ▸ hv⟩
    · simp [if_neg hv]
  · simp [h]

/-- A topic that somebody watches is listed. -/
theorem mem_topics (h : v ∈ r.snapshot t) : t ∈ r.topics := by
  rw [topics, Table.mem_keys]
  cases hb : r.buckets.get? t with
  | none => simp [snapshot, hb] at h
  | some bucket => rfl

/-- Without an empty bucket, a topic is listed exactly if it has viewers. -/
theorem mem_topics_iff (h : r.buckets.get? t ≠ some []) : t ∈ r.topics ↔ r.snapshot t ≠ [] := by
  rw [topics, Table.mem_keys, snapshot]
  cases hbucket : r.buckets.get? t with
  | none => simp
  | some bucket =>
    rw [hbucket] at h
    simpa using h

/-- A removal leaves the buckets of other topics. -/
theorem get?_buckets_remove (r : Registry) (v : ViewerId) (h : t' ≠ t) :
    (r.remove t v).2.buckets.get? t' = r.buckets.get? t' := by
  have hpruned : ∀ r : Registry, (r.prune t).buckets.get? t' = r.buckets.get? t' := by
    intro r
    unfold prune
    split
    · exact (Table.get?_erase _ _ _).trans (if_neg h)
    · rfl
  -- the removal touches the bucket of its own topic only
  rw [remove, hpruned]
  by_cases hv : v ∈ r.snapshot t
  · simp [takeOut, hv, h]
  · simp [takeOut, hv]

/-- Pruning leaves no empty bucket. -/
theorem bucket_prune_ne_nil (r : Registry) (t : Topic) : (r.prune t).buckets.get? t ≠ some [] := by
  intro hbucket
  unfold prune at hbucket
  split at hbucket
  · simp at hbucket
  · rename_i hsome
    rw [snapshot, hbucket] at hsome
    exact hsome rfl

/-! ## Queues of viewers -/

@[simp] theorem viewers_takeOut (r : Registry) (t : Topic) (v : ViewerId) :
    (r.takeOut t v).2.viewers = r.viewers := by
  by_cases hv : v ∈ r.snapshot t
  · simp only [takeOut, if_pos hv]
  · simp only [takeOut, if_neg hv]

@[simp] theorem viewers_prune (r : Registry) (t : Topic) : (r.prune t).viewers = r.viewers := by
  unfold prune
  split <;> rfl

@[simp] theorem viewers_remove (r : Registry) (t : Topic) (v : ViewerId) :
    (r.remove t v).2.viewers = r.viewers := by
  rw [remove, viewers_prune, viewers_takeOut]

@[simp] theorem nextViewer_takeOut (r : Registry) (t : Topic) (v : ViewerId) :
    (r.takeOut t v).2.nextViewer = r.nextViewer := by
  by_cases hv : v ∈ r.snapshot t
  · simp only [takeOut, if_pos hv]
  · simp only [takeOut, if_neg hv]

@[simp] theorem nextViewer_prune (r : Registry) (t : Topic) : (r.prune t).nextViewer = r.nextViewer := by
  unfold prune
  split <;> rfl

/-- What a viewer's turn to its queue comes to. -/
theorem next_cases (r : Registry) (v : ViewerId) :
    (∃ viewer p rest, r.viewers.get? v = some viewer ∧ viewer.waiting = p :: rest ∧
      r.next v = (.payload p, { r with
        viewers := r.viewers.set v { viewer with waiting := rest } })) ∨
    ((∀ p, (r.next v).1 ≠ .payload p) ∧ (r.next v).2.nextViewer = r.nextViewer ∧
      ∀ v', (r.next v).2.viewers.get? v' = r.viewers.get? v') := by
  unfold next
  cases hv : r.viewers.get? v with
  -- an unknown viewer has nothing to take
  | none => exact .inr ⟨nofun, rfl, fun _ => rfl⟩
  | some viewer =>
    have hsame : ∀ v', (r.viewers.set v viewer).get? v' = r.viewers.get? v' := by
      intro v'
      rw [Table.get?_set, ← Table.get?_self hv]
    cases hclosed : viewer.closed with
    -- closed, empty or with something to take
    | true => exact .inr (by simpa [Viewer.next, hclosed] using hsame)
    | false =>
      cases hwaiting : viewer.waiting with
      | nil => exact .inr (by simpa [Viewer.next, hclosed, hwaiting] using hsame)
      | cons p rest =>
        exact .inl ⟨viewer, p, rest, rfl, hwaiting, by simp [Viewer.next, hclosed, hwaiting]⟩

/-! ## Fan-out -/

/-- Can the viewer with this number take another payload? -/
def takes (r : Registry) (v : ViewerId) : Bool :=
  (r.viewers.get? v).any Viewer.takes

/-- What offering a payload to one viewer of a topic comes to. -/
theorem deliver_cases (r : Registry) (v : ViewerId) (payload : String) :
    (r.takes v = true ∧ ∃ r', r.deliver v payload = .ok r' ∧ r'.buckets = r.buckets ∧
      r'.nextViewer = r.nextViewer ∧ ∀ v', r'.viewers.get? v' =
        if v' = v then (r.viewers.get? v').map (·.offer payload) else r.viewers.get? v') ∨
    (r.takes v = false ∧ (∃ e, r.deliver v payload = .error e) ∧
      ∀ v', (r.close v).viewers.get? v' =
        if v' = v then (r.viewers.get? v').map (·.offer payload) else r.viewers.get? v') := by
  cases hv : r.viewers.get? v with
  | none =>
    -- a viewer that is not known takes nothing, and closing it does nothing
    right
    refine ⟨by simp [takes, hv], ⟨.closed, by simp [deliver, hv]⟩, fun v' => ?_⟩
    rw [close, Table.get?_modify]
    by_cases h : v' = v
    · subst h; simp [hv]
    · simp [h]
  | some viewer =>
    cases htakes : viewer.takes with
    -- a viewer that takes the payload is the only one that changes
    | true =>
      left
      refine ⟨by simp [takes, hv, htakes],
        { r with viewers := r.viewers.set v { viewer with waiting := viewer.waiting ++ [payload] } },
        ?_, rfl, rfl, fun v' => ?_⟩
      · simp only [deliver, hv, Viewer.deliver_of_takes htakes]
      · by_cases h : v' = v
        · subst h; simp [hv, Viewer.offer, htakes]
        · simp [h]
    | false =>
      -- and one that does not is closed, which is what offering to it comes to
      right
      obtain ⟨e, he⟩ := Viewer.deliver_of_not_takes htakes payload
      refine ⟨by simp [takes, hv, htakes], ⟨e, by simp only [deliver, hv, he]⟩, fun v' => ?_⟩
      rw [close, Table.get?_modify]
      by_cases h : v' = v
      · subst h; simp [hv, Viewer.offer, htakes]
      · simp [h]

theorem takes_congr (h : r'.viewers.get? v = r.viewers.get? v) : r'.takes v = r.takes v := by
  rw [takes, takes, h]

/-- Offering a payload to distinct viewers of a topic, one after the other. The report counts those that take it
and those that do not. -/
theorem fanOutTo_spec (t : Topic) (payload : String) {ids : List ViewerId} (nodup : ids.Nodup)
    (report : FanOutReport) (r : Registry) :
    (∀ v, (fanOutTo t payload ids (report, r)).2.viewers.get? v =
      if v ∈ ids then (r.viewers.get? v).map (·.offer payload) else r.viewers.get? v) ∧
    (∀ t', (fanOutTo t payload ids (report, r)).2.snapshot t' =
      if t' = t then (r.snapshot t).filter (fun v => v ∉ ids || r.takes v) else r.snapshot t') ∧
    (fanOutTo t payload ids (report, r)).1 =
      ⟨report.delivered + ids.countP r.takes, report.dropped + ids.countP fun v => !r.takes v⟩ := by
  induction ids generalizing report r with
  | nil =>
    refine ⟨fun v => by simp [fanOutTo], fun t' => ?_, rfl⟩
    by_cases h : t' = t
    · simp [fanOutTo, h]
    · simp [fanOutTo, h]
  | cons id rest ih =>
    obtain ⟨fresh, nodup⟩ := List.nodup_cons.mp nodup
    -- after the offer to `id` the others are as they were
    have offered : ∀ {r₁ : Registry}, (∀ v, r₁.viewers.get? v =
          if v = id then (r.viewers.get? v).map (·.offer payload) else r.viewers.get? v) →
        (∀ v, v ≠ id → r₁.takes v = r.takes v) ∧
        (∀ v, (if v ∈ rest then (r₁.viewers.get? v).map (·.offer payload) else r₁.viewers.get? v) =
          if v ∈ id :: rest then (r.viewers.get? v).map (·.offer payload) else r.viewers.get? v) ∧
        rest.countP r₁.takes = rest.countP r.takes ∧
        (rest.countP fun v => !r₁.takes v) = rest.countP fun v => !r.takes v := by
      intro r₁ hviewers
      have hothers : ∀ v, v ≠ id → r₁.takes v = r.takes v := fun v hv =>
        takes_congr (by rw [hviewers, if_neg hv])
      have hrest : ∀ v ∈ rest, r₁.takes v = r.takes v := fun v hv =>
        hothers v fun heq => fresh (heq ▸ hv)
      refine ⟨hothers, fun v => ?_, List.countP_congr fun v hv => by rw [hrest v hv],
        List.countP_congr fun v hv => by rw [hrest v hv]⟩
      by_cases hv : v = id
      · subst hv
        simp [fresh, hviewers]
      · simp [hv, hviewers]
    rcases r.deliver_cases id payload with
      ⟨htakes, r₁, hdeliver, hbuckets, -, hviewers⟩ | ⟨htakes, ⟨e, hdeliver⟩, hviewers⟩
    · -- the viewer takes the payload and stays
      obtain ⟨hothers, hafter, hdelivered, hdropped⟩ := offered hviewers
      obtain ⟨ihviewers, ihsnapshot, ihreport⟩ :=
        ih nodup { report with delivered := report.delivered + 1 } r₁
      rw [fanOutTo, hdeliver]
      refine ⟨fun v => (ihviewers v).trans (hafter v), fun t' => ?_, ?_⟩
      · rw [ihsnapshot, snapshot_congr hbuckets]
        congr 1
        refine List.filter_congr fun v _ => ?_
        by_cases hv : v = id
        · subst hv
          simp [fresh, htakes]
        · simp [hv, hothers v hv]
      · rw [ihreport, hdelivered, hdropped]
        simp [htakes, Nat.add_assoc, Nat.add_comm]
    · -- the viewer leaves the topic and is told to close
      have hviewers₁ : ∀ v, ((r.remove t id).2.close id).viewers.get? v =
          if v = id then (r.viewers.get? v).map (·.offer payload) else r.viewers.get? v := by
        intro v
        rw [← hviewers v, close, close, viewers_remove]
      obtain ⟨hothers, hafter, hdelivered, hdropped⟩ := offered hviewers₁
      obtain ⟨ihviewers, ihsnapshot, ihreport⟩ :=
        ih nodup { report with dropped := report.dropped + 1 } ((r.remove t id).2.close id)
      rw [fanOutTo, hdeliver]
      refine ⟨fun v => (ihviewers v).trans (hafter v), fun t' => ?_, ?_⟩
      · rw [ihsnapshot, snapshot_close, snapshot_remove, snapshot_remove, if_pos rfl, List.filter_filter]
        by_cases ht : t' = t
        · rw [if_pos ht, if_pos ht]
          refine List.filter_congr fun v _ => ?_
          by_cases hv : v = id
          · subst hv
            simp [htakes]
          · simp [hv, hothers v hv]
        · simp only [if_neg ht]
      · rw [ihreport, hdelivered, hdropped]
        simp [htakes, Nat.add_assoc, Nat.add_comm]

/-- A fan-out adds nobody to a topic. -/
-- each offer leaves the bucket or takes one viewer out
theorem mem_snapshot_of_fanOutTo (t : Topic) (payload : String) (ids : List ViewerId)
    (report : FanOutReport) (r : Registry)
    (h : v ∈ (fanOutTo t payload ids (report, r)).2.snapshot t') : v ∈ r.snapshot t' := by
  induction ids generalizing report r with
  | nil => exact h
  | cons id rest ih =>
    rw [fanOutTo] at h
    cases hdeliver : r.deliver id payload with
    | ok r₁ =>
      rw [hdeliver] at h
      rw [← snapshot_of_deliver hdeliver]
      exact ih _ _ h
    | error e =>
      rw [hdeliver] at h
      have hmem := ih _ _ h
      rw [snapshot_close, snapshot_remove] at hmem
      split at hmem
      · rename_i ht
        rw [ht]
        exact (List.mem_filter.mp hmem).1
      · exact hmem

/-- Fanning out gives out no number. -/
theorem nextViewer_fanOutTo (t : Topic) (payload : String) (ids : List ViewerId)
    (report : FanOutReport) (r : Registry) :
    (fanOutTo t payload ids (report, r)).2.nextViewer = r.nextViewer := by
  induction ids generalizing report r with
  | nil => rfl
  | cons id rest ih =>
    rw [fanOutTo]
    rcases r.deliver_cases id payload with ⟨-, r₁, hdeliver, -, hnext, -⟩ | ⟨-, ⟨e, hdeliver⟩, -⟩ <;>
      rw [hdeliver]
    · exact (ih _ _).trans hnext
    · refine (ih _ _).trans ?_
      rw [close, remove, nextViewer_prune, nextViewer_takeOut]

/-- A fan-out leaves the buckets of other topics, and no empty bucket at its own, unless one was there. -/
theorem buckets_fanOutTo (t : Topic) (payload : String) (ids : List ViewerId) (report : FanOutReport)
    (r : Registry) :
    (∀ t', t' ≠ t → (fanOutTo t payload ids (report, r)).2.buckets.get? t' = r.buckets.get? t') ∧
    (r.buckets.get? t ≠ some [] → (fanOutTo t payload ids (report, r)).2.buckets.get? t ≠ some []) := by
  induction ids generalizing report r with
  | nil => exact ⟨fun _ _ => rfl, id⟩
  | cons id rest ih =>
    rw [fanOutTo]
    rcases r.deliver_cases id payload with ⟨-, r₁, hdeliver, hbuckets, -, -⟩ | ⟨-, ⟨e, hdeliver⟩, -⟩ <;>
      rw [hdeliver]
    -- a viewer that takes it leaves the buckets as they are
    · rw [← hbuckets]
      exact ih _ r₁
    -- one that does not is removed, and its bucket is pruned at once
    · obtain ⟨hothers, hown⟩ := ih { report with dropped := report.dropped + 1 }
        ((r.remove t id).2.close id)
      exact ⟨fun t' ht' => (hothers t' ht').trans (get?_buckets_remove r id ht'),
        fun _ => hown (bucket_prune_ne_nil _ t)⟩

/-- The viewers of a topic are all different. -/
def Distinct (r : Registry) : Prop :=
  ∀ t, (r.snapshot t).Nodup

theorem Distinct.congr (h : r.Distinct) (same : r'.snapshot = r.snapshot) : r'.Distinct := by
  intro t
  rw [same]
  exact h t

/-- Adding a viewer leaves the buckets without repetitions. -/
theorem Distinct.add (h : r.Distinct) (t : Topic) (v : ViewerId) : (r.add t v).2.Distinct := by
  intro t'
  rw [snapshot_add]
  split
  · split
    · exact h t
    -- the viewer was not in the bucket it is put into
    · rename_i hv
      refine List.nodup_append.mpr ⟨h t, by simp, fun v₁ h₁ v₂ h₂ heq => hv ?_⟩
      rwa [← List.mem_singleton.mp h₂, ← heq]
  · exact h t'

/-- Taking a viewer out leaves the buckets without repetitions. -/
theorem Distinct.takeOut (h : r.Distinct) (t : Topic) (v : ViewerId) : (r.takeOut t v).2.Distinct := by
  intro t'
  rw [snapshot_takeOut]
  split
  · exact (h t).filter _
  · exact h t'

/-- A fan-out offers the payload to the viewers of its topic and to nobody else. -/
theorem viewer_fanOut (h : r.Distinct) (t : Topic) (payload : String) (v : ViewerId) :
    (r.fanOut t payload).2.viewers.get? v =
      if v ∈ r.snapshot t then (r.viewers.get? v).map (·.offer payload) else r.viewers.get? v :=
  (fanOutTo_spec t payload (h t) {} r).1 v

/-- A fan-out keeps the viewers of its topic that take the payload. -/
theorem snapshot_fanOut (h : r.Distinct) (t t' : Topic) (payload : String) :
    (r.fanOut t payload).2.snapshot t' =
      if t' = t then (r.snapshot t).filter r.takes else r.snapshot t' := by
  rw [fanOut, (fanOutTo_spec t payload (h t) {} r).2.1 t']
  congr 1
  exact List.filter_congr fun v hv => by simp [hv]

/-- Fanning out leaves the buckets without repetitions. -/
theorem Distinct.fanOut (h : r.Distinct) (t : Topic) (payload : String) :
    (r.fanOut t payload).2.Distinct := by
  intro t'
  rw [snapshot_fanOut h]
  split
  · exact (h t).filter _
  · exact h t'

end Registry

end Occupancy
