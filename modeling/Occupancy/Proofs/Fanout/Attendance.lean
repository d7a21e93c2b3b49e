import Mathlib.Data.Finset.Card
import Occupancy.Proofs.Fanout.Registry

/-!
# The registry is the set of who listens where

A removal has two halves, and anything may come between them: others join the topic that was just left by its
last viewer, or leave it as well. Attendance is the registry with the removals that are half done. It stands for
the pairs of a topic and a viewer that were added and not taken out since. Main statement: `represents`. A topic
without viewers is still listed only while a removal from it is half done.
-/

namespace Occupancy

namespace Registry

variable {r : Registry} {t t' : Topic} {v : ViewerId}

/-! ## Topics that are listed -/

theorem mem_topics_add : t' ∈ (r.add t v).2.topics ↔ t' = t ∨ t' ∈ r.topics := by
  simp only [topics, Table.mem_keys, add, Table.get?_set]
  by_cases h : t' = t <;> simp [h]

/-- Taking a viewer out lists no new topic. -/
theorem mem_topics_of_takeOut (h : t' ∈ (r.takeOut t v).2.topics) : t' ∈ r.topics := by
  by_cases hv : v ∈ r.snapshot t
  · by_cases ht : t' = t
    · rw [ht]
      exact mem_topics hv
    · simpa [topics, Table.mem_keys, takeOut, hv, ht] using h
  · simpa only [takeOut, if_neg hv] using h

/-- Pruning a topic drops it if nobody listens to it. -/
theorem mem_topics_prune : t' ∈ (r.prune t).topics ↔ t' ∈ r.topics ∧ (t' = t → r.snapshot t ≠ []) := by
  cases hbucket : r.snapshot t with
  | nil =>
    simp only [prune, hbucket, topics, Table.mem_keys]
    by_cases h : t' = t <;> simp [h]
  | cons v rest => simp [prune, hbucket]

/-! ## Who listens where -/

def pairs (r : Registry) : List (Topic × ViewerId) :=
  r.buckets.entries.flatMap fun (t, ids) => ids.map fun v => (t, v)

/-- A pair is one of the registry's exactly if the viewer is in the topic's bucket. -/
theorem mem_pairs : (t, v) ∈ r.pairs ↔ v ∈ r.snapshot t := by
  simp only [pairs, List.mem_flatMap, List.mem_map, Prod.mk.injEq]
  constructor
  · rintro ⟨⟨t, ids⟩, hmem, v, hv, rfl, rfl⟩
    rwa [snapshot, Table.mem_entries_iff.mp hmem]
  · intro hv
    -- a topic without a bucket has no pairs
    cases hbucket : r.buckets.get? t with
    | none => simp [snapshot, hbucket] at hv
    | some ids =>
      rw [snapshot, hbucket] at hv
      exact ⟨(t, ids), Table.mem_entries_iff.mpr hbucket, v, hv, rfl, rfl⟩

/-- The registry's total is the number of its pairs. -/
theorem length_pairs (r : Registry) : r.pairs.length = r.total := by
  unfold pairs total Table.values
  induction r.buckets.entries with
  | nil => rfl
  | cons e rest ih => simp [ih]

/-- Topics are different, and so are the viewers of one topic. -/
theorem Distinct.nodup_pairs (h : r.Distinct) : r.pairs.Nodup := by
  refine List.nodup_flatMap.mpr ⟨fun ⟨t, ids⟩ hmem => ?_, ?_⟩
  · have hids : r.snapshot t = ids := by rw [snapshot, Table.mem_entries_iff.mp hmem]; rfl
    exact (hids ▸ h t).map fun v v' heq => (Prod.mk.inj heq).2
  -- two buckets share no pair, since their topics differ
  · refine (List.pairwise_map.mp r.buckets.distinct).imp fun {e e'} hne => ?_
    rintro p hp hp'
    obtain ⟨v, -, rfl⟩ := List.mem_map.mp hp
    obtain ⟨v', -, heq⟩ := List.mem_map.mp hp'
    exact hne (Prod.mk.inj heq).1.symm

end Registry

/-- The registry, with the removals that are half done. -/
structure Attendance where
  registry : Registry := {}
  /-- The topics of removals whose second half is to come. -/
  halfDone : List Topic := []

namespace Attendance

/-- What happens next, indivisible. -/
inductive Turn where
  | add (t : Topic) (v : ViewerId)
  /-- First half of a removal. -/
  | takeOut (t : Topic) (v : ViewerId)
  /-- Second half of a removal from the topic, if one is half done. -/
  | prune (t : Topic)

def step (w : Attendance) : Turn → Attendance
  | .add t v => { w with registry := (w.registry.add t v).2 }
  | .takeOut t v => { registry := (w.registry.takeOut t v).2, halfDone := t :: w.halfDone }
  | .prune t =>
    if t ∈ w.halfDone then { registry := w.registry.prune t, halfDone := w.halfDone.erase t } else w

/-- Attendance after a list of turns, from nothing at all. -/
def run (turns : List Turn) : Attendance :=
  turns.foldl step {}

/-! ## The set of pairs -/

def Turn.update (pairs : Finset (Topic × ViewerId)) : Turn → Finset (Topic × ViewerId)
  | .add t v => insert (t, v) pairs
  | .takeOut t v => pairs.erase (t, v)
  | .prune _ => pairs

/-- The pairs that were added and not taken out since. -/
def present (turns : List Turn) : Finset (Topic × ViewerId) :=
  turns.foldl Turn.update ∅

variable {turns : List Turn} {t : Topic} {v : ViewerId}

theorem present_concat (turns : List Turn) (turn : Turn) :
    present (turns ++ [turn]) = turn.update (present turns) := by
  rw [present, List.foldl_append, List.foldl_cons, List.foldl_nil, present]

/-- Which pairs are there after a turn. -/
theorem mem_update {pairs : Finset (Topic × ViewerId)} {turn : Turn} :
    (t, v) ∈ turn.update pairs ↔ turn = .add t v ∨ turn ≠ .takeOut t v ∧ (t, v) ∈ pairs := by
  cases turn with
  | add t' v' => simp [Turn.update, eq_comm]
  | takeOut t' v' => simp [Turn.update, eq_comm]
  | prune t' => simp [Turn.update]

/-- A pair is present if it was added at some time and not taken out after that. -/
theorem mem_present_iff : (t, v) ∈ present turns ↔
    ∃ before after, turns = before ++ .add t v :: after ∧ .takeOut t v ∉ after := by
  induction turns using List.reverseRecOn with
  | nil => simp [present]
  | append_singleton turns turn ih =>
    rw [present_concat, mem_update, ih]
    constructor
    · rintro (rfl | ⟨hne, before, after, rfl, hafter⟩)
      -- the newest turn is the addition
      · exact ⟨turns, [], rfl, List.not_mem_nil⟩
      · refine ⟨before, after ++ [turn], by simp, ?_⟩
        simpa [hafter] using hne.symm
    · rintro ⟨before, after, heq, hafter⟩
      -- the last turn is the addition itself, or comes after it
      rcases List.eq_nil_or_concat after with rfl | ⟨after, last, rfl⟩
      · exact .inl (List.singleton_inj.mp (List.append_inj_right' heq rfl))
      · rw [List.concat_eq_append, ← List.cons_append, ← List.append_assoc] at heq
        obtain ⟨rfl, hlast⟩ := List.append_inj' heq rfl
        obtain rfl := List.singleton_inj.mp hlast
        simp only [List.concat_eq_append, List.mem_append, List.mem_singleton, not_or] at hafter
        exact .inr ⟨Ne.symm hafter.2, before, after, rfl, hafter.1⟩

/-! ## The registry stands for the set -/

/-- The registry has each pair of a set once. A topic without viewers is listed only while a removal from it is
half done. -/
structure Lists (w : Attendance) (pairs : Finset (Topic × ViewerId)) : Prop where
  distinct : w.registry.Distinct
  mem_iff : ∀ t v, v ∈ w.registry.snapshot t ↔ (t, v) ∈ pairs
  deserted : ∀ t ∈ w.registry.topics, w.registry.snapshot t = [] → t ∈ w.halfDone

theorem Lists.step {w : Attendance} {pairs : Finset (Topic × ViewerId)} (h : w.Lists pairs) (turn : Turn) :
    (w.step turn).Lists (turn.update pairs) := by
  obtain ⟨distinct, mem_iff, deserted⟩ := h
  cases turn with
  | add t v =>
    refine ⟨distinct.add t v, fun t' v' => ?_, fun t' ht' hnone => ?_⟩
    · simp only [Attendance.step, Registry.mem_snapshot_add, mem_iff, Turn.update, Finset.mem_insert,
        Prod.mk.injEq]
      exact or_comm
    · -- the topic of the new viewer has that viewer
      have hv : ¬ (t' = t ∧ v = v) := fun heq =>
        List.not_mem_nil (hnone ▸ Registry.mem_snapshot_add.mpr (.inr heq))
      have hne : t' ≠ t := fun heq => hv ⟨heq, rfl⟩
      rw [Attendance.step, Registry.snapshot_add, if_neg hne] at hnone
      exact deserted t' ((Registry.mem_topics_add.mp ht').resolve_left hne) hnone
  | takeOut t v =>
    refine ⟨distinct.takeOut t v, fun t' v' => ?_, fun t' ht' hnone => ?_⟩
    · simp only [Attendance.step, Registry.snapshot_takeOut, Turn.update, Finset.mem_erase, ne_eq,
        Prod.mk.injEq, ← mem_iff]
      by_cases ht : t' = t <;> simp [ht, and_comm]
    -- the topic the viewer was taken from is now one that may be deserted
    · by_cases ht : t' = t
      · exact ht ▸ List.mem_cons_self
      · rw [Attendance.step, Registry.snapshot_takeOut, if_neg ht] at hnone
        exact List.mem_cons_of_mem _ (deserted t' (Registry.mem_topics_of_takeOut ht') hnone)
  | prune t =>
    rw [Attendance.step]
    split
    · refine ⟨distinct.congr (Registry.snapshot_prune _ _), fun t' v' => ?_, fun t' ht' hnone => ?_⟩
      · rw [Registry.snapshot_prune]
        exact mem_iff t' v'
      · rw [Registry.snapshot_prune] at hnone
        obtain ⟨hlisted, hsome⟩ := Registry.mem_topics_prune.mp ht'
        -- a deserted topic that is still listed is another one
        have hne : t' ≠ t := fun heq => hsome heq (heq ▸ hnone)
        exact (List.mem_erase_of_ne hne).mpr (deserted t' hlisted hnone)
    -- somebody came back in the meantime, so nothing is pruned
    · exact ⟨distinct, mem_iff, deserted⟩

/-- After any turns the registry lists the pairs that were added and not taken out. -/
theorem lists_run (turns : List Turn) : (run turns).Lists (present turns) := by
  induction turns using List.reverseRecOn with
  | nil =>
    refine ⟨fun _ => List.nodup_nil, fun t v => ?_, nofun⟩
    exact iff_of_false List.not_mem_nil (Finset.notMem_empty _)
  | append_singleton turns turn ih =>
    rw [present_concat, run, List.foldl_append]
    exact ih.step turn

section

variable {w : Attendance} {pairs : Finset (Topic × ViewerId)}

/-- The count of a topic is the number of its pairs. -/
theorem Lists.count_eq (h : w.Lists pairs) (t : Topic) :
    w.registry.count t = (pairs.filter (·.1 = t)).card := by
  have himage : (w.registry.snapshot t).toFinset.image (t, ·) = pairs.filter (·.1 = t) := by
    ext ⟨t', v⟩
    simp only [Finset.mem_image, List.mem_toFinset, Finset.mem_filter, Prod.mk.injEq, ← h.mem_iff]
    constructor
    · rintro ⟨v, hv, rfl, rfl⟩
      exact ⟨hv, rfl⟩
    · rintro ⟨hv, rfl⟩
      exact ⟨v, hv, rfl, rfl⟩
  -- distinct viewers make distinct pairs, so counting either comes to the same
  rw [← himage, Finset.card_image_of_injective _ (Prod.mk_right_injective t),
    List.toFinset_card_of_nodup (h.distinct t), Registry.count]

/-- The total is the number of all pairs. -/
theorem Lists.total_eq (h : w.Lists pairs) : w.registry.total = pairs.card := by
  have hpairs : w.registry.pairs.toFinset = pairs := by
    ext ⟨t, v⟩
    rw [List.mem_toFinset, Registry.mem_pairs, h.mem_iff]
  rw [← Registry.length_pairs, ← List.toFinset_card_of_nodup h.distinct.nodup_pairs, hpairs]

/-- With no removal from it half done, a topic has no empty bucket. -/
theorem Lists.bucket_ne_nil (h : w.Lists pairs) {t : Topic} (settled : t ∉ w.halfDone) :
    w.registry.buckets.get? t ≠ some [] := by
  intro hbucket
  -- the topic of an empty bucket would be listed
  have hlisted : t ∈ w.registry.topics := (Table.mem_keys _ t).mpr (by rw [hbucket]; rfl)
  have hnone : w.registry.snapshot t = [] := by rw [Registry.snapshot, hbucket]; rfl
  exact settled (h.deserted t hlisted hnone)

/-- With no removal from it half done, a topic is listed exactly if somebody listens. -/
theorem Lists.mem_topics_iff (h : w.Lists pairs) {t : Topic} (settled : t ∉ w.halfDone) :
    t ∈ w.registry.topics ↔ ∃ v, (t, v) ∈ pairs := by
  simp only [← h.mem_iff]
  rw [Registry.mem_topics_iff (h.bucket_ne_nil settled)]
  exact ⟨List.exists_mem_of_ne_nil _, fun ⟨_, hv⟩ => List.ne_nil_of_mem hv⟩

theorem Lists.add_answer_iff (h : w.Lists pairs) (t : Topic) (v : ViewerId) :
    (w.registry.add t v).1 = true ↔ ∀ v', (t, v') ∉ pairs := by
  simp only [← h.mem_iff, Registry.add, List.isEmpty_iff]
  exact List.eq_nil_iff_forall_not_mem

theorem Lists.takeOut_answer_iff (h : w.Lists pairs) (t : Topic) (v : ViewerId) :
    (w.registry.takeOut t v).1 = true ↔ (t, v) ∈ pairs := by
  rw [← h.mem_iff]
  by_cases hv : v ∈ w.registry.snapshot t <;> simp [Registry.takeOut, hv]

end

/-- **The registry is the set of who listens where.** After any turns, whatever came between the halves of the
removals: the snapshot of a topic has each viewer once that was added to the topic and not taken out since, and
counts and total are those of the set of such pairs. To add a viewer answers whether its topic had none, and to
take one out whether it was there. Whoever is added stays until taken out, with any removals from the same topic
under way. A topic from which no removal is half done is listed, once, exactly if somebody listens, and it has no
empty bucket; so as soon as no removal at all is half done, nothing but the set is left. -/
theorem represents (turns : List Turn) :
    let w := run turns
    let r := w.registry
    (∀ t, (r.snapshot t).Nodup ∧ (∀ v, v ∈ r.snapshot t ↔ (t, v) ∈ present turns) ∧
      r.count t = ((present turns).filter (·.1 = t)).card) ∧
    r.total = (present turns).card ∧
    (∀ t v, ((r.add t v).1 = true ↔ ∀ v', (t, v') ∉ present turns) ∧
      ((r.takeOut t v).1 = true ↔ (t, v) ∈ present turns)) ∧
    (∀ t v, (t, v) ∈ present turns ↔
      ∃ before after, turns = before ++ .add t v :: after ∧ .takeOut t v ∉ after) ∧
    r.topics.Nodup ∧
    ∀ t, t ∉ w.halfDone →
      (t ∈ r.topics ↔ ∃ v, (t, v) ∈ present turns) ∧ r.buckets.get? t ≠ some [] := by
  intro w r
  have lists : w.Lists (present turns) := lists_run turns
  refine ⟨fun t => ⟨lists.distinct t, lists.mem_iff t, lists.count_eq t⟩, lists.total_eq,
    fun t v => ⟨lists.add_answer_iff t v, lists.takeOut_answer_iff t v⟩, fun t v => mem_present_iff,
    r.buckets.distinct, fun t settled => ⟨lists.mem_topics_iff settled, lists.bucket_ne_nil settled⟩⟩

end Attendance

end Occupancy
