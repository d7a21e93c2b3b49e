import Occupancy.Fanout.Supervisor

/-!
# What each operation does to the slots and the consumers

A supervisor is seen through its slots, its consumers and the next generation. Each operation has one
lemma that says everything it does to the three: `ensure_started` and `ensure_idle`, `retire_eq_true` and
`retire_eq_false`, `drop_spec`. A consumer leaves a slot in two ways only: it is cancelled as it leaves,
or it retires by itself.
-/

namespace Occupancy

/-- The consumer after it was told to stop. -/
def Consumer.cancel (c : Consumer) : Consumer :=
  { c with cancelled := true }

def Consumer.finish (c : Consumer) : Consumer :=
  { c with finished := true }

theorem Consumer.isRunning_iff {c : Consumer} :
    c.isRunning = true ↔ c.cancelled = false ∧ c.finished = false := by
  simp [Consumer.isRunning]

namespace Supervisor

variable {s : Supervisor} {t t' : Topic} {g g' : Generation} {c : Consumer}

/-! ## Single consumers -/

theorem isRunning_of_get? (h : s.consumers.get? g = some c) : s.isRunning g = c.isRunning := by
  simp [isRunning, h]

theorem isCancelled_of_get? (h : s.consumers.get? g = some c) : s.isCancelled g = c.cancelled := by
  simp [isCancelled, h]

/-- A cancellation reaches one consumer. -/
theorem consumers_cancel (s : Supervisor) (g g' : Generation) :
    (s.cancel g).consumers.get? g' =
      if g' = g then (s.consumers.get? g').map Consumer.cancel else s.consumers.get? g' := by
  rw [cancel, Table.get?_modify]
  rfl

/-- An end reaches one consumer. -/
theorem consumers_finish (s : Supervisor) (g g' : Generation) :
    (s.finish g).consumers.get? g' =
      if g' = g then (s.consumers.get? g').map Consumer.finish else s.consumers.get? g' := by
  rw [finish, Table.get?_modify]
  rfl

/-! ## Starting -/

/-- A slot with a running consumer is left alone. -/
theorem ensure_idle (h : (s.ensure t).1 = none) :
    (∃ g, s.slots.get? t = some g ∧ s.isRunning g = true) ∧ (s.ensure t).2 = s := by
  unfold ensure at h ⊢
  cases hslot : s.slots.get? t with
  -- an empty slot would have been filled
  | none => simp [hslot] at h
  | some g =>
    by_cases hrunning : s.isRunning g = true
    · exact ⟨⟨g, rfl, hrunning⟩, by simp [hrunning]⟩
    · -- a slot with a stopped consumer gets a new one
      simp [hslot, hrunning] at h

/-- A consumer is started only for a slot that holds no running one, and what the slot held is
cancelled. -/
theorem ensure_started (h : (s.ensure t).1 = some g) :
    g = s.nextGeneration ∧ (∀ g₀, s.slots.get? t = some g₀ → s.isRunning g₀ = false) ∧
    (s.ensure t).2.nextGeneration = g + 1 ∧
    (∀ t', (s.ensure t).2.slots.get? t' = if t' = t then some g else s.slots.get? t') ∧
    ∀ g', (s.ensure t).2.consumers.get? g' =
      if g' = g then some ⟨t, false, false⟩
      else if s.slots.get? t = some g' then (s.consumers.get? g').map Consumer.cancel
      else s.consumers.get? g' := by
  unfold ensure at h ⊢
  cases hslot : s.slots.get? t with
  -- nobody to cancel, and the slot is filled
  | none =>
    simp only [hslot, Option.some.injEq] at h
    subst h
    simp
  | some g₀ =>
    by_cases hrunning : s.isRunning g₀ = true
    -- a running consumer is left in its slot
    · simp [hslot, hrunning] at h
    · simp only [hslot, hrunning, Bool.false_eq_true, if_false, Option.some.injEq] at h
      subst h
      refine ⟨rfl, ?_, ?_, ?_, ?_⟩
      · rintro _ ⟨⟩
        simpa using hrunning
      · simp [hrunning, cancel]
      · simp [hrunning, cancel]
      · intro g'
        simp only [hrunning, Bool.false_eq_true, if_false, Table.get?_set, consumers_cancel,
          Option.some.injEq, eq_comm (a := g₀)]

/-! ## Leaving a slot -/

/-- Retiring takes the consumer's own slot, and only without viewers. -/
theorem retire_eq_true {viewers : Nat} (h : (s.retire t g viewers).1 = true) :
    s.slots.get? t = some g ∧ viewers = 0 ∧ (s.retire t g viewers).2.consumers = s.consumers ∧
    (s.retire t g viewers).2.nextGeneration = s.nextGeneration ∧
    ∀ t', (s.retire t g viewers).2.slots.get? t' = if t' = t then none else s.slots.get? t' := by
  unfold retire at h ⊢
  split at h
  · rename_i hown
    rw [if_pos hown]
    exact ⟨hown.1, hown.2, rfl, rfl, fun t' => Table.get?_erase _ _ _⟩
  · cases h

/-- A retirement that fails changes nothing. -/
theorem retire_eq_false {viewers : Nat} (h : (s.retire t g viewers).1 = false) :
    (s.retire t g viewers).2 = s := by
  unfold retire at h ⊢
  split at h
  · cases h
  · rename_i hown
    rw [if_neg hown]

/-- Dropping empties the slot of one topic and cancels what it held. -/
theorem drop_spec (s : Supervisor) (t : Topic) :
    (s.drop t).nextGeneration = s.nextGeneration ∧
    (∀ t', (s.drop t).slots.get? t' = if t' = t then none else s.slots.get? t') ∧
    ∀ g, (s.drop t).consumers.get? g =
      if s.slots.get? t = some g then (s.consumers.get? g).map Consumer.cancel
      else s.consumers.get? g := by
  unfold drop
  cases hslot : s.slots.get? t with
  -- no consumer to drop
  | none =>
    refine ⟨rfl, fun t' => ?_, fun g => by simp⟩
    by_cases h : t' = t
    · rw [if_pos h, h, hslot]
    · rw [if_neg h]
  | some g₀ =>
    refine ⟨rfl, fun t' => Table.get?_erase _ _ _, fun g => ?_⟩
    simp only [consumers_cancel, Option.some.injEq, eq_comm (a := g₀)]

end Supervisor

end Occupancy
