import Occupancy.Broker.Memory
import Occupancy.Proofs.Table

/-!
# Queues of length one

`b.LastOnly log t` says that the queue of a topic, if there is one, is bounded by one and that its unread
message, if there is one, is the last of what was put into it. Every operation of the broker keeps this,
and `depth` changes only by publishing and popping. Main statements: `publish_spec` and `pop_cases`.
-/

namespace Occupancy.MemoryBroker

variable {b b' : MemoryBroker} {t t' : Topic} {q : Queue} {payload : String} {log : List String}

/-- The queue of a topic holds at most the last of the payloads that were put into it. -/
def LastOnly (b : MemoryBroker) (log : List String) (t : Topic) : Prop :=
  ∀ q, b.queues.get? t = some q → q.limit = 1 ∧
    (q.unread = [] ∨ ∃ m, q.unread = [m] ∧ log.getLast? = some m.payload)

theorem depth_of_get? (h : b.queues.get? t = some q) : b.depth t = q.unread.length := by
  simp [depth, h]

theorem depth_of_none (h : b.queues.get? t = none) : b.depth t = 0 := by
  simp [depth, h]

theorem depth_congr (h : b'.queues.get? t = b.queues.get? t) : b'.depth t = b.depth t := by
  rw [depth, depth, h]

theorem LastOnly.congr (h : b.LastOnly log t) (same : b'.queues.get? t = b.queues.get? t) :
    b'.LastOnly log t := by
  intro q hq
  exact h q (same ▸ hq)

/-! ## The connection -/

theorem queues_connect (b : MemoryBroker) : b.connect.2.queues = b.queues := by
  unfold connect
  split
  · rfl
  · split <;> rfl

/-- The queues that the teardown forgets had no message. -/
theorem get?_teardown_cases (b : MemoryBroker) (t : Topic) :
    b.teardown.queues.get? t = b.queues.get? t ∨
    (b.teardown.queues.get? t = none ∧ ∃ q, b.queues.get? t = some q ∧ q.unread = []) := by
  cases hq : b.queues.get? t with
  | none =>
    left
    refine Option.eq_none_iff_forall_not_mem.mpr fun q hkept => ?_
    -- a queue that survives the filter was there before
    have hq' := (Table.get?_filter_eq_some.mp hkept).1
    rw [hq] at hq'
    cases hq'
  | some q =>
    cases hunread : q.unread with
    -- a queue with something to read passes the filter
    | cons m rest => exact .inl (Table.get?_filter_eq_some.mpr ⟨hq, by simp [hunread]⟩)
    | nil =>
      right
      -- an empty one would have to pass it with nothing unread
      refine ⟨Option.eq_none_iff_forall_not_mem.mpr fun q' hkept => ?_, q, rfl, hunread⟩
      obtain ⟨hq', hpasses⟩ := Table.get?_filter_eq_some.mp hkept
      rw [hq] at hq'
      cases hq'
      simp [hunread] at hpasses

theorem depth_teardown (b : MemoryBroker) (t : Topic) : b.teardown.depth t = b.depth t := by
  rcases b.get?_teardown_cases t with hsame | ⟨hnone, q, hq, hunread⟩
  · exact depth_congr hsame
  · rw [depth_of_none hnone, depth_of_get? hq, hunread]
    rfl

theorem LastOnly.teardown (h : b.LastOnly log t) : b.teardown.LastOnly log t := by
  intro q hq
  exact h q (Table.get?_filter_eq_some.mp hq).1

/-! ## Queues -/

/-- Declaring a queue adds an empty one at most. -/
theorem declare_spec {limit : Nat} (h : b.declare t limit = .ok b') (t' : Topic) :
    b'.queues.get? t' = b.queues.get? t' ∨
    (b.queues.get? t' = none ∧ ∃ id, b'.queues.get? t' = some ⟨id, max limit 1, []⟩) := by
  unfold declare at h
  split at h
  -- down: nothing is declared
  · cases h
  · by_cases hhas : b.queues.contains t = true
    -- declared already: it keeps its limit and what it holds
    · simp only [hhas, if_true] at h
      cases h
      exact .inl rfl
    · simp only [hhas, Bool.false_eq_true, if_false] at h
      cases h
      by_cases ht : t' = t
      -- the new queue is the only one that changes
      · subst ht
        refine .inr ⟨?_, b.nextQueue, by simp⟩
        simpa [Table.contains] using hhas
      · exact .inl (by simp [ht])

/-- Declaring numbers no message. -/
theorem nextSerial_declare {limit : Nat} (h : b.declare t limit = .ok b') :
    b'.nextSerial = b.nextSerial := by
  unfold declare at h
  split at h
  · cases h
  · by_cases hhas : b.queues.contains t = true
    · simp only [hhas, if_true] at h
      cases h
      rfl
    · simp only [hhas, Bool.false_eq_true, if_false] at h
      cases h
      rfl

/-- Declaring a queue makes no message appear or vanish. -/
theorem depth_declare {limit : Nat} (h : b.declare t limit = .ok b') (t' : Topic) :
    b'.depth t' = b.depth t' := by
  rcases declare_spec h t' with hsame | ⟨hnone, id, hnew⟩
  · exact depth_congr hsame
  · rw [depth_of_none hnone, depth_of_get? hnew]
    rfl

theorem LastOnly.declare (h : b.LastOnly log t') (hdeclare : b.declare t 1 = .ok b') :
    b'.LastOnly log t' := by
  rcases declare_spec hdeclare t' with hsame | ⟨-, id, hnew⟩
  · exact h.congr hsame
  · intro q hq
    rw [hnew] at hq
    cases hq
    exact ⟨rfl, .inl rfl⟩

/-- A payload is accepted as the message with the next number. -/
theorem publish_eq (h : b.publish t payload = .ok b') :
    ∃ q, b.queues.get? t = some q ∧ b' = { b with
      queues := b.queues.set t (q.push ⟨b.nextSerial, payload⟩)
      nextSerial := b.nextSerial + 1 } := by
  unfold publish at h
  -- down, undeclared or without a queue the publish fails, which leaves one case
  split at h
  · cases h
  · split at h
    · cases h
    · rename_i q hq
      cases h
      unfold queue at hq
      split at hq
      · rename_i q' hq'
        split at hq <;> cases hq
        exact ⟨q, hq', rfl⟩
      · cases hq

/-- An accepted payload is put last into the queue of its topic. -/
theorem publish_spec (h : b.publish t payload = .ok b') :
    ∃ q m, b.queues.get? t = some q ∧ m.payload = payload ∧
      ∀ t', b'.queues.get? t' = if t' = t then some (q.push m) else b.queues.get? t' := by
  obtain ⟨q, hq, rfl⟩ := publish_eq h
  exact ⟨q, ⟨b.nextSerial, payload⟩, hq, rfl, fun t' => Table.get?_set ..⟩

/-- A queue of length one holds what was put into it last. -/
theorem unread_push (h : q.limit = 1) (m : Message) : (q.push m).unread = [m] := by
  simp [Queue.push, h]

/-- After it accepted a payload, a queue of length one holds that payload alone. -/
theorem LastOnly.publish (h : b.LastOnly log t) (hpublish : b.publish t payload = .ok b') :
    b'.LastOnly (log ++ [payload]) t ∧ b'.depth t = 1 := by
  obtain ⟨q, m, hq, rfl, hqueues⟩ := publish_spec hpublish
  obtain ⟨hlimit, -⟩ := h q hq
  have hpush := unread_push hlimit m
  -- with a limit of one the push drops whatever was there
  have hq' : b'.queues.get? t = some (q.push m) := by rw [hqueues, if_pos rfl]
  refine ⟨fun q' h' => ?_, by rw [depth_of_get? hq', hpush]; rfl⟩
  rw [hq'] at h'
  cases h'
  exact ⟨hlimit, .inr ⟨m, hpush, by simp⟩⟩

/-- What taking a message comes to. -/
theorem pop_cases (b : MemoryBroker) (t : Topic) (id : Nat) :
    b.pop t id = (none, b) ∨
    ∃ q m rest, b.queues.get? t = some q ∧ q.unread = m :: rest ∧
      b.pop t id =
        (some m.delivery, { b with queues := b.queues.set t { q with unread := rest } }) := by
  unfold pop
  cases hq : b.queues.get? t with
  -- no such queue, or another one under its name, hands nothing out
  | none => exact .inl rfl
  | some q =>
    simp only
    split
    · exact .inl rfl
    -- what is handed out is the oldest unread message
    · cases hunread : q.unread with
      | nil => exact .inl rfl
      | cons m rest => exact .inr ⟨q, m, rest, rfl, hunread, rfl⟩

theorem pop_none {id : Nat} (h : b.pop t id = (none, b')) : b' = b := by
  rcases b.pop_cases t id with hpop | ⟨q, m, rest, -, -, hpop⟩ <;> rw [hpop] at h <;> cases h
  rfl

/-- The message that a queue of length one hands out is the last that was put into it, and leaves the
queue empty. -/
theorem LastOnly.pop {id : Nat} {d : Delivery} (h : b.LastOnly log t)
    (hpop : b.pop t id = (some d, b')) :
    log.getLast? = some d.payload ∧ b.depth t = 1 ∧ b'.depth t = 0 ∧ b'.LastOnly log t ∧
      ∀ t', t' ≠ t → b'.queues.get? t' = b.queues.get? t' := by
  rcases b.pop_cases t id with hnone | ⟨q, m, rest, hq, hunread, hsome⟩
  -- an empty hand contradicts the delivery
  · rw [hnone] at hpop
    cases hpop
  · rw [hsome] at hpop
    cases hpop
    obtain ⟨hlimit, hlast⟩ := h q hq
    -- with at most one message in the queue the one handed out is the last accepted, and nothing is left
    obtain ⟨m', hm', hlast⟩ := hlast.resolve_left (by rw [hunread]; nofun)
    obtain ⟨rfl, rfl⟩ := List.cons.inj (hunread.symm.trans hm')
    have hq' : (b.queues.set t { q with unread := [] }).get? t = some { q with unread := [] } := by
      rw [Table.get?_set, if_pos rfl]
    refine ⟨hlast, by rw [depth_of_get? hq, hunread]; rfl, by rw [depth_of_get? hq']; rfl,
      fun q' h' => ?_, fun t' ht => by rw [Table.get?_set, if_neg ht]⟩
    cases hq'.symm.trans h'
    exact ⟨hlimit, .inl rfl⟩

/-- A read takes a message out of the queue, or leaves everything as it is. -/
theorem receive_eq_pop {r : Option Delivery × MemoryBroker} (h : b.receive t = .ok r) :
    ∃ id, b.connected = true ∧ r = b.pop t id := by
  unfold receive at h
  split at h
  · cases h
  · rename_i hconnected
    split at h
    · cases h
    · rename_i q _
      cases h
      exact ⟨q.id, by simpa using hconnected, rfl⟩

end Occupancy.MemoryBroker
