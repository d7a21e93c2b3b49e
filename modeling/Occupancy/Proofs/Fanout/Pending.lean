import Occupancy.Fanout.Publisher

/-!
# What a topic holds back

Look-ups of held payloads after each of the three ways in which they change, and the order in which the
topics that hold something back are listed.
-/

namespace Occupancy

namespace Topic

/-- Topics are ordered by kind, then by the first number, then by the second. -/
theorem le_eq_true_iff {a b : Topic} : a.le b = true ↔
    a.rank < b.rank ∨ a.rank = b.rank ∧
      (a.numbers.1 < b.numbers.1 ∨ a.numbers.1 = b.numbers.1 ∧ a.numbers.2 ≤ b.numbers.2) := by
  unfold le
  -- without numbers only the ranks differ, and else the numbers come after them
  split
  · simp only [decide_eq_true_eq]
    omega
  · split
    · simp only [decide_eq_true_eq]
      omega
    · simp only [decide_eq_true_eq]
      omega

theorem le_trans {a b c : Topic} (hab : a.le b = true) (hbc : b.le c = true) : a.le c = true := by
  rw [le_eq_true_iff] at hab hbc ⊢
  omega

theorem le_total (a b : Topic) : (a.le b || b.le a) = true := by
  rw [Bool.or_eq_true, le_eq_true_iff, le_eq_true_iff]
  omega

theorem pairwise_sort (ts : List Topic) : (sort ts).Pairwise fun a b => a.le b = true :=
  @List.pairwise_mergeSort Topic le (fun _ _ _ => le_trans) le_total ts

end Topic

namespace Pending

variable {p : Pending} {t t' : Topic} {h : Held} {stamp : Nat}

@[simp] theorem get?_hold : (p.hold t h).held.get? t' = if t' = t then some h else p.held.get? t' :=
  Table.get?_set p.held t t' h

@[simp] theorem get?_settle : (p.settle t).held.get? t' = if t' = t then none else p.held.get? t' :=
  Table.get?_erase p.held t t'

@[simp] theorem get?_settleSame : (p.settleSame t stamp).held.get? t' =
    if t' = t ∧ (p.held.get? t).map (·.stamp) = some stamp then none else p.held.get? t' := by
  unfold settleSame
  by_cases hsame : (p.held.get? t).map (·.stamp) = some stamp
  · simp [hsame]
  · simp [hsame]

@[simp] theorem nextStamp_settleSame : (p.settleSame t stamp).nextStamp = p.nextStamp := by
  unfold settleSame
  split <;> rfl

theorem mem_topics_iff : t ∈ p.topics ↔ (p.held.get? t).isSome = true := by
  rw [topics, Topic.sort, List.mem_mergeSort, Table.mem_keys]

theorem mem_topics (held : p.held.get? t = some h) : t ∈ p.topics := by
  rw [mem_topics_iff, held]
  rfl

theorem nodup_topics (p : Pending) : p.topics.Nodup :=
  (List.mergeSort_perm _ _).nodup_iff.mpr p.held.distinct

end Pending

end Occupancy
