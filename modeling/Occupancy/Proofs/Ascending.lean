import Mathlib.Data.List.Forall2

/-!
# Lists in strictly ascending order

Such a list is settled by what it has: `eq_of_ascending` for lists with the same entries,
`forall₂_of_ascending` for lists whose entries are related. Sorting makes one of any list whose entries have
different keys, in whatever order they came: `ascending_mergeSort` and `mergeSort_eq_of_perm`.
-/

namespace Occupancy

variable {α : Type} {key : α → Int} {l l' : List α}

/-- The head of a list in strictly ascending order has the least key, and nothing else has it. -/
theorem head_of_ascending {a : α} (ascending : (a :: l).Pairwise (key · < key ·)) {x : α} (hx : x ∈ a :: l) :
    key a ≤ key x ∧ (key x = key a → x = a) := by
  rcases List.mem_cons.mp hx with rfl | hx
  · exact ⟨Int.le_refl _, fun _ => rfl⟩
  · have hlt := List.rel_of_pairwise_cons ascending hx
    exact ⟨Int.le_of_lt hlt, fun heq => absurd heq (Int.ne_of_gt hlt)⟩

/-- Two lists in strictly ascending order are related entry by entry, if each entry of one is related to some
entry of the other. -/
theorem forall₂_of_ascending {α β : Type} {P : α → β → Prop} {key : α → Int} {key' : β → Int}
    {l : List α} {l' : List β} (same : ∀ a b, P a b → key a = key' b)
    (ascending : l.Pairwise (key · < key ·)) (ascending' : l'.Pairwise (key' · < key' ·))
    (matched : ∀ a ∈ l, ∃ b ∈ l', P a b) (matched' : ∀ b ∈ l', ∃ a ∈ l, P a b) :
    List.Forall₂ P l l' := by
  induction l generalizing l' with
  | nil =>
    cases l' with
    | nil => exact .nil
    | cons b l' =>
      obtain ⟨a, ha, -⟩ := matched' b List.mem_cons_self
      cases ha
  | cons a l ih =>
    cases l' with
    | nil =>
      obtain ⟨b, hb, -⟩ := matched a List.mem_cons_self
      cases hb
    | cons b l' =>
      -- the counterpart of either head is the other, as both keys are the least
      obtain ⟨b', hb', hab'⟩ := matched a List.mem_cons_self
      obtain ⟨a', ha', hab⟩ := matched' b List.mem_cons_self
      have hkey : key a = key' b := by
        have hle := (head_of_ascending ascending ha').1
        have hle' := (head_of_ascending ascending' hb').1
        rw [same _ _ hab] at hle
        rw [← same _ _ hab'] at hle'
        exact Int.le_antisymm hle hle'
      obtain rfl := (head_of_ascending ascending' hb').2 ((same _ _ hab').symm.trans hkey)
      have hrest : ∀ x ∈ l, key a < key x := fun x hx => List.rel_of_pairwise_cons ascending hx
      have hrest' : ∀ y ∈ l', key' b' < key' y := fun y hy => List.rel_of_pairwise_cons ascending' hy
      refine .cons hab' (ih ascending.of_cons ascending'.of_cons ?_ ?_)
      -- what goes with a later entry of one list cannot be the head of the other: its key is larger
      · intro x hx
        obtain ⟨y, hy, hxy⟩ := matched x (List.mem_cons_of_mem _ hx)
        refine ⟨y, (List.mem_cons.mp hy).resolve_left fun heq => ?_, hxy⟩
        have hlt := hrest x hx
        rw [same _ _ hxy, heq, hkey] at hlt
        exact Int.lt_irrefl _ hlt
      -- and the same from the other side
      · intro y hy
        obtain ⟨x, hx, hxy⟩ := matched' y (List.mem_cons_of_mem _ hy)
        refine ⟨x, (List.mem_cons.mp hx).resolve_left fun heq => ?_, hxy⟩
        have hlt := hrest' y hy
        rw [← same _ _ hxy, heq, hkey] at hlt
        exact Int.lt_irrefl _ hlt

/-- Entries with different keys are sorted into strictly ascending order. -/
theorem ascending_mergeSort (distinct : l.Pairwise (key · ≠ key ·)) :
    (l.mergeSort fun a b => key a ≤ key b).Pairwise (key · < key ·) := by
  have sorted : (l.mergeSort fun a b => key a ≤ key b).Pairwise fun a b =>
      decide (key a ≤ key b) = true := by
    refine List.pairwise_mergeSort (fun a b c hab hbc => ?_) (fun a b => ?_) _
    · rw [decide_eq_true_eq] at hab hbc ⊢
      exact Int.le_trans hab hbc
    · rw [Bool.or_eq_true, decide_eq_true_eq, decide_eq_true_eq]
      exact Int.le_total _ _
  have distinct' := (List.mergeSort_perm l fun a b => key a ≤ key b).pairwise_iff (fun h => Ne.symm h)
    |>.mpr distinct
  -- sorted by at most, and no two keys alike, so sorted by less
  refine List.Pairwise.imp₂ (fun a b hle hne => ?_) sorted distinct'
  exact Int.lt_iff_le_and_ne.mpr ⟨of_decide_eq_true hle, hne⟩

/-- Lists in strictly ascending order with the same entries are the same. -/
theorem eq_of_ascending (perm : l.Perm l') (ascending : l.Pairwise (key · < key ·))
    (ascending' : l'.Pairwise (key · < key ·)) : l = l' := by
  refine List.Perm.eq_of_pairwise (fun a b _ _ hab hba => ?_) ascending ascending' perm
  exact absurd (Int.lt_trans hab hba) (Int.lt_irrefl _)

/-- Entries with different keys are sorted into one list, in whatever order they came. -/
theorem mergeSort_eq_of_perm (perm : l.Perm l') (distinct : l.Pairwise (key · ≠ key ·)) :
    (l.mergeSort fun a b => key a ≤ key b) = l'.mergeSort fun a b => key a ≤ key b := by
  have distinct' : l'.Pairwise (key · ≠ key ·) :=
    (perm.pairwise_iff fun h => Ne.symm h).mp distinct
  have sorted : (l.mergeSort fun a b => key a ≤ key b).Perm (l'.mergeSort fun a b => key a ≤ key b) :=
    ((List.mergeSort_perm _ _).trans perm).trans (List.mergeSort_perm _ _).symm
  exact eq_of_ascending sorted (ascending_mergeSort distinct) (ascending_mergeSort distinct')

end Occupancy
