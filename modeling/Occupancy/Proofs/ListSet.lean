/-!
# Replacing an entry of a list

What is at the other places stays.
-/

namespace Occupancy

/-- Replacing one entry of a list leaves the others. -/
theorem mem_set_or {α : Type} {l : List α} {i : Nat} {a x : α} (hi : l[i]? = some a) (hx : x ∈ l)
    (y : α) : x ∈ l.set i y ∨ x = a := by
  obtain ⟨j, hj⟩ := List.mem_iff_getElem?.mp hx
  by_cases hij : i = j
  · subst hij
    rw [hi] at hj
    exact .inr (Option.some.inj hj).symm
  · exact .inl (List.mem_iff_getElem?.mpr ⟨j, by rw [List.getElem?_set_ne hij, hj]⟩)

/-- What some entry has, some entry still has if the new one takes it over from the old. -/
theorem exists_mem_set {α : Type} {P : α → Prop} {l : List α} {i : Nat} {a b : α} (hi : l[i]? = some a)
    (h : ∃ x ∈ l, P x) (takesOver : P a → P b) : ∃ x ∈ l.set i b, P x := by
  obtain ⟨x, hx, hP⟩ := h
  rcases mem_set_or hi hx b with hx | rfl
  · exact ⟨x, hx, hP⟩
  · exact ⟨b, List.mem_set (List.getElem?_eq_some_iff.mp hi).1 b, takesOver hP⟩

end Occupancy
