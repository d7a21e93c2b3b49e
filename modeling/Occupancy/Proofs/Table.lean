import Mathlib.Data.List.Basic
import Occupancy.Table

/-!
# Entries of tables

A look-up finds exactly the entry with its key, since keys are distinct. Main statements:
`mem_entries_iff` for entries, `mem_values_iff` and `values_eq_filterMap` for values, and `ext_get?`, by which
keys and look-ups settle a table.
-/

namespace Occupancy.Table

variable {κ α : Type} [DecidableEq κ]

/-- In a list of entries with distinct keys, the first entry for a key is the only one. -/
theorem find?_eq_some_iff {k : κ} {a : α} {l : List (κ × α)} (distinct : (l.map Prod.fst).Nodup) :
    find? k l = some a ↔ (k, a) ∈ l := by
  induction l with
  | nil => simp [find?]
  | cons e rest ih =>
    obtain ⟨k₀, a₀⟩ := e
    simp only [List.map_cons, List.nodup_cons] at distinct
    obtain ⟨fresh, distinct⟩ := distinct
    by_cases h : k = k₀
    · subst h
      -- a second entry for the key would repeat it
      have hne : (k, a) ∉ rest := fun hmem => fresh (List.mem_map.mpr ⟨(k, a), hmem, rfl⟩)
      simp [find?, hne, eq_comm]
    · rw [show find? k ((k₀, a₀) :: rest) = find? k rest by simp [find?, h], ih distinct]
      simp [h]

/-- Replacing a value by itself changes no look-up. -/
theorem get?_self {t : Table κ α} {k : κ} {a : α} (h : t.get? k = some a) (k' : κ) :
    t.get? k' = if k' = k then some a else t.get? k' := by
  split
  · rename_i hk
    rw [hk, h]
  · rfl

theorem mem_entries_iff {t : Table κ α} {k : κ} {a : α} :
    (k, a) ∈ t.entries ↔ t.get? k = some a :=
  (find?_eq_some_iff t.distinct).symm

theorem get?_filter_eq_some {t : Table κ α} {p : κ → α → Bool} {k : κ} {a : α} :
    (t.filter p).get? k = some a ↔ t.get? k = some a ∧ p k a = true := by
  rw [← mem_entries_iff, ← mem_entries_iff, filter, List.mem_filter]

/-- The values of a table are those that look-ups find. -/
theorem mem_values_iff {t : Table κ α} {a : α} : a ∈ t.values ↔ ∃ k, t.get? k = some a := by
  unfold values
  rw [List.mem_map]
  constructor
  · rintro ⟨⟨k, a'⟩, hmem, rfl⟩
    exact ⟨k, mem_entries_iff.mp hmem⟩
  · rintro ⟨k, hk⟩
    exact ⟨(k, a), mem_entries_iff.mpr hk, rfl⟩

theorem values_eq_filterMap (t : Table κ α) : t.values = t.keys.filterMap t.get? := by
  have hfound : t.entries.filterMap (fun e => t.get? e.1) = t.entries.filterMap (some ∘ Prod.snd) :=
    List.filterMap_congr fun e he => mem_entries_iff.mp he
  rw [keys, List.filterMap_map, Function.comp_def, hfound, List.filterMap_eq_map, values]

/-- Tables with the same keys, in one order, and the same look-ups are the same. -/
theorem ext_get? {t t' : Table κ α} (keys_eq : t.keys = t'.keys) (same : ∀ k, t.get? k = t'.get? k) :
    t = t' := by
  -- a table is its keys with what they lead to, in their order
  have paired : ∀ u : Table κ α, u.entries.map some = u.keys.map fun k => (u.get? k).map (k, ·) := by
    intro u
    rw [keys, List.map_map]
    refine List.map_congr_left fun e he => ?_
    rw [Function.comp_apply, mem_entries_iff.mp he]
    rfl
  have hentries : t.entries.map some = t'.entries.map some := by
    rw [paired, paired, keys_eq]
    exact List.map_congr_left fun k _ => by rw [same]
  cases t
  cases t'
  congr 1
  exact List.map_injective_iff.mpr (fun _ _ => Option.some.inj) hentries

@[simp] theorem keys_mapValues {κ α β : Type} (t : Table κ α) (f : κ → α → β) :
    (t.mapValues f).keys = t.keys := by
  simp [keys, mapValues, Function.comp_def]

theorem keys_set_of_get? {t : Table κ α} {k : κ} {a : α} (h : t.get? k = some a) (b : α) :
    (t.set k b).keys = t.keys := by
  have hmem : k ∈ t.keys := (mem_keys t k).mpr (by rw [h]; rfl)
  exact (map_fst_setEntry k b t.entries).trans (if_pos hmem)

/-- What is read off the values of a table is without repetition, if each reading tells the key. -/
theorem nodup_filterMap_values {β : Type} {t : Table κ α} {f : α → Option β} {key : β → κ}
    (tells : ∀ {k a b}, t.get? k = some a → f a = some b → key b = k) :
    ((t.values.filterMap f).map key).Nodup := by
  -- on a list of entries: what an entry gives has the entry's own key
  have hsub : ∀ l : List (κ × α), (∀ e ∈ l, ∀ b, f e.2 = some b → key b = e.1) →
      (((l.map Prod.snd).filterMap f).map key).Sublist (l.map Prod.fst) := by
    intro l hl
    induction l with
    | nil => exact .slnil
    | cons e rest ih =>
      have hrest := ih fun e he => hl e (List.mem_cons_of_mem _ he)
      cases hf : f e.2 with
      | none =>
        rw [List.map_cons, List.filterMap_cons_none hf, List.map_cons]
        exact hrest.cons _
      | some b =>
        rw [List.map_cons, List.filterMap_cons_some hf, List.map_cons, List.map_cons,
          hl e List.mem_cons_self b hf]
        exact hrest.cons_cons _
  refine t.distinct.sublist (hsub t.entries ?_)
  intro e he b hb
  exact tells (mem_entries_iff.mp he) hb

end Occupancy.Table
