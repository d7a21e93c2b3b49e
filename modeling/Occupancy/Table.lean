/-!
# Tables

Finite maps as lists of entries with distinct keys, in the order in which the keys came. Main
statements: `get?_set`, `get?_erase` and `get?_modify` say what each operation does to a look-up.
-/

namespace Occupancy

/-- A finite map. -/
structure Table (κ α : Type) where
  entries : List (κ × α)
  distinct : (entries.map Prod.fst).Nodup

namespace Table

variable {κ α : Type}

/-! ## Look-up -/

/-- The table without entries. -/
def empty : Table κ α :=
  ⟨[], List.nodup_nil⟩

instance : Inhabited (Table κ α) :=
  ⟨empty⟩

instance : EmptyCollection (Table κ α) :=
  ⟨empty⟩

/-- The keys, in the order in which they came. -/
def keys (t : Table κ α) : List κ :=
  t.entries.map Prod.fst

/-- The values, in the order of their keys. -/
def values (t : Table κ α) : List α :=
  t.entries.map Prod.snd

def size (t : Table κ α) : Nat :=
  t.entries.length

section

variable [DecidableEq κ]

/-- The value of the first entry for a key. -/
def find? (k : κ) : List (κ × α) → Option α
  | [] => none
  | (k', a) :: rest => if k = k' then some a else find? k rest

/-- The value at a key. -/
def get? (t : Table κ α) (k : κ) : Option α :=
  find? k t.entries

def contains (t : Table κ α) (k : κ) : Bool :=
  (t.get? k).isSome

end

/-! ## Change -/

/-- Applies a function to every value. -/
def mapValues {β : Type} (t : Table κ α) (f : κ → α → β) : Table κ β where
  entries := t.entries.map fun (k, a) => (k, f k a)
  distinct := by
    simpa [Function.comp_def] using t.distinct

/-- Keeps the entries that pass a test. -/
def filter (t : Table κ α) (p : κ → α → Bool) : Table κ α where
  entries := t.entries.filter fun (k, a) => p k a
  distinct := t.distinct.sublist (List.filter_sublist.map Prod.fst)

section

variable [DecidableEq κ]

/-- The entries with the value at `k` replaced, or with a new entry for `k` at the end. -/
def setEntry (k : κ) (a : α) : List (κ × α) → List (κ × α)
  | [] => [(k, a)]
  | (k', a') :: rest => if k = k' then (k', a) :: rest else (k', a') :: setEntry k a rest

theorem map_fst_setEntry (k : κ) (a : α) (l : List (κ × α)) :
    (setEntry k a l).map Prod.fst =
      if k ∈ l.map Prod.fst then l.map Prod.fst else l.map Prod.fst ++ [k] := by
  induction l with
  | nil => simp [setEntry]
  | cons e rest ih =>
    obtain ⟨k', a'⟩ := e
    by_cases h : k = k'
    · simp [setEntry, h]
    · by_cases hm : k ∈ rest.map Prod.fst
      · rw [if_pos hm] at ih
        have : k ∈ ((k', a') :: rest).map Prod.fst := by simp only [List.map_cons]; exact List.mem_cons_of_mem _ hm
        rw [if_pos this]
        simp [setEntry, h, ih]
      · rw [if_neg hm] at ih
        have : k ∉ ((k', a') :: rest).map Prod.fst := by
          simp only [List.map_cons, List.mem_cons, not_or]
          exact ⟨h, hm⟩
        rw [if_neg this]
        simp [setEntry, h, ih]

/-- The table with a value at a key. A new key comes last. -/
def set (t : Table κ α) (k : κ) (a : α) : Table κ α where
  entries := setEntry k a t.entries
  distinct := by
    rw [map_fst_setEntry]
    split
    · exact t.distinct
    · rename_i h
      rw [List.nodup_append]
      refine ⟨t.distinct, by simp, ?_⟩
      intro x hx y hy hxy
      simp at hy
      subst hy hxy
      exact h hx

/-- The table without a key. -/
def erase (t : Table κ α) (k : κ) : Table κ α :=
  t.filter fun k' _ => k' ≠ k

/-- The table with a function applied to the value at a key, if there is one. -/
def modify (t : Table κ α) (k : κ) (f : α → α) : Table κ α :=
  t.mapValues fun k' a => if k' = k then f a else a

/-- The table with `f` of the value at a key, or of none, as its new value. -/
def alter (t : Table κ α) (k : κ) (f : Option α → α) : Table κ α :=
  t.set k (f (t.get? k))

/-! ## Laws -/

@[simp] theorem get?_empty (k : κ) : (empty : Table κ α).get? k = none :=
  rfl

theorem find?_setEntry (k k' : κ) (a : α) (l : List (κ × α)) :
    find? k' (setEntry k a l) = if k' = k then some a else find? k' l := by
  induction l with
  | nil => simp [setEntry, find?]
  | cons e rest ih =>
    obtain ⟨k₀, a₀⟩ := e
    by_cases h : k = k₀
    · subst h
      by_cases h' : k' = k <;> simp [setEntry, find?, h']
    · by_cases h' : k' = k₀
      · subst h'
        have : k' ≠ k := fun e => h e.symm
        simp [setEntry, find?, h, this]
      · simp [setEntry, find?, h, h', ih]

/-- Setting a key changes the value at that key alone. -/
@[simp] theorem get?_set (t : Table κ α) (k k' : κ) (a : α) :
    (t.set k a).get? k' = if k' = k then some a else t.get? k' :=
  find?_setEntry k k' a t.entries

theorem find?_map (f : κ → α → α) (k : κ) (l : List (κ × α)) :
    find? k (l.map fun (k', a) => (k', f k' a)) = (find? k l).map (f k) := by
  induction l with
  | nil => rfl
  | cons e rest ih =>
    obtain ⟨k₀, a₀⟩ := e
    by_cases h : k = k₀
    · subst h; simp [find?]
    · simp [find?, h, ih]

/-- Mapping the values maps each look-up. -/
@[simp] theorem get?_mapValues (t : Table κ α) (f : κ → α → α) (k : κ) :
    (t.mapValues f).get? k = (t.get? k).map (f k) :=
  find?_map f k t.entries

/-- Modifying a key changes the value at that key alone. -/
@[simp] theorem get?_modify (t : Table κ α) (k k' : κ) (f : α → α) :
    (t.modify k f).get? k' = if k' = k then (t.get? k').map f else t.get? k' := by
  rw [modify, get?_mapValues]
  by_cases h : k' = k <;> simp [h]

theorem find?_eq_none (k : κ) (l : List (κ × α)) :
    find? k l = none ↔ k ∉ l.map Prod.fst := by
  induction l with
  | nil => simp [find?]
  | cons e rest ih =>
    obtain ⟨k₀, a₀⟩ := e
    by_cases h : k = k₀
    · simp [find?, h]
    · simp only [find?, if_neg h, ih, List.map_cons, List.mem_cons, not_or]
      exact ⟨fun hr => ⟨h, hr⟩, fun hr => hr.2⟩

theorem find?_filter_ne (k k' : κ) (l : List (κ × α)) :
    find? k' (l.filter fun (x, _) => decide (x ≠ k)) = if k' = k then none else find? k' l := by
  induction l with
  | nil => simp [find?]
  | cons e rest ih =>
    obtain ⟨k₀, a₀⟩ := e
    by_cases h : k₀ = k
    · subst h
      by_cases h' : k' = k₀
      · simpa [h'] using ih
      · simpa [find?, h'] using ih
    · by_cases h' : k' = k₀
      · subst h'
        simp [find?, h]
      · simp only [ne_eq, h, not_false_eq_true, decide_true, List.filter_cons_of_pos, find?,
          if_neg h']
        simpa using ih

/-- Erasing a key removes the value at that key alone. -/
@[simp] theorem get?_erase (t : Table κ α) (k k' : κ) :
    (t.erase k).get? k' = if k' = k then none else t.get? k' :=
  find?_filter_ne k k' t.entries

/-- A key is listed exactly if it has a value. -/
theorem mem_keys (t : Table κ α) (k : κ) : k ∈ t.keys ↔ (t.get? k).isSome := by
  have h := find?_eq_none k t.entries
  unfold keys get?
  cases hf : find? k t.entries with
  | none => simpa using h.mp hf
  | some a =>
    simp only [Option.isSome_some, iff_true]
    exact Classical.byContradiction fun hn => by
      rw [h.mpr hn] at hf
      cases hf

end

end Table

end Occupancy
