import Mathlib.Data.List.Basic
import Occupancy.Host.Disk
import Occupancy.Proofs.Table

/-!
# Items of directories

The written path of an item leads one step below its directory (`ofText_join`), and one step below is where a
directory finds its items (`mem_list_iff`). Removing places removes the files that are there and leaves all else
(`get?_removals`).
-/

namespace Occupancy.Host

/-! ## Written paths -/

namespace Path

variable {directory name : String} {before after : List Char}

/-- A text with a last slash has one component after it. -/
theorem components_append (s : String) (h : s.toList = before ++ '/' :: after) (plain : '/' ∉ after) :
    components s = (before.splitOn '/').map String.ofList ++ [String.ofList after] := by
  rw [components, h, List.splitOn_append_cons_self, List.splitOn_eq_singleton plain, List.map_append]
  rfl

/-- The path of a name in a directory has the characters of the directory, a slash unless there is one at their
end, and the name. -/
theorem join_cases (nonempty : directory ≠ "") (plain : '/' ∉ name.toList) :
    (∃ before, directory.toList = before ++ ['/'] ∧
      (join directory name).toList = before ++ '/' :: name.toList) ∨
    (join directory name).toList = directory.toList ++ '/' :: name.toList := by
  have hname : name.startsWith '/' = false := by
    rw [String.startsWith_char_eq_head?, beq_eq_false_iff_ne]
    exact fun h => plain (List.mem_of_head? h)
  unfold join
  rw [if_neg (by simp [hname])]
  by_cases hslash : directory.endsWith '/' = true
  -- a directory that ends with a slash gets no second one
  · rw [if_pos (.inr hslash)]
    rw [String.endsWith_char_eq_getLast?, beq_iff_eq] at hslash
    have hdirectory := List.dropLast_append_getLast? _ hslash
    refine .inl ⟨directory.toList.dropLast, hdirectory.symm, ?_⟩
    rw [String.toList_append, ← hdirectory, List.dropLast_concat, List.append_assoc]
    rfl
  · rw [if_neg (not_or.mpr ⟨nonempty, hslash⟩)]
    exact .inr (by simp)

/-- The path of a name in a directory leads one step further than the path of the directory. -/
theorem ofText_join (working : Path) (nonempty : directory ≠ "") (plain : '/' ∉ name.toList)
    (further : ∀ p, step p name = p ++ [name]) :
    ofText working (join directory name) = ofText working directory ++ [name] := by
  have hsome : directory.toList ≠ [] := fun h => nonempty (String.toList_eq_nil_iff.mp h)
  unfold ofText
  rw [String.startsWith_char_eq_head?, String.startsWith_char_eq_head?]
  rcases join_cases nonempty plain with ⟨before, hdirectory, hjoin⟩ | hjoin
  · -- the empty component behind the last slash of the directory means nothing
    have hhead : (before ++ '/' :: name.toList).head? = (before ++ ['/']).head? := by
      cases before <;> rfl
    rw [components_append _ hjoin plain, components_append _ hdirectory List.not_mem_nil, hjoin, hdirectory,
      hhead, List.foldl_append, List.foldl_append, String.ofList_toList]
    exact further _
  -- without a trailing slash the name is one more component
  · rw [components_append _ hjoin plain, hjoin, List.head?_append_of_ne_nil _ hsome, List.foldl_append,
      String.ofList_toList]
    exact further _

end Path

/-! ## Listing and removing -/

namespace Disk

variable {d : Disk} {p q : Path} {entries : List Entry} {e : Entry}

/-- A directory lists what is one step below it. -/
theorem mem_list_iff (listed : d.list p = .ok entries) :
    e ∈ entries ↔ ∃ node, d.nodes.get? (p ++ [e.name]) = some (node, e.modified) ∧
      e.isDirectory = decide (node = .directory) := by
  unfold list at listed
  split at listed
  · cases listed
    rw [List.mem_filterMap]
    constructor
    -- an entry is a node whose parent is the directory
    · rintro ⟨⟨q, node, modified⟩, hmem, hitem⟩
      dsimp only at hitem
      split at hitem
      · rename_i name hname
        split at hitem
        · rename_i hq
          cases hitem
          have hplace := List.dropLast_append_getLast? _ hname
          rw [hq] at hplace
          exact ⟨node, hplace ▸ Table.mem_entries_iff.mp hmem, rfl⟩
        · cases hitem
      · cases hitem
    · rintro ⟨node, hget, hdirectory⟩
      refine ⟨(p ++ [e.name], node, e.modified), Table.mem_entries_iff.mpr hget, ?_⟩
      simp [← hdirectory]
  · cases listed
  · cases listed

/-- What can be read below the root is what the table holds as a file. -/
theorem read?_eq_some_iff {text : String} (below : q ≠ []) :
    d.read? q = some text ↔ ∃ modified, d.nodes.get? q = some (.file text, modified) := by
  rw [read?, node?, if_neg below]
  cases hget : d.nodes.get? q with
  | none => simp
  | some item =>
    obtain ⟨node, modified⟩ := item
    cases node <;> simp

/-- A file that can be read is removed. -/
theorem remove_of_read? {text : String} (h : d.read? p = some text) :
    d.remove p = { d with nodes := d.nodes.erase p } := by
  unfold read? at h
  unfold remove
  cases hnode : d.node? p with
  | none =>
    rw [hnode] at h
    cases h
  | some node =>
    cases node with
    | directory =>
      rw [hnode] at h
      cases h
    | file _ => rfl

/-- Nothing else can be removed. -/
theorem remove_of_read?_none (h : d.read? p = none) : d.remove p = d := by
  unfold read? at h
  unfold remove
  cases hnode : d.node? p with
  | none => rfl
  | some node =>
    cases node with
    | directory => rfl
    | file _ =>
      rw [hnode] at h
      cases h

/-- Removing a place removes a file there. -/
theorem get?_remove (d : Disk) (p q : Path) :
    (d.remove p).nodes.get? q =
      if q = p ∧ (d.read? q).isSome = true then none else d.nodes.get? q := by
  cases hread : d.read? p with
  -- not a file, so nothing is removed
  | none =>
    rw [remove_of_read?_none hread, if_neg]
    rintro ⟨rfl, h⟩
    rw [hread] at h
    cases h
  | some text =>
    rw [remove_of_read? hread, Table.get?_erase]
    by_cases hq : q = p
    · simp [hq, hread]
    · simp [hq]

/-- After a removal everything but the file can be read as before. -/
theorem read?_remove (d : Disk) (p q : Path) :
    (d.remove p).read? q = if q = p then none else d.read? q := by
  cases hread : d.read? p with
  | none =>
    rw [remove_of_read?_none hread]
    by_cases hq : q = p
    · rw [if_pos hq, hq, hread]
    · rw [if_neg hq]
  | some text =>
    rw [remove_of_read? hread]
    unfold read? node?
    rw [Table.get?_erase]
    -- the root is a directory whatever the table holds
    by_cases hroot : q = []
    · simp [hroot]
    · by_cases hq : q = p
      · simp [hq]
      · simp [hq]

/-- Removing several places removes the files among them. -/
theorem get?_removals (d : Disk) (ps : List Path) (q : Path) :
    (ps.foldl remove d).nodes.get? q =
      if q ∈ ps ∧ (d.read? q).isSome = true then none else d.nodes.get? q := by
  induction ps generalizing d with
  | nil => simp
  | cons p rest ih =>
    rw [List.foldl_cons, ih, read?_remove, get?_remove]
    by_cases hq : q = p
    · simp [hq]
    · simp [hq]

end Disk

end Occupancy.Host
