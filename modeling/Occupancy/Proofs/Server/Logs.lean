import Occupancy.Proofs.Ascending
import Occupancy.Proofs.Host.Disk
import Occupancy.Proofs.Program
import Occupancy.Server.Machine

/-!
# What is left of the logs of earlier runs

Cleaning up removes every log for which something that is named like a log has changed later
(`mem_outdated_iff`). A directory may be named like a log as well: it stays, but a log that is older than it goes.
Main statement: `keepsNewest_iff` says what is left, and that the newest log is left exactly unless such a
directory is newer than all logs; `not_always_keepsNewest` has a directory that takes the only log with it.
-/

namespace Occupancy.Server.Logs

open Host

variable {m : Machine} {directory : String} {entries : List Entry} {e : Entry}

/-! ## The order of the logs -/

theorem mem_newestFirst : e ∈ newestFirst entries ↔ e ∈ entries ∧ isLogName e.name = true := by
  rw [newestFirst, List.mem_mergeSort, List.mem_filter]

/-- What was changed later comes earlier. -/
theorem descending_newestFirst (distinct : entries.Pairwise (·.modified ≠ ·.modified)) :
    (newestFirst entries).Pairwise fun a b => b.modified < a.modified := by
  -- latest first is ascending in the negated time
  have horder : (fun a b : Entry => decide (b.modified ≤ a.modified)) =
      fun a b => decide (-a.modified ≤ -b.modified) := by
    funext a b
    rw [decide_eq_decide]
    omega
  have hdistinct : (entries.filter (isLogName ·.name)).Pairwise fun a b => -a.modified ≠ -b.modified :=
    (distinct.sublist List.filter_sublist).imp fun hne heq => hne (Int.neg_inj.mp heq)
  rw [newestFirst, horder]
  exact (ascending_mergeSort hdistinct).imp fun hlt => Int.neg_lt_neg_iff.mp hlt

/-- A log is outdated if something that is named like a log was changed later. -/
theorem mem_outdated_iff (distinct : entries.Pairwise (·.modified ≠ ·.modified)) :
    e ∈ outdated entries ↔ (e ∈ entries ∧ isLogName e.name = true) ∧
      ∃ e' ∈ entries, isLogName e'.name = true ∧ e.modified < e'.modified := by
  have hdescending := descending_newestFirst distinct
  have hlater : (∃ e' ∈ entries, isLogName e'.name = true ∧ e.modified < e'.modified) ↔
      ∃ e' ∈ newestFirst entries, e.modified < e'.modified := by
    simp only [mem_newestFirst, and_assoc]
  rw [outdated, ← mem_newestFirst, hlater]
  cases hsorted : newestFirst entries with
  | nil => simp
  | cons first rest =>
    rw [hsorted] at hdescending
    have hfirst : ∀ x ∈ rest, x.modified < first.modified := fun x hx =>
      List.rel_of_pairwise_cons hdescending hx
    rw [List.drop_succ_cons, List.drop_zero]
    constructor
    · intro hmem
      exact ⟨List.mem_cons_of_mem _ hmem, first, List.mem_cons_self, hfirst e hmem⟩
    · rintro ⟨hmem, e', hmem', hlt⟩
      refine (List.mem_cons.mp hmem).resolve_left fun heq => ?_
      -- nothing comes before the first
      rw [heq] at hlt
      rcases List.mem_cons.mp hmem' with rfl | hmem'
      · exact Int.lt_irrefl _ hlt
      · exact Int.lt_irrefl _ (Int.lt_trans hlt (hfirst e' hmem'))

/-! ## The run -/

theorem list_of_machine (listed : m.list directory = .ok entries) :
    directory ≠ "" ∧ m.disk.list (m.place directory) = .ok entries := by
  unfold Machine.list at listed
  split at listed
  · cases listed
  · exact ⟨‹_›, listed⟩

/-- Removing items one after the other removes their places from the disk. -/
theorem run_removeAll (m : Machine) (directory : String) (es : List Entry) :
    (removeAll directory es).run Machine.answer m =
      ((), { m with disk := (es.map fun e => m.place (pathOf directory e)).foldl Disk.remove m.disk }) := by
  induction es generalizing m with
  | nil => rfl
  | cons e rest ih =>
    rw [removeAll, Program.run_ask rfl, ih]
    rfl

/-- Cleaning up a directory that can be listed removes the places of outdated logs. -/
theorem run_cleanUp (listed : m.list directory = .ok entries) :
    (cleanUp directory).run.run Machine.answer m = (.ok (), { m with
      disk := ((outdated entries).map fun e => m.place (pathOf directory e)).foldl Disk.remove m.disk }) := by
  have hanswer : Machine.answer (.list directory) m = (.ok entries, m) := by
    rw [Machine.answer, listed]
  rw [cleanUp, ExceptT.run_mk, Program.run_ask hanswer, Program.run_bind, run_removeAll]
  rfl

/-- The name of a log leads a path one step further. -/
theorem step_of_isLogName {name : String} (h : isLogName name = true) (p : Path) :
    p.step name = p ++ [name] := by
  -- neither the empty name nor the two dotted ones end in the extension
  have hplain : isLogName "" = false ∧ isLogName "." = false ∧ isLogName ".." = false := by decide
  unfold Path.step
  rw [if_neg, if_neg]
  · rintro rfl
    rw [hplain.2.2] at h
    cases h
  · rintro (rfl | rfl)
    · rw [hplain.1] at h
      cases h
    · rw [hplain.2.1] at h
      cases h

/-! ## What is left -/

/-- A log of a directory: a file that is named like one, with the time of its last change. -/
def IsLog (d : Disk) (p : Path) (name : String) (modified : Int) : Prop :=
  isLogName name = true ∧ ∃ text, d.nodes.get? (p ++ [name]) = some (.file text, modified)

/-- A directory inside another one that is named like a log, with the time of its last change. -/
def IsDecoy (d : Disk) (p : Path) (name : String) (modified : Int) : Prop :=
  isLogName name = true ∧ d.nodes.get? (p ++ [name]) = some (.directory, modified)

/-- Is anything named like a log and changed after `modified`? -/
def Outshone (d : Disk) (p : Path) (modified : Int) : Prop :=
  ∃ name t, (IsLog d p name t ∨ IsDecoy d p name t) ∧ modified < t

/-- All that is no log of a directory is as before. -/
def KeepsOthers (before after : Disk) (p : Path) : Prop :=
  ∀ q, (∀ name t, IsLog before p name t → q ≠ p ++ [name]) →
    after.nodes.get? q = before.nodes.get? q

/-- Of the logs of a directory the newest one is as before and no other is there, and all that is no log is as
before. -/
structure KeepsNewest (before after : Disk) (p : Path) : Prop where
  others : KeepsOthers before after p
  newest : ∀ name t, IsLog before p name t → (∀ name' t', IsLog before p name' t' → t' ≤ t) →
    after.nodes.get? (p ++ [name]) = before.nodes.get? (p ++ [name])
  older : ∀ name t, IsLog before p name t → (∃ name' t', IsLog before p name' t' ∧ t < t') →
    after.nodes.get? (p ++ [name]) = none

variable {d : Disk} {p : Path}

theorem mem_of_isLog (listed : d.list p = .ok entries) {name : String} {t : Int} (h : IsLog d p name t) :
    ⟨name, false, t⟩ ∈ entries := by
  obtain ⟨-, text, hget⟩ := h
  exact (Disk.mem_list_iff listed).mpr ⟨.file text, hget, rfl⟩

theorem mem_of_isDecoy (listed : d.list p = .ok entries) {name : String} {t : Int} (h : IsDecoy d p name t) :
    ⟨name, true, t⟩ ∈ entries :=
  (Disk.mem_list_iff listed).mpr ⟨.directory, h.2, rfl⟩

theorem isLog_of_mem (listed : d.list p = .ok entries) (hmem : e ∈ entries) (hname : isLogName e.name = true)
    (hfile : e.isDirectory = false) : IsLog d p e.name e.modified := by
  obtain ⟨node, hget, hdirectory⟩ := (Disk.mem_list_iff listed).mp hmem
  cases node with
  | file text => exact ⟨hname, text, hget⟩
  | directory =>
    rw [hfile] at hdirectory
    cases hdirectory

/-- Items that are named like logs are logs and directories. -/
theorem outshone_iff (listed : d.list p = .ok entries) {modified : Int} :
    Outshone d p modified ↔ ∃ e ∈ entries, isLogName e.name = true ∧ modified < e.modified := by
  constructor
  · rintro ⟨name, t, hlog | hdecoy, hlt⟩
    · exact ⟨_, mem_of_isLog listed hlog, hlog.1, hlt⟩
    · exact ⟨_, mem_of_isDecoy listed hdecoy, hdecoy.1, hlt⟩
  · -- the entry tells whether a file or a directory outshines
    rintro ⟨e, hmem, hname, hlt⟩
    obtain ⟨node, hget, -⟩ := (Disk.mem_list_iff listed).mp hmem
    refine ⟨e.name, e.modified, ?_, hlt⟩
    cases node with
    | file text => exact .inl ⟨hname, text, hget⟩
    | directory => exact .inr ⟨hname, hget⟩

/-- If there are logs, one of them is the newest. -/
theorem exists_newest (listed : d.list p = .ok entries) (distinct : entries.Pairwise (·.modified ≠ ·.modified))
    (some_ : ∃ name t, IsLog d p name t) :
    ∃ name t, IsLog d p name t ∧ ∀ name' t', IsLog d p name' t' → t' ≤ t := by
  -- the first of the sorted files is the newest log
  have hmem : ∀ {name t}, IsLog d p name t →
      ⟨name, false, t⟩ ∈ newestFirst (entries.filter fun e => !e.isDirectory) := fun h =>
    mem_newestFirst.mpr ⟨List.mem_filter.mpr ⟨mem_of_isLog listed h, rfl⟩, h.1⟩
  have hdescending := descending_newestFirst
    (distinct.sublist (List.filter_sublist (p := fun e => !e.isDirectory)))
  obtain ⟨name, t, hlog⟩ := some_
  cases hsorted : newestFirst (entries.filter fun e => !e.isDirectory) with
  | nil =>
    have hnil := hmem hlog
    rw [hsorted] at hnil
    cases hnil
  | cons first rest =>
    have hfirst : first ∈ newestFirst (entries.filter fun e => !e.isDirectory) :=
      hsorted ▸ List.mem_cons_self
    obtain ⟨hfile, hname⟩ := mem_newestFirst.mp hfirst
    obtain ⟨hentry, hfile⟩ := List.mem_filter.mp hfile
    refine ⟨first.name, first.modified, isLog_of_mem listed hentry hname (by simpa using hfile), ?_⟩
    intro name' t' hlog'
    have hmem' := hmem hlog'
    rw [hsorted] at hmem' hdescending
    rcases List.mem_cons.mp hmem' with heq | hmem'
    · exact Int.le_of_eq (congrArg Entry.modified heq)
    · exact Int.le_of_lt (List.rel_of_pairwise_cons hdescending hmem')

/-- What is left where something was removed: every log that is not outshone, and all that is no log. -/
structure Leaves (before after : Disk) (p : Path) : Prop where
  others : KeepsOthers before after p
  outshone : ∀ name t, IsLog before p name t → Outshone before p t → after.nodes.get? (p ++ [name]) = none
  latest : ∀ name t, IsLog before p name t → ¬ Outshone before p t →
    after.nodes.get? (p ++ [name]) = before.nodes.get? (p ++ [name])

/-- Cleaning up succeeds, and leaves what is not outshone. -/
theorem leaves_cleanUp (listed : m.list directory = .ok entries) (plain : ∀ e ∈ entries, '/' ∉ e.name.toList)
    (distinct : entries.Pairwise (·.modified ≠ ·.modified)) :
    ∃ disk, (cleanUp directory).run.run Machine.answer m = (.ok (), { m with disk }) ∧
      Leaves m.disk disk (m.place directory) := by
  refine ⟨_, run_cleanUp listed, ?_⟩
  obtain ⟨hnonempty, hlisted⟩ := list_of_machine listed
  -- a log's name is one plain step below the directory
  have hplaces : ((outdated entries).map fun e => m.place (pathOf directory e)) =
      (outdated entries).map fun e => m.place directory ++ [e.name] := by
    refine List.map_congr_left fun e he => ?_
    obtain ⟨⟨hmem, hname⟩, -⟩ := (mem_outdated_iff distinct).mp he
    exact Path.ofText_join m.working hnonempty (plain e hmem) (step_of_isLogName hname)
  rw [hplaces]
  -- a log is removed exactly when something outshines it
  have hgone : ∀ {name t}, IsLog m.disk (m.place directory) name t →
      ((m.place directory ++ [name] ∈ (outdated entries).map fun e => m.place directory ++ [e.name]) ↔
        Outshone m.disk (m.place directory) t) := by
    intro name t hlog
    rw [outshone_iff hlisted, List.mem_map]
    constructor
    · rintro ⟨e, he, heq⟩
      obtain ⟨⟨hmem, -⟩, hlater⟩ := (mem_outdated_iff distinct).mp he
      -- the items of one place are one item
      obtain rfl : e.name = name := by simpa using heq
      obtain ⟨node, hget, -⟩ := (Disk.mem_list_iff hlisted).mp hmem
      obtain ⟨-, text, hget'⟩ := hlog
      rw [hget] at hget'
      cases hget'
      exact hlater
    · intro hlater
      exact ⟨⟨name, false, t⟩,
        (mem_outdated_iff distinct).mpr ⟨⟨mem_of_isLog hlisted hlog, hlog.1⟩, hlater⟩, rfl⟩
  have hfile : ∀ {name t}, IsLog m.disk (m.place directory) name t →
      (m.disk.read? (m.place directory ++ [name])).isSome = true := by
    rintro name t ⟨-, text, hget⟩
    rw [(Disk.read?_eq_some_iff (by simp)).mpr ⟨t, hget⟩]
    rfl
  refine ⟨?_, ?_, ?_⟩
  · -- what is not a log is not among the removed files
    intro q hother
    rw [Disk.get?_removals, if_neg]
    rintro ⟨hq, hread⟩
    obtain ⟨e, he, rfl⟩ := List.mem_map.mp hq
    obtain ⟨text, htext⟩ := Option.isSome_iff_exists.mp hread
    obtain ⟨t, hget⟩ := (Disk.read?_eq_some_iff (by simp)).mp htext
    obtain ⟨⟨-, hname⟩, -⟩ := (mem_outdated_iff distinct).mp he
    exact hother e.name t ⟨hname, text, hget⟩ rfl
  · -- an outshone log is removed
    intro name t hlog houtshone
    rw [Disk.get?_removals, if_pos ⟨(hgone hlog).mpr houtshone, hfile hlog⟩]
  · -- a log that nothing outshines stays
    intro name t hlog hlatest
    rw [Disk.get?_removals, if_neg]
    exact fun h => hlatest ((hgone hlog).mp h.1)

/-- **Of the logs the newest one is kept, unless a directory outshines it.** Let a directory have items with plain
names and different times. Cleaning it up succeeds. It changes nothing but logs, and removes exactly the logs for
which a log or a directory that is named like one was changed later. So the newest log and only this one is left
exactly if no directory that is named like a log was changed later than all logs. -/
theorem keepsNewest_iff (listed : m.list directory = .ok entries) (plain : ∀ e ∈ entries, '/' ∉ e.name.toList)
    (distinct : entries.Pairwise (·.modified ≠ ·.modified)) :
    ∃ disk, (cleanUp directory).run.run Machine.answer m = (.ok (), { m with disk }) ∧
      Leaves m.disk disk (m.place directory) ∧
      (KeepsNewest m.disk disk (m.place directory) ↔
        ∀ name t, IsDecoy m.disk (m.place directory) name t →
          (∃ name' t', IsLog m.disk (m.place directory) name' t') →
            ∃ name' t', IsLog m.disk (m.place directory) name' t' ∧ t ≤ t') := by
  obtain ⟨disk, hrun, hleaves⟩ := leaves_cleanUp listed plain distinct
  have hlisted := (list_of_machine listed).2
  refine ⟨disk, hrun, hleaves, fun hkeeps name t hdecoy hsome => ?_, fun hundisturbed => ?_⟩
  · obtain ⟨name', t', hlog, hnewest⟩ := exists_newest hlisted distinct hsome
    refine ⟨name', t', hlog, Int.not_lt.mp fun hlt => ?_⟩
    -- the newest log is removed, as the directory outshines it
    have hgone := hleaves.outshone name' t' hlog ⟨name, t, .inr hdecoy, hlt⟩
    rw [hkeeps.newest name' t' hlog hnewest] at hgone
    obtain ⟨-, text, hget⟩ := hlog
    rw [hget] at hgone
    cases hgone
  · refine ⟨hleaves.others, fun name t hlog hnewest => ?_, fun name t hlog hlater => ?_⟩
    · -- a decoy that outshone the newest log would be undisturbed by a later one
      refine hleaves.latest name t hlog ?_
      rintro ⟨name', t', hlog' | hdecoy, hlt⟩
      · exact Int.not_lt.mpr (hnewest name' t' hlog') hlt
      · obtain ⟨name'', t'', hlog'', hle⟩ := hundisturbed name' t' hdecoy ⟨name, t, hlog⟩
        have hle' := hnewest name'' t'' hlog''
        omega
    · -- a log that another log outshines goes either way
      obtain ⟨name', t', hlog', hlt⟩ := hlater
      exact hleaves.outshone name t hlog ⟨name', t', .inl hlog', hlt⟩

/-- A machine with two logs, a directory between them in time, and notes that are newer than all. -/
def yard : Machine :=
  { disk := (((Disk.write {} ["logs", "a.log"] "" 5).write ["logs", "b.log"] "" 7).writeDirectory
      ["logs", "c.log"] 6).write ["logs", "notes.txt"] "" 9 }

/-- A directory that is named like a log but older than the newest one does no harm. -/
theorem keepsNewest_iff_yard :
    yard.list "/logs/" = .ok
      [⟨"a.log", false, 5⟩, ⟨"b.log", false, 7⟩, ⟨"c.log", true, 6⟩, ⟨"notes.txt", false, 9⟩] ∧
    ∃ disk, (cleanUp "/logs/").run.run Machine.answer yard = (.ok (), { yard with disk }) ∧
      KeepsNewest yard.disk disk ["logs"] := by
  have listed : yard.list "/logs/" = .ok
      [⟨"a.log", false, 5⟩, ⟨"b.log", false, 7⟩, ⟨"c.log", true, 6⟩, ⟨"notes.txt", false, 9⟩] := rfl
  refine ⟨listed, ?_⟩
  obtain ⟨disk, hrun, -, hkeeps⟩ := keepsNewest_iff listed (by decide) (by decide)
  refine ⟨disk, hrun, hkeeps.mpr fun name t hdecoy _ => ⟨"b.log", 7, ⟨rfl, "", rfl⟩, ?_⟩⟩
  -- the one directory with a log's name is older than the newest log
  obtain ⟨-, rfl⟩ : name = "c.log" ∧ t = 6 := by
    simpa using mem_of_isDecoy (list_of_machine listed).2 hdecoy
  decide

/-- A machine with a log, and a later directory that is named like one. -/
def outshining : Machine :=
  { disk := (Disk.write {} ["logs", "server.log"] "" 5).writeDirectory ["logs", "archive.log"] 10 }

/-- The directory stays, and the only log is gone. -/
theorem not_always_keepsNewest :
    IsLog outshining.disk ["logs"] "server.log" 5 ∧
    ((cleanUp "/logs").run.run Machine.answer outshining).1 = .ok () ∧
    ¬ KeepsNewest outshining.disk ((cleanUp "/logs").run.run Machine.answer outshining).2.disk ["logs"] := by
  have listed : outshining.list "/logs" = .ok
      [⟨"server.log", false, 5⟩, ⟨"archive.log", true, 10⟩] := rfl
  have hlog : IsLog outshining.disk ["logs"] "server.log" 5 := ⟨rfl, "", rfl⟩
  obtain ⟨disk, hrun, hleaves⟩ := leaves_cleanUp listed (by decide) (by decide)
  rw [hrun]
  refine ⟨hlog, rfl, fun hkeeps => ?_⟩
  have honly : ∀ name t, IsLog outshining.disk ["logs"] name t → t ≤ 5 := by
    intro name t hlog'
    obtain ⟨-, rfl⟩ : name = "server.log" ∧ t = 5 := by
      simpa using mem_of_isLog (list_of_machine listed).2 hlog'
    decide
  have hleft := hkeeps.newest "server.log" 5 hlog honly
  -- the directory outshines the log
  have hgone := hleaves.outshone "server.log" 5 hlog ⟨"archive.log", 10, .inr ⟨rfl, rfl⟩, by decide⟩
  obtain ⟨-, text, hget⟩ := hlog
  rw [hget] at hleft
  exact Option.some_ne_none _ (hleft.symm.trans hgone)

end Occupancy.Server.Logs
