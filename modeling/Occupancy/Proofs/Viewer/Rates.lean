import Mathlib.Algebra.BigOperators.Group.List.Lemmas
import Occupancy.Proofs.Table
import Occupancy.Proofs.Time
import Occupancy.Viewer.Rates

/-!
# Rates count what no window has dropped

Updates are noted and rates are taken at moments that never go back. Which updates remain is said by the calls
alone: those after which no window began that is too late for them (`remaining`). The moments that are kept are
the remaining updates seen in two ways, in all and room by room (`Shows`). Both are dropped from the front only,
which drops the right ones as long as they are in order (`prune_eq_filter`). Main statement: `rates_exact`.
-/

namespace Occupancy.Rates

/-! ## Calls -/

/-- A call at a moment: an update of a room is noted, or rates over a window are taken. -/
inductive Call where
  | record (room : RoomId) (now : Instant)
  | rates (window : Span) (now : Instant)

namespace Call

def now : Call → Instant
  | .record _ now => now
  | .rates _ now => now

/-- The moment at which the window of a call begins, if it has a window that begins at a moment. -/
def cutoff? : Call → Option Instant
  | .record _ _ => none
  | .rates window now => now.back? window

/-- Does the call leave an update of the moment `t`? -/
def keeps (t : Instant) (c : Call) : Bool :=
  c.cutoff?.all fun cutoff => cutoff ≤ t

end Call

/-- What is kept after one more call. Without a beginning of its window a call changes nothing. -/
def step (r : Rates) : Call → Rates
  | .record room now => r.record room now
  | .rates window now => ((r.over? window now).map Prod.snd).getD r

/-- What is kept after several calls, with nothing before them. -/
def after (calls : List Call) : Rates :=
  calls.foldl step {}

/-- The updates that all calls since have left, in the order in which they came. -/
def remaining : List Call → List (RoomId × Instant)
  | [] => []
  | .record room now :: later =>
    if later.all (·.keeps now) then (room, now) :: remaining later else remaining later
  | .rates _ _ :: later => remaining later

/-- The number of updates of a room that all calls since have left. -/
def counted (room : RoomId) (calls : List Call) : Nat :=
  (remaining calls).countP fun u => u.1 = room

/-! ## Remaining updates -/

variable {calls : List Call} {us : List (RoomId × Instant)} {r : Rates} {cutoff : Instant}

/-- A new update remains beside those that do. -/
theorem remaining_record (calls : List Call) (room : RoomId) (now : Instant) :
    remaining (calls ++ [.record room now]) = remaining calls ++ [(room, now)] := by
  induction calls with
  | nil => rfl
  | cons c later ih =>
    cases c with
    | rates window t => exact ih
    | record room' t =>
      -- a record has no window, so everything is kept by it
      have hkeeps : (later ++ [Call.record room now]).all (·.keeps t) = later.all (·.keeps t) := by
        simp [Call.keeps, Call.cutoff?]
      rw [List.cons_append, remaining, remaining, hkeeps, ih]
      split <;> rfl

/-- A window leaves those updates that it leaves. -/
theorem remaining_rates (calls : List Call) (window : Span) (now : Instant) :
    remaining (calls ++ [.rates window now]) =
      (remaining calls).filter fun u => (Call.rates window now).keeps u.2 := by
  induction calls with
  | nil => rfl
  | cons c later ih =>
    cases c with
    | rates window' t => exact ih
    | record room t =>
      -- the window cuts off what no earlier window had
      have hkeeps : (later ++ [Call.rates window now]).all (·.keeps t) =
          (later.all (·.keeps t) && (Call.rates window now).keeps t) := by
        simp
      rw [List.cons_append, remaining, remaining, hkeeps, ih]
      by_cases hlater : later.all (·.keeps t) = true
      · by_cases hwindow : (Call.rates window now).keeps t = true
        · simp [hlater, hwindow]
        · simp [hlater, hwindow]
      · simp [hlater]

/-- The moments of the remaining updates are moments of calls. -/
theorem remaining_sublist (calls : List Call) :
    ((remaining calls).map Prod.snd).Sublist (calls.map Call.now) := by
  induction calls with
  | nil => exact .slnil
  | cons c later ih =>
    cases c with
    | rates window t => exact ih.cons t
    | record room t =>
      rw [remaining]
      -- the update is still there, or a later window has cut it off
      split
      · exact ih.cons_cons t
      · exact ih.cons t

/-- Remaining updates are in the order of their moments, if no call came before an earlier one. -/
theorem ordered_remaining (ordered : (calls.map Call.now).Pairwise (· ≤ ·)) :
    ((remaining calls).map Prod.snd).Pairwise (· ≤ ·) :=
  ordered.sublist (remaining_sublist calls)

/-! ## Dropping from the front -/

/-- What is dropped from the front of moments in order is what lies before the cutoff. -/
theorem prune_eq_filter {moments : List Instant} (ordered : moments.Pairwise (· ≤ ·)) :
    prune cutoff moments = moments.filter fun t => cutoff ≤ t := by
  induction moments with
  | nil => rfl
  | cons t later ih =>
    by_cases hlt : t < cutoff
    · have hle : ¬ cutoff ≤ t := Int.not_le.mpr hlt
      rw [List.filter_cons_of_neg (by simpa using hle), ← ih ordered.of_cons, prune,
        List.dropWhile_cons_of_pos (by simpa using hlt)]
      rfl
    · -- nothing later lies before the cutoff either
      have hall : ∀ x ∈ t :: later, cutoff ≤ x := by
        intro x hx
        have hle : cutoff ≤ t := Int.not_lt.mp hlt
        rcases List.mem_cons.mp hx with rfl | hx
        · exact hle
        · exact Instant.le_trans hle (List.rel_of_pairwise_cons ordered hx)
      rw [List.filter_eq_self.mpr (by simpa using hall), prune,
        List.dropWhile_cons_of_neg (by simpa using hlt)]

def momentsOf (room : RoomId) (us : List (RoomId × Instant)) : List Instant :=
  (us.filter fun u => u.1 = room).map Prod.snd

theorem length_momentsOf (room : RoomId) (us : List (RoomId × Instant)) :
    (momentsOf room us).length = us.countP fun u => u.1 = room := by
  rw [momentsOf, List.length_map, List.countP_eq_length_filter]

/-- The moments that are kept are those of the updates `us`, in all and for each room. -/
structure Shows (r : Rates) (us : List (RoomId × Instant)) : Prop where
  all : r.all = us.map Prod.snd
  rooms : ∀ room, (r.rooms.get? room).getD [] = momentsOf room us

theorem Shows.record (shows_ : Shows r us) (room : RoomId) (now : Instant) :
    Shows (r.record room now) (us ++ [(room, now)]) where
  all := by
    rw [Rates.record, shows_.all, List.map_append]
    rfl
  rooms room' := by
    rw [momentsOf, List.filter_append, List.map_append, Rates.record, Table.alter, Table.get?_set]
    by_cases h : room' = room
    · -- the room has one update more
      rw [if_pos h, Option.getD_some, shows_.rooms, h]
      simp [momentsOf]
    · rw [if_neg h, shows_.rooms]
      simp [momentsOf, Ne.symm h]

/-- Dropping moments from the front drops the updates before the cutoff. -/
theorem Shows.take (shows_ : Shows r us) (ordered : (us.map Prod.snd).Pairwise (· ≤ ·)) :
    Shows (r.take cutoff).2 (us.filter fun u => cutoff ≤ u.2) where
  all := by
    rw [Rates.take, shows_.all, prune_eq_filter ordered, List.filter_map]
    rfl
  rooms room := by
    -- a room's updates are ordered as all are
    have hordered : (momentsOf room us).Pairwise (· ≤ ·) :=
      ordered.sublist (List.filter_sublist.map Prod.snd)
    have hpruned : ((r.take cutoff).2.rooms.get? room).getD [] = prune cutoff (momentsOf room us) := by
      rw [Rates.take, Table.get?_mapValues, ← shows_.rooms]
      cases r.rooms.get? room <;> rfl
    rw [hpruned, prune_eq_filter hordered, momentsOf, momentsOf, List.filter_map, List.filter_filter,
      List.filter_filter]
    simp only [Function.comp_def, Bool.and_comm]

/-- What is kept are the remaining updates. -/
theorem shows_after (ordered : (calls.map Call.now).Pairwise (· ≤ ·)) :
    Shows (after calls) (remaining calls) := by
  induction calls using List.reverseRecOn with
  | nil => exact ⟨rfl, fun _ => rfl⟩
  | append_singleton calls c ih =>
    rw [List.map_append, List.pairwise_append] at ordered
    have hshows := ih ordered.1
    rw [after, List.foldl_concat, ← after]
    cases c with
    | record room now =>
      rw [remaining_record]
      exact hshows.record room now
    | rates window now =>
      rw [remaining_rates, step, over?]
      -- a window from before the calendar keeps everything
      cases hcutoff : now.back? window with
      | none => simpa [Call.keeps, Call.cutoff?, hcutoff] using hshows
      | some cutoff =>
        simpa [Call.keeps, Call.cutoff?, hcutoff] using hshows.take (ordered_remaining ordered.1)

/-! ## Reports -/

/-- Busier rooms come first in a report. -/
theorem pairwise_sorted (counts : List (RoomId × Nat)) :
    (counts.mergeSort busier).Pairwise fun a b => b.2 ≤ a.2 := by
  have hsorted : (counts.mergeSort busier).Pairwise fun a b => busier a b = true := by
    refine List.pairwise_mergeSort (fun a b c hab hbc => ?_) (fun a b => ?_) counts
    · unfold busier at *
      grind
    · unfold busier
      grind
  refine hsorted.imp fun {a b} h => ?_
  unfold busier at h
  grind

def countOf (e : RoomId × List Instant) : Option (RoomId × Nat) :=
  if e.2.isEmpty then none else some (e.1, e.2.length)

theorem countOf_eq_some_iff {e : RoomId × List Instant} {c : RoomId × Nat} :
    countOf e = some c ↔ c = (e.1, e.2.length) ∧ 0 < e.2.length := by
  obtain ⟨room, moments⟩ := e
  cases moments with
  | nil => simp [countOf]
  | cons t later => simp [countOf, eq_comm]

/-- A room is counted with the number of its moments, if it has any. -/
theorem mem_counts {rooms : Table RoomId (List Instant)} {room : RoomId} {n : Nat} :
    (room, n) ∈ rooms.entries.filterMap countOf ↔
      n = ((rooms.get? room).getD []).length ∧ 0 < n := by
  rw [List.mem_filterMap]
  constructor
  · rintro ⟨⟨room', moments⟩, hmem, hcount⟩
    obtain ⟨heq, hpos⟩ := countOf_eq_some_iff.mp hcount
    cases heq
    rw [Table.mem_entries_iff.mp hmem, Option.getD_some]
    exact ⟨rfl, hpos⟩
  · rintro ⟨hn, hpos⟩
    -- a room without updates counts none
    cases hget : rooms.get? room with
    | none =>
      rw [hget] at hn
      exact absurd hn (Nat.ne_of_gt hpos)
    | some moments =>
      rw [hget, Option.getD_some] at hn
      exact ⟨(room, moments), Table.mem_entries_iff.mpr hget,
        countOf_eq_some_iff.mpr ⟨by rw [hn], hn ▸ hpos⟩⟩

/-- No room is counted twice. -/
theorem nodup_counts (rooms : Table RoomId (List Instant)) :
    ((rooms.entries.filterMap countOf).map Prod.fst).Nodup := by
  refine rooms.distinct.sublist ?_
  induction rooms.entries with
  | nil => exact .slnil
  | cons e rest ih =>
    -- a room that counts none is not listed
    cases hcount : countOf e with
    | none =>
      rw [List.filterMap_cons_none hcount]
      exact ih.cons e.1
    | some c =>
      rw [List.filterMap_cons_some hcount, (countOf_eq_some_iff.mp hcount).1]
      exact ih.cons_cons e.1

/-- Counts by room, each room counted once, add up to all updates. -/
theorem sum_counts {listed : List (RoomId × Nat)} (nodup : (listed.map Prod.fst).Nodup)
    (listed_iff : ∀ room n, (room, n) ∈ listed ↔ n = (us.countP fun u => u.1 = room) ∧ 0 < n) :
    (listed.map Prod.snd).sum = us.length := by
  have hcount : ∀ room, (us.countP fun u => u.1 = room) = (us.map Prod.fst).count room := by
    intro room
    rw [List.count, List.countP_map]
    rfl
  -- each room is listed with its number of updates
  have hsnd : listed.map Prod.snd = (listed.map Prod.fst).map (us.map Prod.fst).count := by
    rw [List.map_map]
    refine List.map_congr_left fun e he => ?_
    rw [Function.comp_apply, ← hcount]
    exact ((listed_iff e.1 e.2).mp he).1
  -- listed are the rooms that updates are of
  have hperm : (listed.map Prod.fst).Perm (us.map Prod.fst).dedup := by
    refine (List.perm_ext_iff_of_nodup nodup (List.nodup_dedup _)).mpr fun room => ?_
    rw [List.mem_dedup, ← List.count_pos_iff (l := us.map Prod.fst), ← hcount, List.mem_map]
    constructor
    · rintro ⟨⟨room', n⟩, hmem, rfl⟩
      obtain ⟨hn, hpos⟩ := (listed_iff _ _).mp hmem
      rwa [← hn]
    · intro hpos
      exact ⟨(room, _), (listed_iff _ _).mpr ⟨rfl, hpos⟩, rfl⟩
  rw [hsnd, (hperm.map _).sum_eq, List.sum_map_count_dedup_eq_length, List.length_map]

/-- **Rates are exact.** Let updates be noted and rates be taken at moments that never go back. Rates over a
window that begins at a moment are found, and list exactly the rooms with updates that neither this window nor
one before has dropped, each once, with the number of these updates, and busier rooms first. The rate in all is
the sum of the rates that are listed. -/
theorem rates_exact {window : Span} {now : Instant}
    (ordered : ((calls ++ [Call.rates window now]).map Call.now).Pairwise (· ≤ ·))
    (begins : now.back? window = some cutoff) :
    ∃ report next, (after calls).over? window now = some (report, next) ∧
      (∀ room n, (room, n) ∈ report.rooms ↔
        n = counted room (calls ++ [.rates window now]) ∧ 0 < n) ∧
      (report.rooms.map Prod.fst).Nodup ∧
      report.rooms.Pairwise (fun a b => b.2 ≤ a.2) ∧
      report.all = (report.rooms.map Prod.snd).sum := by
  have hshows := shows_after ordered
  have hafter : after (calls ++ [.rates window now]) = ((after calls).take cutoff).2 := by
    rw [after, List.foldl_concat, ← after, step, over?, begins]
    rfl
  rw [hafter] at hshows
  -- the report counts what is kept after it
  have hlisted : ∀ room n, (room, n) ∈ ((after calls).take cutoff).1.rooms ↔
      n = counted room (calls ++ [.rates window now]) ∧ 0 < n := by
    intro room n
    rw [counted, ← length_momentsOf, ← hshows.rooms, ← mem_counts]
    exact List.mem_mergeSort
  have hnodup : (((after calls).take cutoff).1.rooms.map Prod.fst).Nodup :=
    (((List.mergeSort_perm _ busier).map Prod.fst).nodup_iff).mpr (nodup_counts _)
  refine ⟨_, _, by rw [over?, begins, Option.map_some], hlisted, hnodup, pairwise_sorted _, ?_⟩
  have hall : ((after calls).take cutoff).1.all = ((after calls).take cutoff).2.all.length := rfl
  rw [hall, hshows.all, List.length_map]
  exact (sum_counts hnodup hlisted).symm

/-- Updates of two rooms, the first of which a narrow window drops before the others come. -/
def narrowed : List Call :=
  [.record 7 ⟨1, by decide⟩, .rates { nanos := 1 } ⟨3, by decide⟩, .record 5 ⟨3, by decide⟩,
   .record 7 ⟨4, by decide⟩, .record 5 ⟨4, by decide⟩]

/-- A wide window after a narrow one does not bring back what the narrow one has dropped. -/
theorem rates_exact_narrowed :
    ((narrowed ++ [Call.rates { nanos := 10 } ⟨5, by decide⟩]).map Call.now).Pairwise (· ≤ ·) ∧
    ∃ report next, (after narrowed).over? { nanos := 10 } ⟨5, by decide⟩ = some (report, next) ∧
      (5, 2) ∈ report.rooms ∧ (7, 1) ∈ report.rooms ∧ (7, 2) ∉ report.rooms ∧
      report.all = (report.rooms.map Prod.snd).sum := by
  have ordered :
      ((narrowed ++ [Call.rates { nanos := 10 } ⟨5, by decide⟩]).map Call.now).Pairwise (· ≤ ·) := by
    decide
  have begins : Instant.back? ⟨5, by decide⟩ { nanos := 10 } = some ⟨-5, by decide⟩ := rfl
  obtain ⟨report, next, hover, hlisted, -, -, hall⟩ := rates_exact ordered begins
  refine ⟨ordered, report, next, hover, ?_, ?_, ?_, hall⟩
  · exact (hlisted 5 2).mpr (by decide)
  · exact (hlisted 7 1).mpr (by decide)
  · exact fun hmem => absurd ((hlisted 7 2).mp hmem) (by decide)

end Occupancy.Rates
