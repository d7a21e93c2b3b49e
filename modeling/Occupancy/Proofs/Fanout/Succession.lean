import Occupancy.Proofs.Fanout.Bookkeeping

/-!
# One view after another

A publisher publishes views one after the other, without flushes in between. What it tried in the course of it is
what it tried for each view (`run_program` and `Clerk.afterAll`), the rooms of the views that got through on every
topic come in the order of the views (`room?_sublist`), and in the end a topic holds the last view that concerns
it, unless it got it (`held_after_append`).
-/

namespace Occupancy

namespace Publish

/-- The publisher with attempts of its own before those of the step under way. -/
def Clerk.afresh (k : Clerk) (earlier : List Attempt) : Clerk :=
  { k with attempts := earlier ++ k.attempts }

variable {y : Fortune}

theorem Clerk.answer_afresh (c : PublishCall) (k : Clerk) (earlier : List Attempt) :
    (k.afresh earlier).answer y c = ((k.answer y c).1, (k.answer y c).2.afresh earlier) := by
  cases c with
  | send t payload => simp only [answer, sent, afresh, List.append_assoc]
  | _ => rfl

/-- Earlier attempts make no difference to a program. -/
theorem run_afresh {α : Type} (p : Publication α) (k : Clerk) (earlier : List Attempt) :
    p.run (Clerk.answer y) (k.afresh earlier) =
      ((p.run (Clerk.answer y) k).1, (p.run (Clerk.answer y) k).2.afresh earlier) := by
  induction p generalizing k with
  | done a => rfl
  | ask c next ih =>
    rw [Program.run, Clerk.answer_afresh, Program.run]
    exact ih _ _

/-- A step's program runs like a step served by itself, after whatever was tried earlier. -/
theorem run_program (s : Step) (k : Clerk) :
    s.program.run (Clerk.answer y) k = ((k.serve y s).1, (k.serve y s).2.afresh k.attempts) := by
  rw [Clerk.serve, ← run_afresh]
  refine congrArg _ ?_
  rw [Clerk.afresh, List.append_nil]

/-- The publisher after steps one after another, with all attempts that it ever made. -/
def Clerk.afterAll (k : Clerk) (y : Fortune) (steps : List Step) : Clerk :=
  { k.after y steps with attempts := k.attempts ++ (k.journal y steps).flatMap (·.attempts) }

theorem Clerk.afterAll_nil (k : Clerk) : k.afterAll y [] = k := by
  simp [afterAll, after, journal]

theorem Clerk.journal_afresh (k : Clerk) (earlier : List Attempt) (steps : List Step) :
    (k.afresh earlier).journal y steps = k.journal y steps := by
  cases steps <;> rfl

theorem Clerk.afterAll_cons (k : Clerk) (s : Step) (rest : List Step) :
    k.afterAll y (s :: rest) = ((k.serve y s).2.afresh k.attempts).afterAll y rest := by
  rw [afterAll, afterAll, journal_afresh, journal, List.flatMap_cons]
  cases rest with
  | nil => simp [after, journal, entry, afresh]
  | cons s' rest => simp [after, entry, afresh, serve]

/-- A publication fails on no topic exactly if it gets through on every topic. -/
theorem isEmpty_failed_iff {v : RoomView} {e : Entry} (h : PublishedExactly v e) :
    e.report.failed.isEmpty = true ↔ e.report.delivered = v.topics := by
  have hlength := h.partition.length_eq
  rw [List.length_append] at hlength
  rw [List.isEmpty_iff_length_eq_zero]
  -- delivered and failed make up the topics, so nothing failed if all were delivered
  constructor
  · intro hfailed
    exact h.delivered_sublist.eq_of_length (by omega)
  · intro hdelivered
    rw [hdelivered] at hlength
    omega

/-- What a published view's report calls delivered came through. -/
theorem delivered_eq_through {v : RoomView} {e : Entry} (h : PublishedExactly v e) :
    e.report.delivered = through e.attempts := by
  cases hup : e.isUp with
  | true => exact (h.tried hup).2.2.1
  | false =>
    rw [(h.held hup).2.1, (h.held hup).1]
    rfl

/-- The topics of a view hold its payload after it was published, unless they got it. -/
theorem held_publish {v : RoomView} (k : Clerk) {t : Topic} (concerned : t ∈ v.topics) :
    ((k.serve y (.publish v)).2.pending.held.get? t).map (·.payload) =
      if t ∈ (k.entry y (.publish v)).report.delivered then none else some v.payload := by
  obtain ⟨exact, lookup⟩ := served y k (.publish v)
  rw [lookup, delivered_eq_through exact, Step.payload?, if_pos concerned]
  rfl

/-- Other topics hold what they held. -/
theorem held_publish_of_not_mem {v : RoomView} (k : Clerk) {t : Topic} (unconcerned : t ∉ v.topics) :
    ((k.serve y (.publish v)).2.pending.held.get? t).map (·.payload) =
      (k.pending.held.get? t).map (·.payload) := by
  obtain ⟨exact, lookup⟩ := served y k (.publish v)
  have hthrough : t ∉ through (k.entry y (.publish v)).attempts := fun hmem =>
    unconcerned (exact.delivered_sublist.subset (delivered_eq_through exact ▸ hmem))
  rw [lookup, if_neg hthrough, Step.payload?, if_neg unconcerned]
  rfl

/-- Publishing views that have nothing to do with a topic leaves what it holds. -/
theorem held_after_of_not_mem {vs : List RoomView} (k : Clerk) {t : Topic}
    (unconcerned : ∀ v ∈ vs, t ∉ v.topics) :
    ((k.after y (vs.map .publish)).pending.held.get? t).map (·.payload) =
      (k.pending.held.get? t).map (·.payload) := by
  induction vs generalizing k with
  | nil => rfl
  | cons v rest ih =>
    refine (ih (k.serve y (.publish v)).2 fun v' hv' => unconcerned v' (List.mem_cons_of_mem _ hv')).trans ?_
    exact held_publish_of_not_mem k (unconcerned v List.mem_cons_self)

/-- In the end a topic holds the last view that concerns it, unless it got it. -/
theorem held_after_append {earlier later : List RoomView} {v : RoomView} (k : Clerk) {t : Topic}
    (concerned : t ∈ v.topics) (unconcerned : ∀ v' ∈ later, t ∉ v'.topics) :
    ((k.after y ((earlier ++ v :: later).map .publish)).pending.held.get? t).map (·.payload) =
      if t ∈ ((k.after y (earlier.map .publish)).entry y (.publish v)).report.delivered then none
      else some v.payload := by
  rw [List.map_append, Clerk.after, List.foldl_append]
  exact (held_after_of_not_mem _ unconcerned).trans (held_publish _ concerned)

/-- The room of a view that got through on every topic. -/
def Entry.room? (e : Entry) : Option RoomId :=
  match e.step with
  | .publish v => if e.report.delivered = v.topics then some v.room else none
  | .flush => none

/-- The rooms of views that got through are among the rooms of all views, in order. -/
theorem room?_sublist (vs : List RoomView) (k : Clerk) :
    ((k.journal y (vs.map .publish)).filterMap (·.room?)).Sublist (vs.map (·.room)) := by
  induction vs generalizing k with
  | nil => exact .slnil
  | cons v rest ih =>
    have hrest := ih (k.serve y (.publish v)).2
    rw [List.map_cons, List.map_cons, Clerk.journal, List.filterMap_cons]
    -- a room is named exactly if all of its topics came through
    by_cases hdelivered : (k.entry y (.publish v)).report.delivered = v.topics
    · rw [show (k.entry y (.publish v)).room? = some v.room from if_pos hdelivered]
      exact hrest.cons_cons _
    · rw [show (k.entry y (.publish v)).room? = none from if_neg hdelivered]
      exact hrest.cons _

end Publish

end Occupancy
