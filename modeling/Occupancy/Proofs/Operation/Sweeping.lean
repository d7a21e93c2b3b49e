import Mathlib
import Occupancy.Proofs.Fanout.Succession
import Occupancy.Proofs.Operation.Dealings

/-!
# Sweeps under faults

One sweep over a store that may fail at any call, with a publisher that may fail at any attempt and a link that
may be down at any look. `course_sweep` says how a sweep goes, `Faithful` what it should do, and
`Course.faithful` that it does. Two sweeps that meet the same until they read views are compared by
`run_of_agree`. Main statement: `once_faithful`.
-/

namespace Occupancy

open Http (Circumstances Desk)

namespace Sweep

open Publish (Clerk)

variable {x : Circumstances} {y : Publish.Fortune}

/-- Views are published one after another, and those are reported that got through. -/
theorem run_publishEach (vs : List RoomView) (r : Round) :
    (publishEach vs).run (answer x y) r =
      ((r.clerk.journal y (vs.map .publish)).filterMap (·.room?),
        { r with clerk := r.clerk.afterAll y (vs.map .publish) }) := by
  induction vs generalizing r with
  | nil => rw [List.map_nil, Clerk.afterAll_nil]; rfl
  -- the entry of the first view, and the journal that goes on from where it leaves the clerk
  | cons v rest ih =>
    have hexact : Publish.PublishedExactly v (r.clerk.entry y (.publish v)) :=
      (Publish.served y r.clerk (.publish v)).1
    have hpublish : (Publish.publishView v).run (Clerk.answer y) r.clerk = _ :=
      Publish.run_program (.publish v) r.clerk
    rw [publishEach, Program.run_bind, run_ofPublication, hpublish, Program.run_bind, ih, List.map_cons,
      Clerk.afterAll_cons, Clerk.journal_afresh, Clerk.journal, List.filterMap_cons]
    refine Prod.ext ?_ rfl
    have hreport := Publish.isEmpty_failed_iff hexact
    have hroom : (r.clerk.entry y (.publish v)).room? =
        if (r.clerk.entry y (.publish v)).report.failed.isEmpty = true then some v.room else none := by
      simp only [hreport]
      rfl
    rw [hroom]
    by_cases hfailed : (r.clerk.serve y (.publish v)).1.failed.isEmpty = true
    · simp [Program.run, Clerk.entry, hfailed]
    · simp [Program.run, Clerk.entry, hfailed]

/-! ## Whole sweeps -/

/-- A sweep over a store, with what it leaves. -/
def sweep (x : Circumstances) (y : Publish.Fortune) (s : Store) (k : Clerk) : SweepReport × Round :=
  once.run (answer x y) ⟨{ store := s }, k⟩

/-- How a sweep goes: its batch comes to nothing, or it reads and publishes the views of the rooms. -/
inductive Course (x : Circumstances) (y : Publish.Fortune) (s : Store) (k : Clerk) :
    SweepReport × Round → Prop where
  | idle {reply : Except RoomError (List Commit)} {begun : List Dealing} {store : Store}
      (opened : opening x s = (reply.map Commit.rooms, { store, calls := begun }))
      (calls : Opening reply begun) (nothing : ∀ cs, reply = .ok cs → Commit.rooms cs = []) :
      Course x y s k ({}, ⟨{ store, calls := begun }, k⟩)
  | busy {now : Instant} {cs : List Commit} {begun log : List Dealing} {store : Store}
      (opened : opening x s = (.ok (Commit.rooms cs), { store, calls := begun }))
      (calls : Opening (.ok cs) begun) (found : Commit.rooms cs ≠ [])
      (finalized : cs = (s.finalizeExpired now).1) (rooms : store.rooms = (s.finalizeExpired now).2.rooms)
      (batches : log.filterMap Dealing.batch? = []) (reads : Reads x store (Commit.rooms cs) log) :
      Course x y s k
        ({ finalized := Commit.rooms cs
           published := (k.journal y ((log.flatMap Dealing.views).map .publish)).filterMap (·.room?) },
          ⟨{ store, calls := begun ++ log }, k.afterAll y ((log.flatMap Dealing.views).map .publish)⟩)

/-- Every sweep takes one of the two courses. -/
theorem course_sweep (x : Circumstances) (y : Publish.Fortune) (s : Store) (k : Clerk) :
    Course x y s k (sweep x y s k) := by
  obtain ⟨now, reply, begun, store, opened, calls, finalized⟩ := exists_opening x s
  have hrun : (ofAction Operation.finalizeExpired).run (answer x y) ⟨{ store := s }, k⟩ =
      (reply.map Commit.rooms, ⟨{ store, calls := begun }, k⟩) := by
    rw [run_ofAction, show Operation.finalizeExpired.run (Desk.serve x) { store := s } = _ from opened]
  cases reply with
  -- the batch failed
  | error e =>
    have hsweep : sweep x y s k = ({}, ⟨{ store, calls := begun }, k⟩) := by
      rw [sweep, once, Program.run_bind, hrun]
      rfl
    rw [hsweep]
    exact .idle opened calls fun cs h => by cases h
  | ok cs =>
    cases hrooms : Commit.rooms cs with
    -- nothing was due
    | nil =>
      have hsweep : sweep x y s k = ({}, ⟨{ store, calls := begun }, k⟩) := by
        rw [sweep, once, Program.run_bind, hrun]
        simp only [Except.map, hrooms]
        rfl
      rw [hsweep]
      exact .idle opened calls fun cs' h => Except.ok.inj h ▸ hrooms
    | cons room rest =>
      -- the rooms that are finalized are read, and what was read is published
      obtain ⟨log, hread, batches, reads⟩ := exists_run_readViews (x := x) (y := y) (room :: rest)
        ⟨{ store, calls := begun }, k⟩
      have hsweep : sweep x y s k =
          ({ finalized := Commit.rooms cs
             published := (k.journal y ((log.flatMap Dealing.views).map .publish)).filterMap (·.room?) },
            ⟨{ store, calls := begun ++ log }, k.afterAll y ((log.flatMap Dealing.views).map .publish)⟩) := by
        rw [sweep, once, Program.run_bind, hrun]
        simp only [Except.map, hrooms]
        rw [Program.run_bind, hread, Program.run_bind, run_publishEach]
        rfl
      rw [hsweep]
      exact .busy opened calls (by simp [hrooms]) (finalized cs rfl).1 (finalized cs rfl).2 batches
        (hrooms ▸ reads)

namespace Round

/-- The views of single rooms, as they were read. -/
def readings (r : Round) : List Reading :=
  r.desk.calls.filterMap Dealing.reading?

/-- The views of several rooms, as they were read together. -/
def listings (r : Round) : List Listing :=
  r.desk.calls.filterMap Dealing.listing?

def obtained (r : Round) : List RoomView :=
  r.desk.calls.flatMap Dealing.views

/-- The publications of the views that were obtained, one after the other. -/
def steps (r : Round) : List Publish.Step :=
  r.obtained.map .publish

/-- All views were obtained at one instant, and no reading of a single room failed. -/
def Undisturbed (r : Round) (now : Instant) : Prop :=
  (∀ q ∈ r.listings, ∀ vs, q.reply = .ok vs → q.now = now) ∧
    ∀ q ∈ r.readings, q.now = now ∧ ∃ v, q.reply = .ok v

/-- Nothing disturbs a round in which all replies came and bear the one instant. -/
theorem undisturbed_of_all {r : Round} {now : Instant} (listings : r.listings.all (·.now = now) = true)
    (readings : r.readings.all (fun q => q.now = now ∧ q.reply.isOk = true) = true) : r.Undisturbed now := by
  refine ⟨fun q hq _ _ => of_decide_eq_true (List.all_eq_true.mp listings q hq), fun q hq => ?_⟩
  obtain ⟨hnow, hreply⟩ := of_decide_eq_true (List.all_eq_true.mp readings q hq)
  refine ⟨hnow, ?_⟩
  cases hq : q.reply with
  | ok v => exact ⟨v, rfl⟩
  | error e => rw [hq] at hreply; cases hreply

end Round

/-- A sweep is faithful to the store and to the viewers. -/
structure Faithful (x : Circumstances) (y : Publish.Fortune) (k : Clerk) (z : SweepReport × Round) : Prop where
  /-- There is one batch, and the sweep reports the rooms that it finalized, if any. -/
  batch : ∃ reply, z.2.desk.calls.filterMap Dealing.batch? = [reply] ∧
    z.1.finalized = match reply with
      | .ok cs => Commit.rooms cs
      | .error _ => []
  ascending : z.1.finalized.Pairwise (·.toInt < ·.toInt)
  /-- Without such rooms nothing is read or published. -/
  idle : z.1.finalized = [] → z.2.listings = [] ∧ z.2.readings = [] ∧ z.1.published = [] ∧ z.2.clerk = k
  /-- The views of these rooms are read together, and one by one if that fails. -/
  reads : z.1.finalized ≠ [] → Reads x z.2.desk.store z.1.finalized z.2.desk.calls
  /-- There is a view of each of these rooms at any time, so that only a fault keeps it from being read. -/
  viewable : z.2.desk.store.Viewable z.1.finalized
  obtained : (z.2.obtained.map (·.room)).Sublist z.1.finalized
  /-- What is read one by one is what one reading of all rooms at that instant gives. -/
  agrees : ∀ now, z.2.Undisturbed now → z.2.desk.store.views z.1.finalized now = .ok z.2.obtained
  /-- The publisher publishes the views that were obtained, each once, and does nothing else. -/
  clerk : z.2.clerk = k.afterAll y z.2.steps
  exact : ∀ e ∈ k.journal y z.2.steps, e.Exact
  /-- The rooms reported as published are those whose view got through on every topic. -/
  published : z.1.published = (k.journal y z.2.steps).filterMap (·.room?)
  published_sublist : z.1.published.Sublist z.1.finalized
  /-- A topic of a view that no later view concerns got the view, or holds it in the end. The room of a view is
  such a topic. -/
  kept : ∀ earlier v later, z.2.obtained = earlier ++ v :: later →
    (Topic.room v.room ∈ v.topics ∧ ∀ v' ∈ later, Topic.room v.room ∉ v'.topics) ∧
    ∀ t ∈ v.topics, (∀ v' ∈ later, t ∉ v'.topics) →
      (z.2.clerk.pending.held.get? t).map (·.payload) =
        if t ∈ ((k.after y (earlier.map .publish)).entry y (.publish v)).report.delivered then none
        else some v.payload

theorem room_mem_topics_iff {v : RoomView} {room : RoomId} : Topic.room room ∈ v.topics ↔ room = v.room := by
  unfold RoomView.topics
  split <;> simp

/-- The room of a view is in no other view of rooms that ascend. -/
theorem room_not_mem_later {finalized : List RoomId} (ascending : finalized.Pairwise (·.toInt < ·.toInt))
    {vs earlier later : List RoomView} {v : RoomView} (sublist : (vs.map (·.room)).Sublist finalized)
    (split : vs = earlier ++ v :: later) : ∀ v' ∈ later, Topic.room v.room ∉ v'.topics := by
  have hpairwise := ascending.sublist sublist
  rw [split, List.map_append, List.map_cons] at hpairwise
  have hlater := (List.pairwise_cons.mp (List.pairwise_append.mp hpairwise).2.1).1
  intro v' hv' hmem
  have hlt := hlater v'.room (List.mem_map_of_mem hv')
  rw [room_mem_topics_iff.mp hmem] at hlt
  exact Int.lt_irrefl _ hlt

theorem Course.faithful {s : Store} {k : Clerk} {z : SweepReport × Round} (h : Course x y s k z)
    (wf : s.EachRecord RoomRecord.WellFormed) (filed : s.EachRecord fun room r => r.room.id = room) :
    Faithful x y k z := by
  cases h with
  -- neither read nor published anything
  | idle opened calls nothing =>
    rename_i reply begun store
    have hobtained : Round.obtained ⟨{ store, calls := begun }, k⟩ = [] := calls.views
    have hsteps : Round.steps ⟨{ store, calls := begun }, k⟩ = [] := congrArg (List.map _) hobtained
    have hbatch : [] = match reply with
        | .ok cs => Commit.rooms cs
        | .error _ => [] := by
      cases reply with
      | ok cs => exact (nothing cs rfl).symm
      | error e => rfl
    exact {
      batch := ⟨reply, calls.batches, hbatch⟩
      ascending := .nil
      idle := fun _ => ⟨calls.listings, calls.readings, rfl, rfl⟩
      reads := fun h => absurd rfl h
      viewable := fun room hroom => by cases hroom
      obtained := by rw [hobtained]; exact .slnil
      agrees := fun now _ => by rw [hobtained]; rfl
      clerk := by rw [hsteps]; exact (Clerk.afterAll_nil k).symm
      exact := by rw [hsteps]; exact Publish.exact_journal y k []
      published := by rw [hsteps]; rfl
      published_sublist := .slnil
      kept := fun earlier v later h => by rw [hobtained] at h; simp at h }
  | busy opened calls found finalized rooms batches reads =>
    rename_i now cs begun log store
    -- the rooms the batch closed are in order, and each of them has a view
    have ascending : (Commit.rooms cs).Pairwise (·.toInt < ·.toInt) :=
      finalized ▸ Store.pairwise_rooms_finalizeExpired wf now
    have viewable : store.Viewable (Commit.rooms cs) :=
      finalized ▸ Store.viewable_finalizeExpired wf filed rooms
    have hobtained : (begun ++ log).flatMap Dealing.views = log.flatMap Dealing.views := by
      rw [List.flatMap_append, calls.views, List.nil_append]
    rw [← hobtained]
    have reads' : Reads x store (Commit.rooms cs) (begun ++ log) := reads.append_left calls
    have sublist : (((begun ++ log).flatMap Dealing.views).map (·.room)).Sublist (Commit.rooms cs) :=
      reads'.sublist viewable
    exact {
      batch := ⟨.ok cs, by rw [List.filterMap_append, calls.batches, batches, List.append_nil], rfl⟩
      ascending
      idle := fun h => absurd h found
      reads := fun _ => reads'
      viewable
      obtained := sublist
      agrees := fun now h => reads'.views_eq h.1 h.2
      clerk := rfl
      exact := Publish.exact_journal y k _
      published := rfl
      published_sublist := (Publish.room?_sublist _ k).trans sublist
      kept := fun earlier v later h => by
        refine ⟨⟨room_mem_topics_iff.mpr rfl, room_not_mem_later ascending sublist h⟩,
          fun t concerned unconcerned => ?_⟩
        rw [← Publish.held_after_append k concerned unconcerned, ← h]
        rfl }

/-! ## Two sweeps -/

/-- Do two servers meet the same at their call number `n`? -/
structure Agree (x x' : Circumstances) (n : Nat) : Prop where
  fault : x'.fault n = x.fault n
  now : x'.now n = x.now n
  id : x'.id n = x.id n

variable {x x' : Circumstances}

/-- An action takes no call back. -/
theorem calls_le_run {α : Type} (p : Operation.Action α) (d : Desk) :
    d.calls.length ≤ (p.run (Desk.serve x) d).2.calls.length := by
  induction p generalizing d with
  | done a => exact Nat.le_refl _
  | ask c next ih =>
    refine Nat.le_trans ?_ (ih _ (d.serve x c).2)
    rw [Desk.serve, List.length_append]
    exact Nat.le_add_right _ _

/-- An action comes to the same if it meets the same. -/
theorem run_of_agree {α : Type} {p : Operation.Action α} {d : Desk}
    (agree : ∀ n < (p.run (Desk.serve x) d).2.calls.length, Agree x x' n) :
    p.run (Desk.serve x') d = p.run (Desk.serve x) d := by
  induction p generalizing d with
  | done a => rfl
  | ask c next ih =>
    have hlength : d.calls.length < (d.serve x c).2.calls.length := by
      rw [Desk.serve, List.length_append]
      exact Nat.lt_add_one _
    -- the first call falls within those for which the circumstances agree
    have hagree := agree d.calls.length (Nat.lt_of_lt_of_le hlength (calls_le_run (next (d.serve x c).1) _))
    have hserve : d.serve x' c = d.serve x c := by
      rw [Desk.serve, Desk.serve, hagree.fault, hagree.now, hagree.id]
    rw [Program.run_ask hserve]
    exact ih _ agree

/-- What a sweep reports as finalized, and the store that it leaves, are settled with its opening. -/
theorem Course.settled {s : Store} {k : Clerk} {z : SweepReport × Round} (h : Course x y s k z) :
    z.2.desk.store = (opening x s).2.store ∧ z.1.finalized = (opening x s).1.toOption.getD [] := by
  cases h with
  | idle opened calls nothing =>
    rename_i reply begun store
    rw [opened]
    refine ⟨rfl, ?_⟩
    cases reply with
    | ok cs => exact (nothing cs rfl).symm
    | error e => rfl
  | busy opened =>
    rw [opened]
    exact ⟨rfl, rfl⟩

/-- A report is what was finalized and what was published. -/
theorem report_eq {a b : SweepReport} (finalized : a.finalized = b.finalized)
    (published : a.published = b.published) : a = b := by
  cases a
  cases b
  cases finalized
  cases published
  rfl

/-- **A sweep is faithful under any faults.** Whatever store a run from a seed leads to, whatever the clock shows
and whichever calls to the store, looks at the link and attempts to send fail, a sweep reports the rooms that its
batch finalized, in ascending order, reads the views of just these rooms, publishes each view that it obtained
once in this order, and reports as published the rooms whose view got through on every topic. No failure of a room
keeps another from being read, and a view is delivered or held. Two sweeps that meet the same until they read, of
which one reads the rooms together and the other one by one, all at one instant, come to the same. -/
theorem once_faithful (seed : Seed) (commands : List Command) (y : Publish.Fortune) (k : Clerk) :
    let s := (Store.ofSeed seed).after commands
    let z := fun x => sweep x y s k
    (∀ x, Faithful x y k (z x)) ∧
    ∀ x x' now,
      (∀ n < (opening x s).2.calls.length, Agree x x' n) →
      (z x).2.Undisturbed now → (z x').2.Undisturbed now →
        (z x').1 = (z x).1 ∧ (z x').2.obtained = (z x).2.obtained ∧ (z x').2.clerk = (z x).2.clerk := by
  intro s z
  have faithful : ∀ x, Faithful x y k (z x) := fun x => (course_sweep x y s k).faithful
    (Store.wellFormed_after seed commands) (Store.filed_after seed commands)
  refine ⟨faithful, fun x x' now agree undisturbed undisturbed' => ?_⟩
  -- the batch comes out alike, and so do the store and the rooms
  have hopening : opening x' s = opening x s := run_of_agree agree
  obtain ⟨hstore, hfinalized⟩ := (course_sweep x y s k).settled
  obtain ⟨hstore', hfinalized'⟩ := (course_sweep x' y s k).settled
  rw [hopening, ← hstore] at hstore'
  rw [hopening, ← hfinalized] at hfinalized'
  -- undisturbed readings are the views of that store, read together
  have hobtained : (z x').2.obtained = (z x).2.obtained := by
    have hviews := (faithful x').agrees now undisturbed'
    rw [hstore', hfinalized', (faithful x).agrees now undisturbed] at hviews
    exact (Except.ok.inj hviews).symm
  have hsteps : (z x').2.steps = (z x).2.steps := congrArg (List.map Publish.Step.publish) hobtained
  have hpublished : (z x').1.published = (z x).1.published := by
    rw [(faithful x').published, (faithful x).published, hsteps]
  refine ⟨report_eq hfinalized' hpublished, hobtained, ?_⟩
  rw [(faithful x').clerk, (faithful x).clerk, hsteps]

/-! ### An outage -/

/-- Two rooms. -/
def harbour : Seed :=
  ⟨[⟨1, 1, "Harbour", .active, none⟩, ⟨2, 1, "Garden", .active, none⟩], []⟩

/-- The two rooms are let for a minute. -/
def letBoth : List Command :=
  [.assign ⟨1⟩ 1 none 60 .epoch, .assign ⟨2⟩ 2 none 60 .epoch]

/-- The store fails at one of its calls. -/
def failsAt (n : Nat) : Circumstances where
  now _ := .last
  id _ := ⟨3⟩
  fault m := if m = n then some (.internal "connection reset") else none
  health := ⟨.up, 0, 0⟩

/-- The sweep after the minute. Every view is delivered. -/
def harbourSweep (n : Nat) : SweepReport × Round :=
  sweep (failsAt n) ⟨fun _ => true, fun _ => .ok ()⟩ ((Store.ofSeed harbour).after letBoth) {}

/-- The fourth call is the reading of both views. When it fails the views are read one by one and published as they
are without a failure. -/
theorem once_faithful_outage :
    (harbourSweep 9).2.readings.length = 0 ∧ (harbourSweep 3).2.readings.length = 2 ∧
      (harbourSweep 3).1 = ⟨[1, 2], [1, 2]⟩ ∧ (harbourSweep 3).1 = (harbourSweep 9).1 ∧
      (harbourSweep 3).2.obtained = (harbourSweep 9).2.obtained := by
  have agree : ∀ n < (opening (failsAt 9) ((Store.ofSeed harbour).after letBoth)).2.calls.length,
      Agree (failsAt 9) (failsAt 3) n := by
    have hlength : (opening (failsAt 9) ((Store.ofSeed harbour).after letBoth)).2.calls.length = 2 := by cbv
    -- the fault is in the third call, which is after the batch
    intro n hn
    have hfault : (failsAt 3).fault n = (failsAt 9).fault n :=
      (if_neg (by omega)).trans (if_neg (by omega)).symm
    exact ⟨hfault, rfl, rfl⟩
  have calm : (harbourSweep 9).2.Undisturbed .last := Round.undisturbed_of_all (by cbv) (by cbv)
  have outage : (harbourSweep 3).2.Undisturbed .last := Round.undisturbed_of_all (by cbv) (by cbv)
  obtain ⟨hreport, hobtained, -⟩ :=
    (once_faithful harbour letBoth ⟨fun _ => true, fun _ => .ok ()⟩ {}).2 _ _ _ agree calm outage
  exact ⟨by cbv, by cbv, by cbv, hreport, hobtained⟩

end Sweep

end Occupancy
