import Occupancy.Proofs.Postgres.Mirror

/-!
# The stores agree on readings

A view on the tables is that in memory, under another number, and no view fails for its billed time. A request
for several views is answered in the order of the request in memory, but by number of the room on the tables.
Main statements: `agrees_view` and `agrees_views`.
-/

namespace Occupancy

open Postgres (Held Renamed)

/-! ## Views of alike sessions -/

/-- The billed time of an open session is within range: its pauses began after its start. -/
theorem Session.Kept.exists_billed {s : Session} {now : Instant} (h : s.Kept) (wf : s.WellFormed)
    (started : s.startedAt ≤ now) : ∃ billed, s.elapsedBillable? now = some billed := by
  -- the billing clock never stops before the start
  have hclock : s.startedAt ≤ s.billingInstant now := by
    unfold billingInstant
    split
    · rename_i pausedAt _ hpaused
      unfold Instant.earlier
      split
      · exact (h.pausedAt pausedAt hpaused).2
      · exact started
    · exact started
  have hclock' := Instant.le_iff.mp hclock
  have hlength := Instant.nanos_sub (s.billingInstant now) s.startedAt
  have hrange := (s.billingInstant now - s.startedAt).inRange
  have hpause := wf.pause_nonneg
  have hpauses := s.accumulatedPause.inRange
  obtain ⟨billed, hbilled⟩ := Span.exists_sub? (a := s.billingInstant now - s.startedAt)
    (b := s.accumulatedPause) (by omega) (by omega)
  exact ⟨billed.clampNonneg, by rw [elapsedBillable?, hbilled, Option.map_some]⟩

namespace RoomView

variable {R : SessionId → SessionId → Prop} {now : Instant}

/-- A view is that of its room. -/
theorem room_of_project? {room : Room} {device : Option Device} {session : Option Session} {v : RoomView}
    (h : project? room device session now = some v) : v.room = room.id := by
  unfold project? at h
  split at h
  · cases h
    rfl
  · obtain ⟨elapsed, -, rfl⟩ := Option.map_eq_some_iff.mp h
    rfl

/-- Alike open sessions have alike views. -/
theorem renamed_project? (room : Room) (device : Option Device) {session session' : Option Session}
    (h : Option.Rel (Session.Alike R) (session.filter (·.status.isOpen)) session')
    (billed : ∀ x, session.filter (·.status.isOpen) = some x → ∃ b, x.elapsedBillable? now = some b) :
    ∃ v v', project? room device session now = some v ∧ project? room device session' now = some v' ∧
      Renamed R v v' := by
  unfold project?
  cases hopen : session.filter (·.status.isOpen) with
  -- no open session on either side
  | none =>
    rw [hopen] at h
    cases h
    exact ⟨_, _, rfl, rfl, .idle rfl⟩
  | some x =>
    rw [hopen] at h
    cases h with
    | some alike =>
      -- the two differ in nothing that a view shows but the identifier
      cases alike with
      | @mk id related =>
        have isOpen : (x.withId id).status.isOpen = true := (Option.filter_eq_some_iff.mp hopen).2
        obtain ⟨b, hb⟩ := billed x hopen
        have hb' : (x.withId id).elapsedBillable? now = some b := hb
        have hfilter : (some (x.withId id)).filter (·.status.isOpen) = some (x.withId id) := by
          rw [Option.filter_some, if_pos isOpen]
        rw [hfilter]
        dsimp only
        rw [hb, hb']
        exact ⟨_, _, rfl, rfl, @Renamed.occupied R _ x.view id rfl related⟩

end RoomView

/-! ## Several views in memory -/

namespace Store

variable {s : Store} {now : Instant}

/-- Where no view is out of range, a list shows the rooms that are there. -/
theorem exists_views (served : ∀ room, s.view room now ≠ .error .overflow) (rooms : List RoomId) :
    ∃ vs, s.views rooms now = .ok vs ∧ ∀ v, v ∈ vs ↔ ∃ room ∈ rooms, s.view room now = .ok v := by
  induction rooms with
  | nil => exact ⟨[], rfl, by simp⟩
  | cons room rest ih =>
    obtain ⟨vs, hvs, hmem⟩ := ih
    cases hview : s.view room now with
    | ok v =>
      refine ⟨v :: vs, by simp only [views, hview, hvs, Except.map], fun w => ?_⟩
      rw [List.mem_cons, hmem, List.exists_mem_cons_iff, hview, Except.ok.injEq, eq_comm]
    | error e =>
      -- a room without a view is left out
      have hskip : s.views (room :: rest) now = s.views rest now := by
        cases e with
        | refused e => simp only [views, hview]
        | overflow => exact absurd hview (served room)
      refine ⟨vs, hskip.trans hvs, fun w => ?_⟩
      rw [hmem, List.exists_mem_cons_iff, hview]
      simp

end Store

namespace Postgres

variable {R : SessionId → SessionId → Prop} {s : Store} {t : Tables} {choice : Choice} {now : Instant}

/-! ## One room -/

namespace Tables

/-- What the query for views answers about a room. -/
def described (t : Tables) (choice : Choice) (room : Room) : Row :=
  Row.ofRoom room (room.device.bind t.device?) (choice.latest (t.opened room.id))

/-- What is answered about a room is read as a view of it. -/
structure Reads (t : Tables) (choice : Choice) (now : Instant) (room : Room) (v : RoomView) : Prop where
  view : (t.described choice room).view now = .ok v
  named : v.room = room.id

end Tables

/-- A room as the stores show it: it is unknown to both, or both have a view of it. -/
inductive Shown (R : SessionId → SessionId → Prop) (s : Store) (t : Tables) (choice : Choice)
    (now : Instant) (room : RoomId) : Prop where
  | unknown (absent : s.view room now = .error (.refused (.noRoom room))) (absent' : t.room? room = none)
  | known {found : Room} {v v' : RoomView} (inMemory : s.view room now = .ok v)
      (onTables : t.room? room = some found) (reads : t.Reads choice now found v') (alike : Renamed R v v')

theorem room_of_renamed {v v' : RoomView} (h : Renamed R v v') : v'.room = v.room := by
  cases h <;> rfl

theorem id_of_room? {room : RoomId} {found : Room} (h : t.room? room = some found) : found.id = room := by
  simpa using List.find?_some h

namespace Mirrors

/-- The stores show the same of a room. -/
theorem shown (h : Mirrors R s t) (choice : Choice) (wf : s.EachRecord RoomRecord.WellFormed)
    {before : Instant} (timed : s.Timed before) (hle : before ≤ now) (room : RoomId) :
    Shown R s t choice now room := by
  have hroom := h.rooms room
  cases hr : s.rooms.get? room with
  -- neither side knows the room
  | none =>
    rw [hr] at hroom
    exact .unknown (by simp only [Store.view, hr]) hroom
  | some r =>
    rw [hr, Option.map_some] at hroom
    have hid : r.room.id = room := id_of_room? hroom
    have hlinked : s.linkedDevice? r.room = r.room.device.bind t.device? := by
      rw [Store.linkedDevice?, show t.device? = s.device? from funext h.devices]
    -- an open session can be billed, so that the view in memory does not fail
    have billed : ∀ x, r.open? = some x → ∃ b, x.elapsedBillable? now = some b := by
      intro x hx
      have hmem := r.mem_of_current? (Option.filter_eq_some_iff.mp hx).1
      have htimed := ((timed room r hr).mono hle).sessions x hmem
      exact htimed.kept.exists_billed ((wf room r hr).rows x hmem).2 htimed.started
    have hopened := h.latest_opened choice hr (wf room r hr)
    obtain ⟨v, v', hv, hv', alike⟩ :=
      RoomView.renamed_project? r.room (s.linkedDevice? r.room) hopened billed
    have hdevice : ∀ d, r.room.device.bind t.device? = some d → r.room.device = some d.id := by
      intro d hd
      obtain ⟨device, hdevice, hfound⟩ := Option.bind_eq_some_iff.mp hd
      have hname : d.id = device := by simpa using List.find?_some hfound
      rw [hdevice, hname]
    -- and what the query finds for the room can be read
    have hsession : ∀ y, choice.latest (t.opened r.room.id) = some y →
        y.room = r.room.id ∧ 1000000 ∣ y.accumulatedPause.nanos := by
      intro y hy
      obtain ⟨hhistory, -⟩ := List.mem_filter.mp (choice.mem_of_latest _ y hy)
      obtain ⟨hrow, hname⟩ := List.mem_filter.mp hhistory
      exact ⟨of_decide_eq_true hname, (h.kept timed hrow).accumulatedPause⟩
    have hread : (t.described choice r.room).view now = .ok v' := by
      rw [Tables.described, Row.view_ofRoom hdevice hsession, ← hlinked, hid, hv']
    have hview : s.view room now = .ok v := by simp only [Store.view, hr, hv]
    exact .known hview hroom ⟨hread, RoomView.room_of_project? hv'⟩ alike

/-- A row of rooms is read as a view that is like the one in memory. -/
theorem reads (h : Mirrors R s t) (shown : ∀ room, Shown R s t choice now room) {found : Room}
    (hfound : found ∈ t.rooms) :
    ∃ v v', s.view found.id now = .ok v ∧ t.Reads choice now found v' ∧ Renamed R v v' := by
  have hroom := h.room?_of_mem hfound
  cases shown found.id with
  | unknown absent absent' => cases hroom.symm.trans absent'
  | known inMemory onTables reads alike =>
    cases hroom.symm.trans onTables
    exact ⟨_, _, inMemory, reads, alike⟩

/-! ## Several rooms -/

/-- The number of a single room is looked up. -/
theorem listed_singleton (h : Mirrors R s t) (room : RoomId) : t.listed [room] = (t.room? room).toList := by
  have hone : t.rooms.filter (·.id ∈ [room]) = (t.room? room).toList := by
    rw [← h.filter_room]
    simp only [List.mem_singleton]
  rw [Tables.listed, hone]
  cases t.room? room <;> simp

/-- The rooms of a list come in ascending order. -/
theorem pairwise_listed (h : Mirrors R s t) (rooms : List RoomId) :
    (t.listed rooms).Pairwise (·.id.toInt < ·.id.toInt) := by
  have hids : t.rooms.Pairwise fun a b => a.id ≠ b.id := List.pairwise_map.mp h.roomIds
  exact ascending_mergeSort ((hids.filter _).imp fun hne heq => hne (Int64.toInt_inj.mp heq))

theorem exists_reads (h : Mirrors R s t) (shown : ∀ room, Shown R s t choice now room) (rooms : List RoomId) :
    ∃ vs, List.Forall₂ (t.Reads choice now) (t.listed rooms) vs := by
  refine exists_forall₂ fun found hfound => ?_
  obtain ⟨-, v, -, hv, -⟩ := h.reads shown (Tables.mem_listed.mp hfound).1
  exact ⟨v, hv⟩

/-- The views of a list in memory, taken by the number of the room, are those on the tables. -/
theorem byRoom_alike (h : Mirrors R s t) (shown : ∀ room, Shown R s t choice now room) {rooms : List RoomId}
    {vs vs' : List RoomView} (hvs : ∀ v, v ∈ vs ↔ ∃ room ∈ rooms, s.view room now = .ok v)
    (hvs' : List.Forall₂ (t.Reads choice now) (t.listed rooms) vs') :
    List.Forall₂ (Renamed R) (byRoom vs) vs' := by
  have viewed : ∀ v ∈ vs, s.view v.room now = .ok v := by
    intro v hv
    obtain ⟨room, -, hview⟩ := (hvs v).mp hv
    cases shown room with
    | unknown absent _ => cases absent.symm.trans hview
    | known inMemory onTables reads alike =>
      cases inMemory.symm.trans hview
      rwa [← room_of_renamed alike, reads.named, id_of_room? onTables]
  have ascending : (byRoom vs).Pairwise (·.room.toInt < ·.room.toInt) := by
    -- a room has one view
    refine ascending_mergeSort ((List.nodup_dedup vs).imp_of_mem fun {v w} hv hw hne hsame => hne ?_)
    have hview := viewed v (List.mem_dedup.mp hv)
    rw [Int64.toInt_inj.mp hsame] at hview
    exact Except.ok.inj (hview.symm.trans (viewed w (List.mem_dedup.mp hw)))
  have ascending' : vs'.Pairwise (·.room.toInt < ·.room.toInt) := by
    -- the rows are listed by the number of the room
    have hrooms : vs'.map (·.room.toInt) = (t.listed rooms).map (·.id.toInt) :=
      map_eq_of_forall₂ hvs' fun found v reads => congrArg Int64.toInt reads.named
    have hlisted := List.pairwise_map.mpr (h.pairwise_listed rooms)
    rw [← hrooms] at hlisted
    exact List.pairwise_map.mp hlisted
  refine forall₂_of_ascending (fun v v' alike => by rw [room_of_renamed alike]) ascending ascending' ?_ ?_
  · -- the room of a view in memory is listed
    intro v hv
    have hv : v ∈ vs := List.mem_dedup.mp (List.mem_mergeSort.mp hv)
    obtain ⟨room, hroom, hview⟩ := (hvs v).mp hv
    cases shown room with
    | unknown absent _ => cases absent.symm.trans hview
    | known inMemory onTables reads alike =>
      cases inMemory.symm.trans hview
      rw [← id_of_room? onTables] at hroom
      obtain ⟨w, hw, reads'⟩ := exists_of_forall₂ hvs'.flip
        (Tables.mem_listed.mpr ⟨List.mem_of_find?_eq_some onTables, hroom⟩)
      have same := Except.ok.inj (reads'.view.symm.trans reads.view)
      exact ⟨w, hw, by rwa [same]⟩
  · -- a listed room has a view in memory
    intro v' hv'
    obtain ⟨found, hfound, reads'⟩ := exists_of_forall₂ hvs' hv'
    obtain ⟨hmem, hroom⟩ := Tables.mem_listed.mp hfound
    obtain ⟨v, w, hview, reads, alike⟩ := h.reads shown hmem
    have same := Except.ok.inj (reads'.view.symm.trans reads.view)
    rw [← same] at alike
    have hv : v ∈ vs := (hvs v).mpr ⟨found.id, hroom, hview⟩
    exact ⟨v, List.mem_mergeSort.mpr (List.mem_dedup.mpr hv), alike⟩

end Mirrors

/-! ## Readings -/

/-- Rooms that are read one after another are answered in this order. -/
theorem run_views {rooms : List RoomId} {vs : List RoomView}
    (h : List.Forall₂ (t.Reads choice now) (t.listed rooms) vs) :
    Database.run choice (Postgres.views rooms now) ⟨t, none⟩ = (.ok vs, ⟨t, none⟩) := by
  have hexec : t.exec choice (.views rooms) =
      .ok (Tables.answered ((t.listed rooms).map (t.described choice)), t) := rfl
  have hread : ((t.listed rooms).map (t.described choice)).mapM (Row.view · now) = .ok vs :=
    mapM_of_forall₂ (List.forall₂_map_left_iff.mpr (h.imp fun _ _ reads => reads.view))
  rw [Postgres.views, Database.run_execute_bind, hexec]
  simp only [Database.run_given, Tables.answered, hread]

/-- A single room is answered with the first view, if there is one. -/
theorem run_view {room : RoomId} {vs : List RoomView}
    (h : List.Forall₂ (t.Reads choice now) (t.listed [room]) vs) :
    Database.run choice (Postgres.view room now) ⟨t, none⟩ =
      match vs with
      | v :: _ => (.ok v, ⟨t, none⟩)
      | [] => (.error (.refused (.noRoom room)), ⟨t, none⟩) := by
  rw [Postgres.view, Database.run_bind, run_views h]
  cases vs <;> rfl

section

variable (choice : Choice) (h : Mirrors R s t) (wf : s.EachRecord RoomRecord.WellFormed) {before : Instant}
  (timed : s.Timed before) (hle : before ≤ now) (id id' : SessionId)

include h wf timed hle

/-- The stores agree on the view of a room. -/
theorem agrees_view (room : RoomId) :
    let request := Request.view room
    Agrees R (¬ FailsTwice s now request) (request.inMemory id now s) (request.onTables choice id' now t) := by
  intro request
  have hlisted := h.listed_singleton room
  simp only [request, Request.inMemory, Request.onTables]
  -- known to both or to neither
  cases h.shown choice wf timed hle room with
  | unknown absent absent' =>
    rw [absent', Option.toList_none] at hlisted
    have hread : List.Forall₂ (t.Reads choice now) (t.listed [room]) [] := by
      rw [hlisted]
      exact .nil
    rw [absent, performed_of_run (run_view hread)]
    exact ⟨fun _ => h, fun _ => .error _⟩
  | @known found v v' inMemory onTables reads alike =>
    rw [onTables, Option.toList_some] at hlisted
    have hread : List.Forall₂ (t.Reads choice now) (t.listed [room]) [v'] := by
      rw [hlisted]
      exact .cons reads .nil
    rw [inMemory, performed_of_run (run_view hread)]
    exact ⟨fun _ => h, fun _ => .ok (.shown alike)⟩

/-- The stores agree on the views of several rooms, up to their order. -/
theorem agrees_views (rooms : List RoomId) :
    let request := Request.views rooms
    Agrees R (¬ FailsTwice s now request) (request.inMemory id now s) (request.onTables choice id' now t) := by
  intro request
  have shown := h.shown choice wf timed hle
  -- every room that is known has a view
  have served : ∀ room, s.view room now ≠ .error .overflow := by
    intro room hoverflow
    cases shown room with
    | unknown absent _ => cases absent.symm.trans hoverflow
    | known inMemory _ _ _ => cases inMemory.symm.trans hoverflow
  obtain ⟨vs, hvs, hmem⟩ := Store.exists_views served rooms
  obtain ⟨vs', hvs'⟩ := h.exists_reads shown rooms
  simp only [request, Request.inMemory, Request.onTables]
  rw [hvs, performed_of_run (run_views hvs')]
  exact ⟨fun _ => h, fun _ => .ok (.listed (h.byRoom_alike shown hmem hvs'))⟩

end

end Postgres

end Occupancy
