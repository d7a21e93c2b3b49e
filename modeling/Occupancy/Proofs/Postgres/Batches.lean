import Occupancy.Proofs.Operation.Effects
import Occupancy.Proofs.Postgres.Mirror

/-!
# The stores agree on batches

A batch finalizes the same sessions on the tables as in memory, although it sets fewer columns there, and lists
them in the same order. Main statement: `agrees_finalizeExpired`.
-/

namespace Occupancy.Postgres

variable {R : SessionId → SessionId → Prop} {s : Store} {t : Tables} {now : Instant}

/-! ## Finalizing a batch -/

/-- A session in use has no pause to account for, so that finalizing it sets the two columns of a batch. -/
theorem close_of_running {x : Session} (hx : x.WellFormed) (running : x.status = .inUse) :
    x.close .finalized now = Tables.finalizing now x := by
  have unpaused : x.pausedAt = none := hx.unpaused (by simp [running])
  have hsum : x.accumulatedPause.saturatingAdd .zero = x.accumulatedPause :=
    Span.saturatingAdd_of_add? (Span.add?_eq_some_iff.mpr (Int.add_zero _).symm)
  simp only [Session.close, Session.pauseSoFar, unpaused, hsum, Tables.finalizing]

/-- A session has expired if its row is due, and is finalized as the row is. -/
theorem expire?_of_alike {x y : Session} (alike : x.Alike R y) (hx : x.WellFormed) :
    x.expire? now = if Tables.due now y then some (Tables.finalizing now x) else none := by
  cases alike with
  | @mk id related =>
    rw [show Tables.due now (x.withId id) = x.isExpired now from rfl, Session.expire?]
    split
    · rename_i expired
      rw [close_of_running hx (Session.isExpired_iff.mp expired).1]
    · rfl

theorem finalizing_alike {x y : Session} (alike : x.Alike R y) :
    (Tables.finalizing now x).Alike R (Tables.finalizing now y) := by
  cases alike with
  | mk related => exact .mk related

/-- A batch does to a row what it does to its session. -/
theorem settled_alike {x y : Session} (alike : x.Alike R y) (hx : x.WellFormed) :
    (x.settled now).Alike R (if Tables.due now y then Tables.finalizing now y else y) := by
  rw [Session.settled, expire?_of_alike alike hx]
  split
  · exact finalizing_alike alike
  · exact alike

/-- The rows after a batch hold the sessions after a batch. -/
theorem Rows.settle {rows : List Session} (h : Rows R s rows) (wf : s.EachRecord RoomRecord.WellFormed) :
    Rows R (s.finalizeExpired now).2
      (rows.map fun y => if Tables.due now y then Tables.finalizing now y else y) := by
  refine h.change (fun y => by split <;> rfl) (fun y => by split <;> rfl) fun room => ?_
  have hroom := h.ofRoom room
  cases hr : s.rooms.get? room with
  | none =>
    have hnone : (s.finalizeExpired now).2.rooms.get? room = none := by
      rw [Store.get?_finalizeExpired, hr]
      rfl
    rw [history_of_none hr, List.forall₂_nil_left_iff] at hroom
    rw [history_of_none hnone, hroom]
    exact .nil
  -- row by row: what is due is settled on both sides
  | some r =>
    have hsome : (s.finalizeExpired now).2.rooms.get? room = some (r.settle now) := by
      rw [Store.get?_finalizeExpired, hr]
      rfl
    rw [history_of_get? hr] at hroom
    rw [history_of_get? hsome, (wf room r hr).history_settle, List.forall₂_map_left_iff,
      List.forall₂_map_right_iff]
    have hwf : ∀ x ∈ r.history, x.WellFormed := fun x hx => ((wf room r hr).rows x hx).2
    exact ((List.forall₂_and_left _ _).mpr ⟨hwf, hroom⟩).imp fun x y ⟨hx, alike⟩ => settled_alike alike hx

/-! ## What a batch lists -/

/-- What the batch commits are the rows that are due, with the device of their room. -/
theorem mem_batch_iff {c : Commit} :
    c ∈ t.batch now ↔ ∃ y ∈ t.sessions, Tables.due now y = true ∧
      ∃ room ∈ t.rooms, room.id = y.room ∧ c = ⟨Tables.finalizing now y, room.device⟩ := by
  simp only [Tables.batch, List.mem_mergeSort, List.mem_flatMap, List.mem_map, List.mem_filter,
    decide_eq_true_eq]
  constructor
  · rintro ⟨_, ⟨y, ⟨hy, hdue⟩, rfl⟩, room, ⟨hroom, hid⟩, rfl⟩
    exact ⟨y, hy, hdue, room, hroom, hid, rfl⟩
  · rintro ⟨y, hy, hdue, room, hroom, hid, rfl⟩
    exact ⟨_, ⟨y, ⟨hy, hdue⟩, rfl⟩, room, ⟨hroom, hid⟩, rfl⟩

/-- A batch on the tables lists rooms in ascending order, each once: not two of its sessions were open in one
room. -/
theorem Mirrors.pairwise_batch (h : Mirrors R s t) (wf : s.EachRecord RoomRecord.WellFormed) :
    (t.batch now).Pairwise (·.session.room.toInt < ·.session.room.toInt) := by
  refine ascending_mergeSort (List.pairwise_flatMap.mpr ⟨?_, ?_⟩)
  · intro y hy
    rw [h.filter_room]
    -- a row has one room
    cases t.room? y.room <;> simp
  · rw [List.pairwise_map]
    have hopen : ∀ {y : Session}, Tables.due now y = true → y.status.isOpen = true := by
      intro y hy
      simp only [Tables.due, Bool.and_eq_true, decide_eq_true_eq] at hy
      rw [hy.1]
      rfl
    -- two rows that are due are of two rooms, since no room has two open sessions
    refine (List.Pairwise.filter _ (h.rows.apart wf)).imp_of_mem fun {a b} ha hb hapart => ?_
    rintro c hc c' hc' heq
    obtain ⟨_, -, rfl⟩ := List.mem_map.mp hc
    obtain ⟨_, -, rfl⟩ := List.mem_map.mp hc'
    exact hapart.2 ⟨hopen (List.mem_filter.mp ha).2, hopen (List.mem_filter.mp hb).2,
      Int64.toInt_inj.mp heq⟩

/-- The stores list the same sessions in a batch. -/
theorem Mirrors.batch_alike (h : Mirrors R s t) (wf : s.EachRecord RoomRecord.WellFormed) :
    List.Forall₂ (Commit.Alike R) (s.finalizeExpired now).1 (t.batch now) := by
  have ascending := Store.pairwise_rooms_finalizeExpired wf now
  rw [Commit.rooms, List.pairwise_map] at ascending
  refine forall₂_of_ascending (fun c c' alike => ?_) ascending (h.pairwise_batch wf) ?_ ?_
  · obtain ⟨alike⟩ := alike
    rw [room_of_alike alike]
  · -- the session of a room that has expired has its row
    intro c hc
    obtain ⟨r, hr, hexpired, hdevice⟩ := (Store.mem_finalizeExpired_iff wf).mp hc
    obtain ⟨x, hcurrent, hexpire⟩ := Option.bind_eq_some_iff.mp hexpired
    have hx := r.mem_of_current? hcurrent
    obtain ⟨y, hy, alike⟩ := exists_of_forall₂ (h.history hr).flip hx
    obtain ⟨hroom, hwf⟩ := (wf _ r hr).rows x hx
    obtain ⟨hmem, hyroom⟩ := List.mem_filter.mp hy
    have hfound : t.room? c.session.room = some r.room := by
      rw [h.rooms, hr]
      rfl
    rw [expire?_of_alike alike hwf] at hexpire
    split at hexpire
    · rename_i hdue
      obtain ⟨session, device⟩ := c
      obtain rfl : Tables.finalizing now x = session := Option.some.inj hexpire
      obtain rfl : device = r.room.device := hdevice
      refine ⟨⟨Tables.finalizing now y, r.room.device⟩, mem_batch_iff.mpr ⟨y, hmem, hdue, r.room,
        List.mem_of_find?_eq_some hfound, ?_, rfl⟩, .mk (finalizing_alike alike)⟩
      have hid : r.room.id = (Tables.finalizing now x).room := by simpa using List.find?_some hfound
      exact hid.trans (room_of_alike alike).symm
    · cases hexpire
  · -- a row that is due is that of the most recent session of its room
    intro c' hc'
    obtain ⟨y, hy, hdue, room, hroom, hid, rfl⟩ := mem_batch_iff.mp hc'
    obtain ⟨r, hr, x, hx, alike⟩ := h.rows.exists_session hy
    have hwf := (wf _ r hr).rows x hx
    have hexpire : x.expire? now = some (Tables.finalizing now x) := by
      rw [expire?_of_alike alike hwf.2, if_pos hdue]
    have hcurrent : r.current? = some x := by
      refine (RoomRecord.mem_history_cases hx).resolve_left fun inner => ?_
      have hended := SessionStatus.isTerminal_eq_true_iff.mp ((wf _ r hr).ended x inner)
      simp [(Session.move_of_expire? hexpire).isOpen] at hended
    have hrecord : r.room = room := by
      have hfound := h.room?_of_mem hroom
      rw [hid, h.rooms, hr] at hfound
      exact Option.some.inj hfound
    refine ⟨⟨Tables.finalizing now x, r.room.device⟩,
      (Store.mem_finalizeExpired_iff wf).mpr ⟨r, ?_, ?_, rfl⟩, ?_⟩
    · rw [← hr]
      exact congrArg _ (room_of_alike alike).symm
    · simp [RoomRecord.expired?, hcurrent, hexpire]
    · rw [← hrecord]
      exact .mk (finalizing_alike alike)

/-! ## A batch -/

/-- The statement of a batch leaves the rows that the store in memory has after it, and its rows are read as the
sessions of the batch. -/
theorem exec_finalizeExpired (choice : Choice) (h : Mirrors R s t) (wf : s.EachRecord RoomRecord.WellFormed)
    {before : Instant} (timed : s.Timed before) (hnow : Held now) :
    ∃ result t', t.exec choice (.finalizeExpired now) = .ok (result, t') ∧
      result.rows.mapM Row.commit = .ok (t.batch now) ∧ Mirrors R (s.finalizeExpired now).2 t' := by
  have hwf : (s.finalizeExpired now).2.EachRecord RoomRecord.WellFormed :=
    -- the batch is also a command of the store, which keeps rooms well-formed
    Store.wellFormed_execute wf (.finalizeExpired now)
  have hrows : Rows R (s.finalizeExpired now).2 _ := h.rows.settle wf
  have same : ∀ room, ((s.finalizeExpired now).2.rooms.get? room).map (·.room) =
      (s.rooms.get? room).map (·.room) := by
    intro room
    rw [Store.get?_finalizeExpired, Option.map_map]
    exact congrArg (Option.map · _) (funext fun r => r.settle_room now)
  -- rows that are kept are read back as the commits they are of
  have hread : ((t.batch now).map Row.ofCommit).mapM Row.commit = .ok (t.batch now) := by
    refine mapM_of_forall₂ (List.forall₂_map_left_iff.mpr (List.forall₂_same.mpr fun c hc => ?_))
    obtain ⟨y, hy, -, room, -, -, rfl⟩ := mem_batch_iff.mp hc
    exact Row.commit_ofCommit (h.kept timed hy).accumulatedPause
  have hexec : t.exec choice (.finalizeExpired now) =
      .ok (Tables.answered ((t.batch now).map Row.ofCommit), { t with
        sessions := t.sessions.map fun y => if Tables.due now y then Tables.finalizing now y else y }) := by
    simp only [Tables.exec, column_of_held hnow, bind, Except.bind, h.write hrows hwf same]
  exact ⟨_, _, hexec, hread, h.withSessions hrows same rfl⟩

/-- The stores agree on a batch. -/
theorem agrees_finalizeExpired (choice : Choice) (h : Mirrors R s t)
    (wf : s.EachRecord RoomRecord.WellFormed) {before : Instant} (timed : s.Timed before) (hnow : Held now)
    (id id' : SessionId) :
    let request := Request.finalizeExpired
    Agrees R (¬ FailsTwice s now request) (request.inMemory id now s) (request.onTables choice id' now t) := by
  intro request
  obtain ⟨result, t', hexec, hread, hmirror⟩ := exec_finalizeExpired choice h wf timed hnow
  have hrun : Database.run choice (Postgres.finalizeExpired now) ⟨t, none⟩ =
      (.ok (t.batch now), ⟨t', none⟩) := by
    rw [Postgres.finalizeExpired, Database.run_execute_bind]
    simp only [hexec, Database.run_given, hread]
  have htables : request.onTables choice id' now t = (.ok (.finalized (t.batch now)), t') :=
    performed_of_run hrun
  rw [htables]
  exact ⟨fun _ => hmirror, fun _ => .ok (.finalized (h.batch_alike wf))⟩

end Occupancy.Postgres
