import Occupancy.Proofs.Ascending
import Occupancy.Proofs.Store.Machine
import Occupancy.Proofs.Store.Permanence

/-!
# Batches of expired sessions

A batch settles each room by itself, so that the order in which it visits the rooms makes no difference, although
it changes the store as it goes on. What it lists is settled by the rooms whose session has expired, and after it
none is left. Main statements: `visited_foldl` for the visits of a batch, `history_finalizeExpired` for the rows,
and `finalizeExpired_exact`.
-/

namespace Occupancy

/-! ## Sessions and histories after a batch -/

namespace Session

def settled (now : Instant) (x : Session) : Session :=
  (x.expire? now).getD x

theorem settled_eq (now : Instant) (x : Session) :
    x.settled now =
      if x.status = .inUse ∧ x.scheduledEndAt ≤ now then x.close .finalized now else x := by
  simp only [settled, expire?, isExpired_iff]
  split <;> rfl

/-- A session in use that is left by a batch has not come to its end. -/
theorem not_due_settled {now : Instant} {x : Session} (running : (x.settled now).status = .inUse) :
    ¬ (x.settled now).scheduledEndAt ≤ now := by
  rw [settled_eq] at running ⊢
  split at running
  · cases running
  · rename_i undue
    rw [if_neg undue]
    exact fun due => undue ⟨running, due⟩

theorem apply_finalize {x : Session} (isOpen : x.status.isOpen = true) (now : Instant) :
    x.apply .finalize now = .ok (x.close .finalized now) := by
  unfold apply
  exact if_pos isOpen

end Session

namespace RoomRecord

variable {room : RoomId} {r : RoomRecord} {now : Instant}

/-- A batch settles every session of a record: those that have ended are left alone. -/
theorem WellFormed.history_settle (wf : r.WellFormed room) :
    (r.settle now).history = r.history.map (Session.settled now) := by
  cases hcurrent : r.current? with
  | none =>
    have hnil : r.history = [] := List.getLast?_eq_none_iff.mp hcurrent
    have hexpired : r.expired? now = none := by simp [RoomRecord.expired?, hcurrent]
    rw [settle_of_unexpired hexpired, hnil]
    rfl
  | some current =>
    -- the sessions before the last have ended, so settling leaves them
    have inner : r.history.dropLast.map (Session.settled now) = r.history.dropLast := by
      refine (List.map_congr_left fun a ha => ?_).trans (List.map_id _)
      have hended := SessionStatus.isTerminal_eq_true_iff.mp (wf.ended a ha)
      have unexpired : a.expire? now = none := by
        cases hexpire : a.expire? now with
        | none => rfl
        | some next => simp [(Session.move_of_expire? hexpire).isOpen] at hended
      rw [Session.settled, unexpired]
      rfl
    have hhistory := history_eq_of_current? hcurrent
    rw [hhistory, List.map_append, inner, List.map_singleton]
    have hexpired : r.expired? now = current.expire? now := by simp [RoomRecord.expired?, hcurrent]
    -- the last session settles as the record does
    cases hexpire : current.expire? now with
    | none =>
      rw [settle_of_unexpired (hexpired.trans hexpire), Session.settled, hexpire]
      exact hhistory
    | some next =>
      rw [settle_of_expired (hexpired.trans hexpire), Session.settled, hexpire]
      rfl

/-- A record whose session has expired is the one whose open session is in use and at its end. -/
theorem exists_expired?_iff :
    (∃ session, r.expired? now = some session) ↔
      ∃ session, r.open? = some session ∧ session.status = .inUse ∧ session.scheduledEndAt ≤ now := by
  constructor
  · rintro ⟨_, hexpired⟩
    obtain ⟨current, hcurrent, running, due, -⟩ := expired?_eq_some_iff.mp hexpired
    exact ⟨current, open?_eq_some_iff.mpr ⟨hcurrent, by rw [running]; rfl⟩, running, due⟩
  · rintro ⟨current, hopen, running, due⟩
    exact ⟨_, expired?_eq_some_iff.mpr ⟨current, (open?_eq_some_iff.mp hopen).1, running, due, rfl⟩⟩

end RoomRecord

namespace Store

variable {s : Store} {now : Instant} {room : RoomId}

/-! ## Visiting room by room -/

/-- What a batch lists of a room, if the room is there and its session has expired. -/
def due? (s : Store) (now : Instant) (room : RoomId) : Option Commit :=
  (s.rooms.get? room).bind fun record =>
    (record.expired? now).map fun session => ⟨session, record.room.device⟩

/-- A batch visits a room: it finalizes the session that has expired and notes the commit. -/
def visit (now : Instant) (state : List Commit × Store) (room : RoomId) : List Commit × Store :=
  match state.2.rooms.get? room with
  | none => state
  | some record =>
    match record.expired? now with
    | none => state
    | some session =>
      (state.1 ++ [⟨session, record.room.device⟩],
        { state.2 with rooms := state.2.rooms.set room (record.replaceCurrent session) })

/-- A batch that visits rooms in the given order, changing the store as it goes on, and then sorts the commits
by room. -/
def finalizeInOrder (s : Store) (now : Instant) (order : List RoomId) : List Commit × Store :=
  let (commits, s) := order.foldl (visit now) ([], s)
  (commits.mergeSort fun a b => a.session.room.toInt ≤ b.session.room.toInt, s)

theorem due?_congr {s' : Store} (h : s'.rooms.get? room = s.rooms.get? room) :
    s'.due? now room = s.due? now room := by
  rw [due?, due?, h]

/-- What visits to some rooms do: they note what was due there at first, settle the rooms, and leave everything
else. -/
structure Visited (now : Instant) (order : List RoomId) (state state' : List Commit × Store) : Prop where
  noted : state'.1 = state.1 ++ order.filterMap (state.2.due? now)
  settled : ∀ key ∈ order, state'.2.rooms.get? key = (state.2.rooms.get? key).map (·.settle now)
  others : ∀ key, key ∉ order → state'.2.rooms.get? key = state.2.rooms.get? key
  keys : state'.2.rooms.keys = state.2.rooms.keys
  devices : state.2.SameDevices state'.2

theorem visited_visit (now : Instant) (state : List Commit × Store) (room : RoomId) :
    Visited now [room] state (visit now state room) := by
  -- without anything due the room is as it would be settled
  have unchanged : visit now state room = state → state.2.due? now room = none →
      (state.2.rooms.get? room).map (·.settle now) = state.2.rooms.get? room →
      Visited now [room] state (visit now state room) := by
    intro hvisit hdue same
    rw [hvisit]
    refine ⟨by simp [hdue], fun key hkey => ?_, fun _ _ => rfl, rfl, rfl, rfl⟩
    rw [List.mem_singleton.mp hkey, same]
  cases found : state.2.rooms.get? room with
  | none => exact unchanged (by simp only [visit, found]) (by simp [due?, found]) (by rw [found]; rfl)
  | some record =>
    cases expired : record.expired? now with
    | none =>
      refine unchanged (by simp only [visit, found, expired]) (by simp [due?, found, expired]) ?_
      rw [found, Option.map_some, RoomRecord.settle_of_unexpired expired]
    | some session =>
      -- the room of the visit is settled, and every other is as it was
      have hvisit : visit now state room = (state.1 ++ [⟨session, record.room.device⟩],
          { state.2 with rooms := state.2.rooms.set room (record.replaceCurrent session) }) := by
        simp only [visit, found, expired]
      rw [hvisit]
      refine ⟨by simp [due?, found, expired], fun key hkey => ?_, fun key hkey => ?_,
        Table.keys_set_of_get? found _, rfl, rfl⟩
      · rw [List.mem_singleton.mp hkey, Table.get?_set, if_pos rfl, found, Option.map_some,
          RoomRecord.settle_of_expired expired]
      · rw [Table.get?_set, if_neg fun heq => hkey (List.mem_singleton.mpr heq)]

/-- Visits to different rooms do not meddle with each other. -/
theorem visited_foldl {order : List RoomId} (nodup : order.Nodup) (state : List Commit × Store) :
    Visited now order state (order.foldl (visit now) state) := by
  induction order generalizing state with
  | nil => exact ⟨(List.append_nil _).symm, fun _ hkey => (List.not_mem_nil hkey).elim, fun _ _ => rfl, rfl,
      rfl, rfl⟩
  | cons room rest ih =>
    obtain ⟨fresh, nodup⟩ := List.nodup_cons.mp nodup
    have first := visited_visit now state room
    have others := ih nodup (visit now state room)
    -- the rooms that are visited later are as they were at first
    have same : ∀ key ∈ rest, (visit now state room).2.rooms.get? key = state.2.rooms.get? key := by
      intro key hkey
      exact first.others key fun h => fresh (List.mem_singleton.mp h ▸ hkey)
    rw [List.foldl_cons]
    refine ⟨?_, fun key hkey => ?_, fun key hkey => ?_, others.keys.trans first.keys,
      others.devices.1.trans first.devices.1, others.devices.2.trans first.devices.2⟩
    · -- what is due later in the order is due from the start
      have hrest : rest.filterMap ((visit now state room).2.due? now) = rest.filterMap (state.2.due? now) :=
        List.filterMap_congr fun key hkey => due?_congr (same key hkey)
      rw [others.noted, first.noted, hrest, List.append_assoc, ← List.filterMap_append,
        List.singleton_append]
    · rcases List.mem_cons.mp hkey with rfl | hkey
      · rw [others.others key fresh, first.settled key List.mem_cons_self]
      · rw [others.settled key hkey, same key hkey]
    · rw [List.mem_cons, not_or] at hkey
      rw [others.others key hkey.2, first.others key fun h => hkey.1 (List.mem_singleton.mp h)]

/-! ## The batch as a whole -/

theorem eq_of_sameDevices {s' : Store} (rooms : s'.rooms = s.rooms) (same : s.SameDevices s') : s' = s := by
  obtain ⟨devices, toggles⟩ := same
  cases s
  cases s'
  simp only at rooms devices toggles
  rw [rooms, devices, toggles]

theorem values_due (s : Store) (now : Instant) :
    (s.rooms.values.filterMap fun record =>
      (record.expired? now).map fun session => Commit.mk session record.room.device) =
      s.rooms.keys.filterMap (s.due? now) := by
  rw [Table.values_eq_filterMap, List.filterMap_filterMap]
  rfl

/-- What is due in different rooms names different rooms. -/
theorem distinct_due (wf : s.EachRecord RoomRecord.WellFormed) {order : List RoomId} (nodup : order.Nodup) :
    (order.filterMap (s.due? now)).Pairwise (·.session.room.toInt ≠ ·.session.room.toInt) := by
  have names : ∀ {key c}, s.due? now key = some c → c.session.room = key := by
    intro key c hdue
    obtain ⟨r, found, hcommit⟩ := Option.bind_eq_some_iff.mp hdue
    obtain ⟨session, expired, rfl⟩ := Option.map_eq_some_iff.mp hcommit
    exact (wf key r found).room_of_expired? expired
  refine List.pairwise_filterMap.mpr (nodup.imp fun hne c hc c' hc' heq => hne ?_)
  rw [← names hc, ← names hc']
  exact Int64.toInt_inj.mp heq

/-- A batch lists rooms in ascending order, each once. -/
theorem pairwise_rooms_finalizeExpired (wf : s.EachRecord RoomRecord.WellFormed) (now : Instant) :
    (Commit.rooms (s.finalizeExpired now).1).Pairwise (·.toInt < ·.toInt) := by
  rw [Commit.rooms, List.pairwise_map]
  simp only [finalizeExpired, values_due]
  exact ascending_mergeSort (distinct_due wf s.rooms.distinct)

/-- In whatever order a batch visits the rooms, it comes to the same. -/
theorem finalizeInOrder_eq (wf : s.EachRecord RoomRecord.WellFormed) {order : List RoomId}
    (perm : order.Perm s.rooms.keys) : s.finalizeInOrder now order = s.finalizeExpired now := by
  have nodup : order.Nodup := perm.nodup_iff.mpr s.rooms.distinct
  have visited : Visited now order ([], s) (order.foldl (visit now) ([], s)) := visited_foldl nodup _
  -- the note is sorted by room, so the order of the visits does not show
  have hlisted : (s.finalizeInOrder now order).1 = (s.finalizeExpired now).1 := by
    simp only [finalizeInOrder, finalizeExpired, visited.noted, List.nil_append, values_due]
    exact mergeSort_eq_of_perm (perm.filterMap _) (distinct_due wf nodup)
  have htable : (order.foldl (visit now) ([], s)).2.rooms = (s.finalizeExpired now).2.rooms := by
    refine Table.ext_get? (visited.keys.trans (Table.keys_mapValues _ _).symm) fun key => ?_
    rw [get?_finalizeExpired]
    by_cases hkey : key ∈ order
    · exact visited.settled key hkey
    · -- a room that is not visited is not there
      have absent : s.rooms.get? key = none := by
        rw [perm.mem_iff, Table.mem_keys] at hkey
        exact Option.not_isSome_iff_eq_none.mp hkey
      rw [visited.others key hkey, absent]
      rfl
  exact Prod.ext hlisted (eq_of_sameDevices htable visited.devices)

/-- A batch that finds nothing expired lists nothing and changes nothing. -/
theorem finalizeExpired_of_unexpired (unexpired : s.EachRecord fun _ r => r.expired? now = none) :
    s.finalizeExpired now = ([], s) := by
  have hlisted : (s.rooms.values.filterMap fun record =>
      (record.expired? now).map fun session => Commit.mk session record.room.device) = [] := by
    refine List.filterMap_eq_nil_iff.mpr fun record hrecord => ?_
    obtain ⟨key, found⟩ := Table.mem_values_iff.mp hrecord
    rw [unexpired key record found]
    rfl
  -- no record moves, so the table is the same
  have htable : (s.finalizeExpired now).2.rooms = s.rooms := by
    refine Table.ext_get? (Table.keys_mapValues _ _) fun key => ?_
    rw [get?_finalizeExpired]
    cases found : s.rooms.get? key with
    | none => rfl
    | some r => rw [Option.map_some, RoomRecord.settle_of_unexpired (unexpired key r found)]
  refine Prod.ext ?_ (eq_of_sameDevices htable ⟨rfl, rfl⟩)
  simp only [finalizeExpired, hlisted, List.mergeSort_nil]

/-- A batch settles every row. -/
theorem history_finalizeExpired (wf : s.EachRecord RoomRecord.WellFormed) (now : Instant) (room : RoomId) :
    (s.finalizeExpired now).2.history room = (s.history room).map (Session.settled now) := by
  rw [history, history, get?_finalizeExpired]
  cases found : s.rooms.get? room with
  | none => rfl
  | some r => exact (wf room r found).history_settle

/-- The open session of a room is in use, and its scheduled end has come. -/
def Due (s : Store) (now : Instant) (room : RoomId) : Prop :=
  ∃ r session, s.rooms.get? room = some r ∧ r.open? = some session ∧ session.status = .inUse ∧
    session.scheduledEndAt ≤ now

/-- A batch lists the rooms that are due. -/
theorem mem_rooms_finalizeExpired_iff (wf : s.EachRecord RoomRecord.WellFormed) (now : Instant)
    (room : RoomId) : room ∈ Commit.rooms (s.finalizeExpired now).1 ↔ s.Due now room := by
  rw [mem_rooms_finalizeExpired wf]
  constructor
  · rintro ⟨r, session, found, expired⟩
    obtain ⟨current, hdue⟩ := RoomRecord.exists_expired?_iff.mp ⟨session, expired⟩
    exact ⟨r, current, found, hdue⟩
  · rintro ⟨r, current, found, hdue⟩
    obtain ⟨session, expired⟩ := RoomRecord.exists_expired?_iff.mpr ⟨current, hdue⟩
    exact ⟨r, session, found, expired⟩

/-- A commit of a batch is what finalizing its room by request commits, and leaves the room the same. -/
theorem apply_of_mem_finalizeExpired (wf : s.EachRecord RoomRecord.WellFormed) {c : Commit}
    (listed : c ∈ (s.finalizeExpired now).1) :
    ∃ finalized, s.apply c.session.room .finalize now = .ok (c, finalized) ∧
      finalized.rooms.get? c.session.room = (s.finalizeExpired now).2.rooms.get? c.session.room := by
  obtain ⟨r, found, expired, hdevice⟩ := (mem_finalizeExpired_iff wf).mp listed
  obtain ⟨current, hcurrent, running, -, hsession⟩ := RoomRecord.expired?_eq_some_iff.mp expired
  -- a session that is finalized alone is closed as in the batch
  have happly : current.apply .finalize now = .ok c.session := by
    rw [Session.apply_finalize (by rw [running]; rfl), hsession]
  refine ⟨{ s with rooms := s.rooms.set c.session.room (r.replaceCurrent c.session) }, ?_, ?_⟩
  · simp only [apply, found, hcurrent, happly, ← hdevice]
  · rw [get?_finalizeExpired, found, Option.map_some, RoomRecord.settle_of_expired expired,
      Table.get?_set, if_pos rfl]

/-- After a batch nothing is expired, then or at any earlier instant. -/
theorem unexpired_finalizeExpired (wf : s.EachRecord RoomRecord.WellFormed) {again : Instant}
    (earlier : again ≤ now) :
    (s.finalizeExpired now).2.EachRecord fun _ r => r.expired? again = none := by
  intro room r found
  refine Option.eq_none_iff_forall_not_mem.mpr fun session expired => ?_
  obtain ⟨current, hcurrent, running, due, -⟩ := RoomRecord.expired?_eq_some_iff.mp expired
  have hrow : current ∈ (s.finalizeExpired now).2.history room := by
    rw [history_of_get? found]
    exact RoomRecord.mem_of_current? hcurrent
  -- the row would be one that the batch has settled
  rw [history_finalizeExpired wf] at hrow
  obtain ⟨row, -, rfl⟩ := List.mem_map.mp hrow
  exact Session.not_due_settled running (Instant.le_trans due earlier)

/-- **A batch is exact, ordered and idempotent.** In every store that a run from a seed leads to, a batch lists
the rooms that are due, each once and in ascending order, and comes to the same in whatever order it visits the
rooms. Each commit has the session as it is now stored, which is what finalizing the room by request would
commit, and the device linked to the room. Every row that is in use and at its end is closed, and every other
row, each device and each room stays as it is. Afterwards no session in use is at its end, so that a batch for
the same instant or an earlier one lists and changes nothing. -/
theorem finalizeExpired_exact (seed : Seed) (commands : List Command) (now : Instant) :
    let s := (ofSeed seed).after commands
    let listed := (s.finalizeExpired now).1
    let settled := (s.finalizeExpired now).2
    (∀ room, room ∈ Commit.rooms listed ↔ s.Due now room) ∧
    (Commit.rooms listed).Pairwise (·.toInt < ·.toInt) ∧
    (∀ order : List RoomId, order.Perm s.rooms.keys → s.finalizeInOrder now order = (listed, settled)) ∧
    (∀ c ∈ listed,
      (∃ r r', s.rooms.get? c.session.room = some r ∧ settled.rooms.get? c.session.room = some r' ∧
        r'.current? = some c.session ∧ c.device = r.room.device) ∧
      ∃ finalized, s.apply c.session.room .finalize now = .ok (c, finalized) ∧
        finalized.rooms.get? c.session.room = settled.rooms.get? c.session.room) ∧
    (∀ room, settled.history room = (s.history room).map fun row =>
      if row.status = .inUse ∧ row.scheduledEndAt ≤ now then row.close .finalized now else row) ∧
    s.SameDevices settled ∧ s.SameRooms settled ∧
    (∀ room, ∀ row ∈ settled.history room, row.status = .inUse → ¬ row.scheduledEndAt ≤ now) ∧
    ∀ again ≤ now, settled.finalizeExpired again = ([], settled) := by
  intro s listed settled
  have wf : s.EachRecord RoomRecord.WellFormed := wellFormed_after seed commands
  obtain ⟨sameDevices, sameRooms, -⟩ := s.finalizeExpired_effect now
  refine ⟨mem_rooms_finalizeExpired_iff wf now, pairwise_rooms_finalizeExpired wf now,
    fun order perm => finalizeInOrder_eq wf perm,
    fun c hc => ⟨?_, apply_of_mem_finalizeExpired wf hc⟩, fun room => ?_, sameDevices, sameRooms,
    fun room row hrow running => ?_,
    fun again earlier => finalizeExpired_of_unexpired (unexpired_finalizeExpired wf earlier)⟩
  · obtain ⟨r, found, expired, hdevice⟩ := (mem_finalizeExpired_iff wf).mp hc
    refine ⟨r, r.replaceCurrent c.session, found, ?_, r.current?_replaceCurrent c.session, hdevice⟩
    rw [get?_finalizeExpired, found, Option.map_some, RoomRecord.settle_of_expired expired]
  · rw [history_finalizeExpired wf]
    exact List.map_congr_left fun row _ => Session.settled_eq now row
  · rw [history_finalizeExpired wf] at hrow
    obtain ⟨row, -, rfl⟩ := List.mem_map.mp hrow
    exact Session.not_due_settled running

end Store

end Occupancy
