import Occupancy.Proofs.Ascending
import Occupancy.Proofs.Postgres.Kept

/-!
# Tables that mirror a store

The tables hold what a store holds: its rooms and devices, and a row for each of its sessions. Numbers of
sessions may differ; `Rows` relates the rows of each room to its history, one by one. Main statements:
`Mirrors.write`, that such rows keep the rules of the schema, and `Mirrors.latest`, that the row which started
last is that of the most recent session. `Agrees` says what is to be shown of a request.
-/

namespace Occupancy.Postgres

variable {R : SessionId → SessionId → Prop} {s : Store} {t : Tables} {choice : Choice} {now : Instant}

/-! ## Lists -/

/-- Entries that are apart among those with the same key are apart from each other. -/
theorem pairwise_of_filter {α κ : Type} [DecidableEq κ] {key : α → κ} {P : α → α → Prop} {l : List α}
    (h : ∀ k, (l.filter (key · = k)).Pairwise P) : l.Pairwise fun a b => key a = key b → P a b := by
  induction l with
  | nil => exact .nil
  | cons a l ih =>
    refine .cons (fun b hb hkey => ?_) (ih fun k => (h k).sublist (List.sublist_cons_self a l |>.filter _))
    have hhead := h (key a)
    rw [List.filter_cons_of_pos (by simp), List.pairwise_cons] at hhead
    exact hhead.1 b (List.mem_filter.mpr ⟨hb, by simp [hkey]⟩)

/-- What keeps keys and is done to all entries is done to the entries with a key. -/
theorem filter_map_of_key {α κ : Type} [DecidableEq κ] {key : α → κ} {f : α → α} (l : List α) (k : κ)
    (h : ∀ a, key (f a) = key a) : (l.map f).filter (key · = k) = (l.filter (key · = k)).map f := by
  rw [List.filter_map]
  simp only [Function.comp_def, h]

/-- An entry of a list has its counterpart in a list that is related to it. -/
theorem exists_of_forall₂ {α β : Type} {P : α → β → Prop} {l : List α} {l' : List β}
    (h : List.Forall₂ P l l') {b : β} (hb : b ∈ l') : ∃ a ∈ l, P a b := by
  induction h with
  | nil => cases hb
  | cons hab _ ih =>
    rcases List.mem_cons.mp hb with rfl | hb
    · exact ⟨_, List.mem_cons_self, hab⟩
    · obtain ⟨a, ha, hP⟩ := ih hb
      exact ⟨a, List.mem_cons_of_mem _ ha, hP⟩

/-- Entries that all have counterparts have a list of counterparts. -/
theorem exists_forall₂ {α β : Type} {P : α → β → Prop} {l : List α} (h : ∀ a ∈ l, ∃ b, P a b) :
    ∃ l', List.Forall₂ P l l' := by
  induction l with
  | nil => exact ⟨[], .nil⟩
  | cons a l ih =>
    obtain ⟨b, hb⟩ := h a List.mem_cons_self
    obtain ⟨l', hl'⟩ := ih fun x hx => h x (List.mem_cons_of_mem a hx)
    exact ⟨b :: l', .cons hb hl'⟩

/-- What related entries have in common, related lists have in common. -/
theorem map_eq_of_forall₂ {α β γ : Type} {P : α → β → Prop} {l : List α} {l' : List β}
    (h : List.Forall₂ P l l') {f : α → γ} {f' : β → γ} (same : ∀ a b, P a b → f' b = f a) :
    l'.map f' = l.map f := by
  induction h with
  | nil => rfl
  | cons hab _ ih => rw [List.map_cons, List.map_cons, same _ _ hab, ih]

/-- Where each row started later than the one before it, there is nothing to choose. -/
theorem Choice.latest_of_ordered (choice : Choice) {rows : List Session}
    (ordered : rows.Pairwise (·.startedAt < ·.startedAt)) : choice.latest rows = rows.getLast? := by
  cases hlatest : choice.latest rows with
  | none =>
    rw [choice.eq_nil_of_latest rows hlatest]
    rfl
  | some x =>
    cases hlast : rows.getLast? with
    | none =>
      rw [List.getLast?_eq_none_iff.mp hlast] at hlatest
      cases choice.mem_of_latest [] x hlatest
    -- a choice is one of the rows, and started no earlier than any of them
    | some y =>
      have hrows : rows = rows.dropLast ++ [y] := (List.dropLast_append_getLast? y hlast).symm
      have hle := choice.le_latest rows x hlatest y (List.mem_of_getLast? hlast)
      have hmem := choice.mem_of_latest rows x hlatest
      rw [hrows, List.mem_append, List.mem_singleton] at hmem
      rw [hrows, List.pairwise_append] at ordered
      rcases hmem with inner | rfl
      · -- the last row started after any other
        have hlt : x.startedAt < y.startedAt := ordered.2.2 x inner y (List.mem_singleton.mpr rfl)
        exact absurd hlt (Int.not_lt.mpr hle)
      · rfl

/-! ## Sessions that are alike -/

section Alike

variable {x y : Session}

theorem room_of_alike (h : x.Alike R y) : y.room = x.room := by
  cases h
  rfl

theorem status_of_alike (h : x.Alike R y) : y.status = x.status := by
  cases h
  rfl

theorem startedAt_of_alike (h : x.Alike R y) : y.startedAt = x.startedAt := by
  cases h
  rfl

theorem kept_of_alike (h : x.Alike R y) (hx : x.Kept) : y.Kept := by
  cases h
  exact ⟨hx.startedAt, hx.pausedAt, hx.endedAt, hx.accumulatedPause⟩

theorem checked_of_alike (h : x.Alike R y) (hx : x.WellFormed) : Tables.Checked y := by
  cases h
  exact ⟨hx.start_le_end, hx.pausedAt_iff.symm⟩

end Alike

/-! ## Open sessions -/

section Records

variable {room : RoomId} {r : RoomRecord}

/-- What comes before another session has ended. -/
theorem pairwise_ended (h : r.WellFormed room) :
    r.history.Pairwise fun a _ => a.status.isOpen = false := by
  cases hcurrent : r.current? with
  | none =>
    rw [List.getLast?_eq_none_iff.mp hcurrent]
    exact .nil
  | some current =>
    -- only the last session of a history may be open
    have inner : ∀ a ∈ r.history.dropLast, a.status.isOpen = false := fun a ha =>
      SessionStatus.isTerminal_eq_true_iff.mp (h.ended a ha)
    rw [RoomRecord.history_eq_of_current? hcurrent]
    refine List.pairwise_append.mpr ⟨?_, List.pairwise_singleton _ _, fun a ha _ _ => inner a ha⟩
    exact List.pairwise_of_forall_mem_list fun a ha _ _ => inner a ha

/-- The open sessions of a room are the one that is open, if there is one. -/
theorem filter_isOpen (h : r.WellFormed room) : r.history.filter (·.status.isOpen) = r.open?.toList := by
  cases hcurrent : r.current? with
  | none => simp [List.getLast?_eq_none_iff.mp hcurrent, RoomRecord.open?, hcurrent]
  | some current =>
    have inner : r.history.dropLast.filter (·.status.isOpen) = [] :=
      List.filter_eq_nil_iff.mpr fun a ha => by
        simp [SessionStatus.isTerminal_eq_true_iff.mp (h.ended a ha)]
    rw [RoomRecord.history_eq_of_current? hcurrent, List.filter_append, inner, RoomRecord.open?, hcurrent]
    cases hopen : current.status.isOpen <;> simp [hopen, Option.filter]

end Records

/-! ## Rows that hold the sessions of a store -/

theorem history_of_get? {room : RoomId} {r : RoomRecord} (h : s.rooms.get? room = some r) :
    s.history room = r.history := by
  simp [Store.history, h]

theorem history_of_none {room : RoomId} (h : s.rooms.get? room = none) : s.history room = [] := by
  simp [Store.history, h]

/-- The record of a room with other sessions is that of the same room. -/
theorem map_room_set {room : RoomId} {r r' : RoomRecord} (hr : s.rooms.get? room = some r)
    (hroom : r'.room = r.room) (key : RoomId) :
    ((s.rooms.set room r').get? key).map (·.room) = (s.rooms.get? key).map (·.room) := by
  rw [Table.get?_set]
  split
  · rename_i hkey
    rw [hkey, hr, Option.map_some, Option.map_some, hroom]
  · rfl

/-- The rows of each room are the sessions of the room in the order in which they started, under other numbers,
and no number comes twice. -/
structure Rows (R : SessionId → SessionId → Prop) (s : Store) (rows : List Session) : Prop where
  ofRoom : ∀ room, List.Forall₂ (Session.Alike R) (s.history room) (rows.filter (·.room = room))
  ids : (rows.map (·.id)).Nodup

namespace Rows

variable {rows : List Session}

/-- A row is the row of a session of its room. -/
theorem exists_session (h : Rows R s rows) {y : Session} (hy : y ∈ rows) :
    ∃ r, s.rooms.get? y.room = some r ∧ ∃ x ∈ r.history, x.Alike R y := by
  obtain ⟨x, hx, halike⟩ := exists_of_forall₂ (h.ofRoom y.room) (List.mem_filter.mpr ⟨hy, by simp⟩)
  cases hr : s.rooms.get? y.room with
  | none =>
    rw [history_of_none hr] at hx
    cases hx
  | some r =>
    rw [history_of_get? hr] at hx
    exact ⟨r, rfl, x, hx, halike⟩

/-- Numbers tell rows apart, and not two sessions of a room are open. -/
theorem apart (h : Rows R s rows) (wf : s.EachRecord RoomRecord.WellFormed) :
    rows.Pairwise Tables.Apart := by
  have hids : rows.Pairwise fun a b => a.id ≠ b.id := List.pairwise_map.mp h.ids
  -- two open rows of one room would be two open sessions
  have hopen : ∀ room, (rows.filter (·.room = room)).Pairwise fun a b =>
      ¬ (a.status.isOpen = true ∧ b.status.isOpen = true) := by
    intro room
    have hhistory : ((s.history room).map (·.status)).Pairwise fun a b =>
        ¬ (a.isOpen = true ∧ b.isOpen = true) := by
      cases hr : s.rooms.get? room with
      | none => simp [history_of_none hr]
      | some r =>
        rw [history_of_get? hr, List.pairwise_map]
        exact (pairwise_ended (wf room r hr)).imp fun hended hopen => by simp [hended] at hopen
    rw [← map_eq_of_forall₂ (h.ofRoom room) fun _ _ => status_of_alike, List.pairwise_map] at hhistory
    exact hhistory
  refine (hids.and (pairwise_of_filter hopen)).imp fun ⟨hne, hroom⟩ => ⟨hne, ?_⟩
  rintro ⟨ha, hb, hkey⟩
  exact hroom hkey ⟨ha, hb⟩

/-- A new session and its row come last. -/
theorem append (h : Rows R s rows) {room : RoomId} {r : RoomRecord} (hr : s.rooms.get? room = some r)
    {session row : Session} (alike : session.Alike R row) (hroom : session.room = room)
    (fresh : ∀ y ∈ rows, y.id ≠ row.id) :
    Rows R { s with rooms := s.rooms.set room (r.append session) } (rows ++ [row]) where
  ofRoom key := by
    have hkey := h.ofRoom key
    have hrow : row.room = room := (room_of_alike alike).trans hroom
    rw [List.filter_append]
    -- the row joins those of its own room
    by_cases hcase : key = room
    · subst hcase
      rw [history_of_get? hr] at hkey
      rw [history_of_get? (Table.get?_set _ _ _ _ |>.trans (if_pos rfl)),
        List.filter_cons_of_pos (by simp [hrow]), List.filter_nil]
      exact List.rel_append hkey (.cons alike .nil)
    · have hhistory : Store.history { s with rooms := s.rooms.set room (r.append session) } key =
          s.history key := by
        simp [Store.history, hcase]
      rw [hhistory, List.filter_cons_of_neg (by simpa [hrow] using Ne.symm hcase), List.filter_nil,
        List.append_nil]
      exact hkey
  ids := by
    rw [List.map_append, List.nodup_append]
    -- its identifier is new
    refine ⟨h.ids, List.nodup_singleton _, ?_⟩
    intro id hid id' hid'
    obtain ⟨y, hy, rfl⟩ := List.mem_map.mp hid
    rw [List.map_singleton, List.mem_singleton] at hid'
    rw [hid']
    exact fresh y hy

/-- Rows are changed in place. -/
theorem change (h : Rows R s rows) {s' : Store} {f : Session → Session}
    (rooms : ∀ y, (f y).room = y.room) (ids : ∀ y, (f y).id = y.id)
    (changed : ∀ room, List.Forall₂ (Session.Alike R) (s'.history room)
      ((rows.filter (·.room = room)).map f)) : Rows R s' (rows.map f) where
  ofRoom room := by
    rw [filter_map_of_key _ _ rooms]
    exact changed room
  ids := by
    rw [List.map_map, show (fun y : Session => y.id) ∘ f = (·.id) from funext ids]
    exact h.ids

/-- The last row of a room is changed and no other one. -/
theorem replaceCurrent (h : Rows R s rows) {room : RoomId} {r : RoomRecord}
    (hr : s.rooms.get? room = some r) {y next : Session} {f : Session → Session}
    (last : (rows.filter (·.room = room)).getLast? = some y) (rooms : ∀ z, (f z).room = z.room)
    (ids : ∀ z, (f z).id = z.id) (others : ∀ z, z.id ≠ y.id → f z = z) (alike : next.Alike R (f y)) :
    Rows R { s with rooms := s.rooms.set room (r.replaceCurrent next) } (rows.map f) := by
  have hy := List.mem_of_getLast? last
  refine h.change rooms ids fun key => ?_
  have hkey := h.ofRoom key
  by_cases hcase : key = room
  · subst hcase
    rw [history_of_get? hr] at hkey
    rw [history_of_get? (Table.get?_set _ _ _ _ |>.trans (if_pos rfl))]
    generalize hL : rows.filter (·.room = key) = L at hkey last
    have hsplit : L = L.dropLast ++ [y] := (List.dropLast_append_getLast? y last).symm
    -- numbers tell the rows before the last one from it
    have hnodup : (L.map (·.id)).Nodup := by
      rw [← hL]
      exact h.ids.sublist (List.filter_sublist.map _)
    rw [hsplit, List.map_append, List.nodup_append] at hnodup
    have inner : L.dropLast.map f = L.dropLast :=
      (List.map_congr_left fun z hz => others z
        (hnodup.2.2 z.id (List.mem_map_of_mem hz) y.id (by simp))).trans (List.map_id _)
    have hdropLast : List.Forall₂ (Session.Alike R) r.history.dropLast L.dropLast := by
      rw [List.dropLast_eq_take, List.dropLast_eq_take, ← hkey.length_eq]
      exact List.forall₂_take _ hkey
    rw [hsplit, List.map_append, inner]
    exact List.rel_append hdropLast (.cons alike .nil)
  · have hhistory : Store.history { s with rooms := s.rooms.set room (r.replaceCurrent next) } key =
        s.history key := by
      simp [Store.history, hcase]
    have same : (rows.filter (·.room = key)).map f = rows.filter (·.room = key) := by
      refine (List.map_congr_left fun z hz => others z fun hid => hcase ?_).trans (List.map_id _)
      obtain ⟨hz, hzroom⟩ := List.mem_filter.mp hz
      obtain ⟨hy, hyroom⟩ := List.mem_filter.mp hy
      obtain rfl := List.inj_on_of_nodup_map h.ids hz hy hid
      exact (of_decide_eq_true hzroom).symm.trans (of_decide_eq_true hyroom)
    rw [hhistory, same]
    exact hkey

end Rows

/-! ## Tables that mirror a store -/

/-- The tables hold the rooms, the devices and, under other numbers, the sessions of a store. -/
structure Mirrors (R : SessionId → SessionId → Prop) (s : Store) (t : Tables) : Prop where
  rooms : ∀ room, t.room? room = (s.rooms.get? room).map (·.room)
  devices : ∀ device, t.device? device = s.device? device
  roomIds : (t.rooms.map (·.id)).Nodup
  rows : Rows R s t.sessions

namespace Mirrors

/-- What mirrors a store keeps the rules of the schema. -/
theorem write (h : Mirrors R s t) {s' : Store} {rows : List Session} (hrows : Rows R s' rows)
    (wf : s'.EachRecord RoomRecord.WellFormed)
    (same : ∀ room, (s'.rooms.get? room).map (·.room) = (s.rooms.get? room).map (·.room)) :
    t.write rows = .ok { t with sessions := rows } := by
  refine Tables.write_eq_ok (fun y hy => ?_) (hrows.apart wf) (fun y hy => ?_) <;>
    obtain ⟨r, hr, x, hx, alike⟩ := hrows.exists_session hy
  · exact checked_of_alike alike ((wf _ r hr).rows x hx).2
  · rw [h.rooms, ← same, hr]
    simp

/-- The tables with other sessions mirror a store with the same rooms and devices. -/
theorem withSessions (h : Mirrors R s t) {s' : Store} {rows : List Session} (hrows : Rows R s' rows)
    (same : ∀ room, (s'.rooms.get? room).map (·.room) = (s.rooms.get? room).map (·.room))
    (devices : s'.devices = s.devices) : Mirrors R s' { t with sessions := rows } where
  rooms room := (h.rooms room).trans (same room).symm
  devices device := (h.devices device).trans (by rw [Store.device?, Store.device?, devices])
  roomIds := h.roomIds
  rows := hrows

/-- A row of rooms is found by its number. -/
theorem room?_of_mem (h : Mirrors R s t) {room : Room} (hroom : room ∈ t.rooms) :
    t.room? room.id = some room := by
  cases hfind : t.room? room.id with
  | none =>
    have hne := List.find?_eq_none.mp hfind room hroom
    simp at hne
  | some found =>
    have hid : found.id = room.id := by simpa using List.find?_some hfind
    rw [List.inj_on_of_nodup_map h.roomIds (List.mem_of_find?_eq_some hfind) hroom hid]

/-- The rows with the number of a room are the room, if there is one. -/
theorem filter_room (h : Mirrors R s t) (room : RoomId) :
    t.rooms.filter (·.id = room) = (t.room? room).toList := by
  refine filter_eq_toList h.roomIds fun r => ?_
  constructor
  · rintro ⟨hr, rfl⟩
    exact h.room?_of_mem hr
  · intro hr
    exact ⟨List.mem_of_find?_eq_some hr, by simpa using List.find?_some hr⟩

theorem history (h : Mirrors R s t) {room : RoomId} {r : RoomRecord} (hr : s.rooms.get? room = some r) :
    List.Forall₂ (Session.Alike R) r.history (t.history room) := by
  rw [← history_of_get? hr]
  exact h.rows.ofRoom room

theorem kept (h : Mirrors R s t) (timed : s.Timed now) {y : Session} (hy : y ∈ t.sessions) : y.Kept := by
  obtain ⟨r, hr, x, hx, alike⟩ := h.rows.exists_session hy
  exact kept_of_alike alike ((timed _ r hr).sessions x hx).kept

/-- The row that started last is that of the most recent session. -/
theorem latest (h : Mirrors R s t) (choice : Choice) {room : RoomId} {r : RoomRecord}
    (hr : s.rooms.get? room = some r) (timed : r.Timed now) :
    choice.latest (t.history room) = (t.history room).getLast? ∧
      Option.Rel (Session.Alike R) r.current? (t.history room).getLast? := by
  have hhistory := h.history hr
  have hstarts : ((t.history room).map (·.startedAt)).Pairwise (· < ·) := by
    rw [map_eq_of_forall₂ hhistory fun _ _ => startedAt_of_alike]
    exact List.pairwise_map.mpr timed.ordered
  exact ⟨choice.latest_of_ordered (List.pairwise_map.mp hstarts), forall₂_getLast? hhistory⟩

theorem opened (h : Mirrors R s t) {room : RoomId} {r : RoomRecord} (hr : s.rooms.get? room = some r)
    (wf : r.WellFormed room) : List.Forall₂ (Session.Alike R) r.open?.toList (t.opened room) := by
  rw [← filter_isOpen wf]
  refine List.rel_filter (fun x y alike => ?_) (h.history hr)
  simp only [status_of_alike alike]

/-- A room is free on the tables if it is free in memory. -/
theorem opened_eq_nil_iff (h : Mirrors R s t) {room : RoomId} {r : RoomRecord} (hr : s.rooms.get? room = some r)
    (wf : r.WellFormed room) : t.opened room = [] ↔ r.open? = none := by
  have hlength := (h.opened hr wf).length_eq
  rw [← List.length_eq_zero_iff, ← hlength, List.length_eq_zero_iff]
  cases r.open? <;> simp

/-- The open row that started last is that of the open session. -/
theorem latest_opened (h : Mirrors R s t) (choice : Choice) {room : RoomId} {r : RoomRecord}
    (hr : s.rooms.get? room = some r) (wf : r.WellFormed room) :
    Option.Rel (Session.Alike R) r.open? (choice.latest (t.opened room)) := by
  have hopened := h.opened hr wf
  -- at most one open session, so there is nothing to be in order
  have hordered : (t.opened room).Pairwise (·.startedAt < ·.startedAt) := by
    cases hopen : r.open? with
    | none =>
      rw [hopen, Option.toList_none, List.forall₂_nil_left_iff] at hopened
      rw [hopened]
      exact .nil
    | some x =>
      rw [hopen, Option.toList_some, List.forall₂_cons_left_iff] at hopened
      obtain ⟨y, rest, -, hrest, heq⟩ := hopened
      rw [heq, List.forall₂_nil_left_iff.mp hrest]
      exact List.pairwise_singleton _ _
  rw [choice.latest_of_ordered hordered]
  have hlast := forall₂_getLast? hopened
  cases hopen : r.open? <;> rw [hopen] at hlast <;> exact hlast

end Mirrors

/-! ## Agreement on a request -/

/-- An assignment that fails for the room as well as for the duration. Which failure is reported is where the
stores differ. -/
def FailsTwice (s : Store) (now : Instant) : Request → Prop
  | .assign room _ duration =>
    ¬ Bookable duration now ∧ ∀ r, s.rooms.get? room = some r → r.room.state = .deleted ∨ r.open? ≠ none
  | _ => False

/-- After a request the tables mirror the store, unless the end of a session was cut off, and the answers are
alike, provided that the request does not fail twice. -/
structure Agrees (R : SessionId → SessionId → Prop) (once : Prop) (x : Answer × Store) (y : Answer × Tables) :
    Prop where
  mirror : x.1.Uncut → Mirrors R x.2 y.2
  answers : once → Answer.Alike R x.1.byRoom y.1

theorem performed_of_run {α : Type} {f : α → Reply} {p : Exchange α} {r : Except Failure α} {t' : Tables}
    (h : Database.run choice p ⟨t, none⟩ = (r, ⟨t', none⟩)) : performed choice f p t = (r.map f, t') := by
  rw [performed, h]

/-- The tables at the end of a transaction: what its statements made of them, unless they failed. -/
def Tables.ended {α : Type} (t t' : Tables) : Except Failure α → Tables
  | .ok _ => t'
  | .error _ => t

/-- An operation that is a transaction keeps what its statements did, unless they fail. -/
theorem performed_transaction {α : Type} {f : α → Reply} {body : Exchange α} {r : Except Failure α}
    {t' : Tables} (h : Database.run choice body ⟨t, some t⟩ = (r, ⟨t', some t⟩)) :
    performed choice f (transaction body) t = (r.map f, t.ended t' r) := by
  cases r with
  | ok a => exact performed_of_run (Database.run_transaction_of_ok h)
  | error e => exact performed_of_run (Database.run_transaction_of_error h)

end Occupancy.Postgres
