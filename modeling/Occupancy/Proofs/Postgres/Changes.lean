import Occupancy.Proofs.Postgres.Mirror
import Occupancy.Proofs.Postgres.Transactions

/-!
# The stores agree on changes

Opening and changing a session on the tables and in memory. What a transaction sends is run statement by
statement; the rows that it writes are those of the store after the change. Main statements: `agrees_assign`
and `agrees_apply`.
-/

namespace Occupancy.Postgres

variable {R : SessionId → SessionId → Prop} {s : Store} {t : Tables} {choice : Choice} {now : Instant}

/-! ## Opening a session -/

/-- The first row of a query for rows with a property. -/
theorem firstRow_answered {α : Type} (l : List α) (p : α → Bool) (f : α → Row) (failure : RoomError) :
    firstRow (Tables.answered ((l.filter p).map f)) failure =
      match l.find? p with
      | some a => .ok (f a)
      | none => .error (.refused failure) := by
  rw [← List.head?_filter]
  cases l.filter p <;> rfl

/-- A room can be booked unless it is deleted. -/
theorem bookable_text (room : RoomId) (state : RoomState) :
    bookable room state.text =
      if state = .deleted then .error (.refused (.noRoom room)) else .ok () := by
  cases state <;> rfl

theorem run_insertStatement (room : RoomId) (session : Session) (c : Commit) (saved : Option Tables) :
    Database.run choice (insertStatement room session >>= fun _ => given (.ok c)) ⟨t, saved⟩ =
      match t.exec choice (.insert session) with
      | .ok (_, t') => (.ok c, ⟨t', saved⟩)
      | .error code =>
        (.error (if code = "23505" then .refused (.conflict room) else .database code), ⟨t, saved⟩) := by
  have hinsert : Database.run choice (insertStatement room session) ⟨t, saved⟩ =
      match t.exec choice (.insert session) with
      | .ok (_, t') => (.ok (), ⟨t', saved⟩)
      | .error code =>
        (.error (if code = "23505" then .refused (.conflict room) else .database code), ⟨t, saved⟩) := by
    -- a violated key is the only code that is told as a conflict
    simp only [Database.run, insertStatement, ExceptT.run_mk, Program.run, Database.answer]
    rcases t.exec choice (.insert session) with code | ⟨result, t'⟩
    · simp only [inserted]
      split <;> rfl
    · rfl
  rw [Database.run_bind, hinsert]
  rcases t.exec choice (.insert session) with code | ⟨result, t'⟩ <;> rfl

/-- What the statements of an assignment come to. -/
theorem run_assignStatements (choice : Choice) (t : Tables) (room : RoomId) (session : Session)
    (saved : Option Tables) :
    Database.run choice (assignStatements room session) ⟨t, saved⟩ =
      match t.room? room with
      | none => (.error (.refused (.noRoom room)), ⟨t, saved⟩)
      | some r =>
        if r.state = .deleted then (.error (.refused (.noRoom room)), ⟨t, saved⟩)
        else if t.opened room ≠ [] then (.error (.refused (.conflict room)), ⟨t, saved⟩)
        else
          match t.exec choice (.insert session) with
          | .ok (_, t') => (.ok ⟨session, r.device⟩, ⟨t', saved⟩)
          | .error code =>
            (.error (if code = "23505" then .refused (.conflict room) else .database code), ⟨t, saved⟩) := by
  unfold assignStatements
  rw [Database.run_execute_bind]
  simp only [Tables.exec, Database.run_given_bind, firstRow_answered]
  rw [show t.rooms.find? (fun r => decide (r.id = room)) = t.room? room from rfl]
  -- the room comes first, then whether it is free, then the insertion
  cases hroom : t.room? room with
  | none => rfl
  | some r =>
    have hstate : Row.get [("state", .text r.state.text), ("device_id", Row.optional .integer r.device)]
        Cell.text? "state" = .ok r.state.text := rfl
    have hdevice : Row.get? [("state", .text r.state.text), ("device_id", Row.optional .integer r.device)]
        Cell.integer? "device_id" = .ok r.device := Row.get?_integer rfl
    simp only [hstate, hdevice, bookable_text]
    by_cases hdeleted : r.state = .deleted
    · rw [if_pos hdeleted, if_pos hdeleted]
    · rw [if_neg hdeleted, if_neg hdeleted]
      dsimp only
      rw [Database.run_execute_bind]
      simp only [Tables.exec, Tables.answered, ne_eq, List.map_eq_nil_iff]
      split
      · rfl
      · exact run_insertStatement room session ⟨session, r.device⟩ saved

/-- A session whose room is there and free is inserted. -/
theorem exec_insert (choice : Choice) (h : Mirrors R s t) (wf : s.EachRecord RoomRecord.WellFormed)
    {id id' : SessionId} {room : RoomId} {customer : Option Word} {duration : Word} {r : RoomRecord}
    {session row : Session} (hr : s.rooms.get? room = some r) (free : r.open? = none) (hnow : Held now)
    (booked : Session.book id room customer duration now = .ok session)
    (booked' : Session.book id' room customer duration now = .ok row) (alike : session.Alike R row)
    (fresh : ∀ y ∈ t.sessions, y.id ≠ id') :
    ∃ result t', t.exec choice (.insert row) = .ok (result, t') ∧
      Mirrors R { s with rooms := s.rooms.set room (r.append session) } t' := by
  obtain ⟨hkept, hends⟩ := Session.Kept.of_book hnow booked'
  have hroom : session.room = room := by
    obtain ⟨-, -, _, -, rfl⟩ := Session.book_eq_ok booked
    rfl
  -- a booked session has nothing yet but its start and its end
  have hinserting : Tables.inserting row row.startedAt row.scheduledEndAt = row := by
    obtain ⟨-, -, _, -, rfl⟩ := Session.book_eq_ok booked'
    rfl
  -- the rows go on mirroring the history, and well-formed rooms make every constraint hold
  have hrows : Rows R { s with rooms := s.rooms.set room (r.append session) } (t.sessions ++ [row]) :=
    h.rows.append hr alike hroom (by rwa [Session.id_of_book booked'])
  have hwf : Store.EachRecord RoomRecord.WellFormed
      { s with rooms := s.rooms.set room (r.append session) } :=
    wf.set ((wf room r hr).append free hroom (.of_book booked))
  have same := map_room_set hr (show (r.append session).room = r.room from rfl)
  refine ⟨{ touched := 1 }, { t with sessions := t.sessions ++ [row] }, ?_, h.withSessions hrows same rfl⟩
  simp only [Tables.exec, column_of_held hkept.startedAt, column_of_held hends, hinserting, bind,
    Except.bind, h.write hrows hwf same]

section

variable {id id' : SessionId} {room : RoomId} {customer : Option Word} {duration : Word}

/-- An assignment of a session that cannot be booked fails on the tables before anything is sent. -/
theorem onTables_unbookable (choice : Choice) (t : Tables) {e : RoomError}
    (hbook : Session.book id room customer duration now = .error e) :
    (Request.assign room customer duration).onTables choice id now t = (.error (.refused e), t) := by
  have hrun : Database.run choice (Postgres.assign id room customer duration now) ⟨t, none⟩ =
      (.error (.refused e), ⟨t, none⟩) := by
    rw [assign_eq, Database.run_given_bind, hbook]
    rfl
  exact performed_of_run hrun

/-- The stores agree on an assignment of a session that cannot be booked, if nothing else is wrong with it. -/
theorem agrees_unbookable (h : Mirrors R s t) {e : RoomError}
    (hbook : Session.book id room customer duration now = .error e)
    (hbook' : Session.book id' room customer duration now = .error e) :
    let request := Request.assign room customer duration
    Agrees R (¬ FailsTwice s now request) (request.inMemory id now s) (request.onTables choice id' now t) := by
  intro request
  have unbookable : ¬ Bookable duration now := by
    rw [Session.bookable_iff_exists_book id room customer, hbook]
    simp
  rw [onTables_unbookable choice t hbook']
  simp only [request, Request.inMemory]
  -- refused in memory for the room, or because it is occupied; both count as failing twice
  rcases s.assign_cases id room customer duration now with
    ⟨hrefuses, hassign⟩ | ⟨r, hr, -, ⟨taken, hassign⟩ | ⟨-, e', he', hassign⟩ | ⟨-, _, hbooked, -⟩⟩
  · rw [hassign]
    exact ⟨fun _ => h, fun once => absurd ⟨unbookable, fun r hr => .inl (hrefuses r hr)⟩ once⟩
  · rw [hassign]
    refine ⟨fun _ => h, fun once => absurd ⟨unbookable, fun r' hr' => .inr ?_⟩ once⟩
    cases hr.symm.trans hr'
    exact Option.isSome_iff_ne_none.mp taken
  · rw [hassign]
    cases hbook.symm.trans he'
    exact ⟨fun _ => h, fun _ => .error _⟩
  · cases hbook.symm.trans hbooked

/-- The stores agree on an assignment of a session that can be booked. -/
theorem agrees_bookable (h : Mirrors R s t) (wf : s.EachRecord RoomRecord.WellFormed)
    (fresh : ∀ y ∈ t.sessions, y.id ≠ id') (hnow : Held now) {session row : Session}
    (booked : Session.book id room customer duration now = .ok session)
    (booked' : Session.book id' room customer duration now = .ok row) (alike : session.Alike R row) :
    let request := Request.assign room customer duration
    Agrees R (¬ FailsTwice s now request) (request.inMemory id now s) (request.onTables choice id' now t) := by
  intro request
  have htransaction :
      Postgres.assign id' room customer duration now = transaction (assignStatements room row) := by
    rw [assign_eq, booked']
    rfl
  have htables : ∀ {x t'},
      Database.run choice (assignStatements room row) ⟨t, some t⟩ = (x, ⟨t', some t⟩) →
      request.onTables choice id' now t = (x.map .committed, t.ended t' x) := by
    intro x t' hrun
    simp only [request, Request.onTables, htransaction]
    exact performed_transaction hrun
  have hrun := run_assignStatements choice t room row (some t)
  rw [h.rooms] at hrun
  -- the tables take the branch that the store takes
  simp only [request, Request.inMemory]
  rcases s.assign_cases id room customer duration now with
    ⟨hrefuses, hassign⟩ | ⟨r, hr, listed, ⟨taken, hassign⟩ | ⟨-, e, he, -⟩ | ⟨free, x, hx, hassign⟩⟩
  · -- the room is not there, or it is deleted
    have hrefused : Database.run choice (assignStatements room row) ⟨t, some t⟩ =
        (.error (.refused (.noRoom room)), ⟨t, some t⟩) := by
      rw [hrun]
      cases hr : s.rooms.get? room with
      | none => rfl
      | some r => exact if_pos (hrefuses r hr)
    rw [hassign, htables hrefused]
    exact ⟨fun _ => h, fun _ => .error _⟩
  · -- it is occupied
    have hoccupied : t.opened room ≠ [] :=
      (h.opened_eq_nil_iff hr (wf room r hr)).not.mpr (Option.isSome_iff_ne_none.mp taken)
    have hconflict : Database.run choice (assignStatements room row) ⟨t, some t⟩ =
        (.error (.refused (.conflict room)), ⟨t, some t⟩) := by
      rw [hrun, hr]
      exact (if_neg listed).trans (if_pos hoccupied)
    rw [hassign, htables hconflict]
    exact ⟨fun _ => h, fun _ => .error _⟩
  · cases booked.symm.trans he
  · -- it is free
    cases booked.symm.trans hx
    have hfree : t.opened room = [] := (h.opened_eq_nil_iff hr (wf room r hr)).mpr free
    obtain ⟨result, t', hinsert, hmirror⟩ :=
      exec_insert choice h wf hr free hnow booked booked' alike fresh
    have hcommitted : Database.run choice (assignStatements room row) ⟨t, some t⟩ =
        (.ok ⟨row, r.room.device⟩, ⟨t', some t⟩) := by
      rw [hrun, hr]
      simp only [Option.map_some, if_neg listed, hfree, ne_eq, not_true_eq_false, if_false, hinsert]
    rw [hassign, htables hcommitted]
    exact ⟨fun _ => hmirror, fun _ => .ok (.committed (.mk alike))⟩

end

/-- The stores agree on an assignment. -/
theorem agrees_assign (h : Mirrors R s t) (wf : s.EachRecord RoomRecord.WellFormed) {id id' : SessionId}
    (related : R id id') (fresh : ∀ y ∈ t.sessions, y.id ≠ id') (hnow : Held now) (room : RoomId)
    (customer : Option Word) (duration : Word) :
    let request := Request.assign room customer duration
    Agrees R (¬ FailsTwice s now request) (request.inMemory id now s) (request.onTables choice id' now t) := by
  rcases Session.alike_book related room customer duration now with
    ⟨e, hbook, hbook'⟩ | ⟨session, row, booked, booked', alike⟩
  · exact agrees_unbookable h hbook hbook'
  · exact agrees_bookable h wf fresh hnow booked booked' alike

/-! ## Changing a session -/

/-- What the statements of a transition come to. -/
theorem run_applyStatements (choice : Choice) (t : Tables) (room : RoomId) (tr : Transition) (now : Instant)
    (saved : Option Tables)
    (whole : ∀ y, choice.latest (t.history room) = some y → 1000000 ∣ y.accumulatedPause.nanos) :
    Database.run choice (applyStatements room tr now) ⟨t, saved⟩ =
      match t.room? room with
      | none => (.error (.refused (.noRoom room)), ⟨t, saved⟩)
      | some r =>
        match choice.latest (t.history room) with
        | none => (.error (.refused (.invalidState room tr.verb "room has no session")), ⟨t, saved⟩)
        | some y =>
          match y.apply tr now with
          | .error e => (.error (.refused e), ⟨t, saved⟩)
          | .ok next =>
            match t.exec choice (.update next) with
            | .error code => (.error (.database code), ⟨t, saved⟩)
            | .ok (result, t') =>
              if result.touched = 0 then
                (.error (.refused (.invalidState room tr.verb "session changed concurrently")), ⟨t', saved⟩)
              else (.ok ⟨next, r.device⟩, ⟨t', saved⟩) := by
  have hlock : t.exec choice (.lockRoom room) =
      .ok (Tables.answered ((t.rooms.filter (·.id = room)).map fun r =>
        [("device_id", Row.optional .integer r.device)]), t) := rfl
  have hread : t.exec choice (.latest room) =
      .ok (Tables.answered ((choice.latest (t.history room)).toList.map Row.ofSession), t) := rfl
  unfold applyStatements
  simp only [Database.run_execute_bind, hlock, Database.run_given_bind, firstRow_answered]
  rw [show t.rooms.find? (fun r => decide (r.id = room)) = t.room? room from rfl]
  cases hroom : t.room? room with
  | none => rfl
  | some r =>
    have hdevice : Row.get? [("device_id", Row.optional .integer r.device)] Cell.integer? "device_id" =
        .ok r.device := Row.get?_integer rfl
    simp only [hdevice, hread]
    -- the session is looked up and moved before anything is written
    cases hlatest : choice.latest (t.history room) with
    | none => rfl
    | some y =>
      have hsession : (firstRow (Tables.answered ((some y).toList.map Row.ofSession))
          (.invalidState room tr.verb "room has no session")).bind Row.session = .ok y :=
        Row.session_ofSession (whole y hlatest)
      rw [hsession]
      cases hmove : y.apply tr now with
      | error e => simp only [hmove, Except.mapError]
      | ok next =>
        simp only [hmove, Except.mapError]
        rcases t.exec choice (.update next) with code | ⟨result, t'⟩
        · rfl
        · dsimp only
          split <;> rfl

/-- An update changes what a move changes, but for what the column of the end loses. -/
theorem updating_of_move {y next : Session} {ending : Instant} (hmove : y.Move now next)
    (whole : 1000000 ∣ next.accumulatedPause.nanos) :
    Tables.updating next ending next.pausedAt next.endedAt y = { next with scheduledEndAt := ending } := by
  have hid : y.id = next.id := by cases hmove <;> rfl
  rw [Tables.updating, if_pos ⟨hid, hmove.isOpen⟩, cutPause_of_whole whole]
  cases hmove <;> rfl

/-- The row of a session that moves is updated. The tables mirror the store after it unless the end of the
session was cut off. -/
theorem exec_update (choice : Choice) (h : Mirrors R s t) (wf : s.EachRecord RoomRecord.WellFormed)
    {room : RoomId} {r : RoomRecord} (hr : s.rooms.get? room = some r) {before : Instant}
    (timed : r.Timed before) (hle : before ≤ now) (hnow : Held now) {x y next next' : Session}
    (current : r.current? = some x) (last : (t.history room).getLast? = some y)
    (hmove : x.Move now next) (hmove' : y.Move now next') (alike' : next.Alike R next') :
    ∃ result t', t.exec choice (.update next') = .ok (result, t') ∧ result.touched ≠ 0 ∧
      (next.scheduledEndAt ≠ .last →
        Mirrors R { s with rooms := s.rooms.set room (r.replaceCurrent next) } t') := by
  have hx := r.mem_of_current? current
  obtain ⟨hroom, hwf⟩ := (wf room r hr).current current
  have htimed := (timed.mono hle).sessions x hx
  have hkept : next.Kept := htimed.kept.move hnow htimed.started hmove
  have hkept' : next'.Kept := kept_of_alike alike' hkept
  have hnext : next.WellFormed := hmove.wellFormed hwf
  obtain ⟨ending, hcolumn, hordered, huncut⟩ :=
    hkept.exists_column (htimed.kept.held_end htimed.ends hnow hmove) hnext.start_le_end
  have hend : next'.scheduledEndAt = next.scheduledEndAt := by
    cases alike'
    rfl
  -- the session as it is stored
  have hstored : Session.Alike R { next with scheduledEndAt := ending }
      (Tables.updating next' ending next'.pausedAt next'.endedAt y) := by
    rw [updating_of_move hmove' hkept'.accumulatedPause]
    cases alike' with
    | mk related => exact .mk related
  have hid : y.id = next'.id := by cases hmove' <;> rfl
  have hrows := h.rows.replaceCurrent hr (y := y)
    (f := Tables.updating next' ending next'.pausedAt next'.endedAt) last
    (fun z => by unfold Tables.updating; split <;> rfl)
    (fun z => by unfold Tables.updating; split <;> rfl)
    (fun z hz => if_neg fun hcond => hz (hcond.1.trans hid.symm)) hstored
  have hwf' : Store.EachRecord RoomRecord.WellFormed
      { s with rooms := s.rooms.set room (r.replaceCurrent { next with scheduledEndAt := ending }) } :=
    wf.set ((wf room r hr).replaceCurrent (hmove.room_eq.trans hroom)
      ⟨hnext.pausedAt_iff, hnext.endedAt_iff, hordered, hnext.pause_nonneg⟩)
  have same := map_room_set hr
    (show (r.replaceCurrent { next with scheduledEndAt := ending }).room = r.room from rfl)
  have hexec : t.exec choice (.update next') =
      .ok ({ touched := (t.sessions.filter fun z => z.id = next'.id ∧ z.status.isOpen).length },
        { t with sessions := t.sessions.map (Tables.updating next' ending next'.pausedAt next'.endedAt) }) := by
    simp only [Tables.exec, hend, hcolumn, column?_of_held fun i hi => (hkept'.pausedAt i hi).1,
      column?_of_held hkept'.endedAt, bind, Except.bind, h.write hrows hwf' same]
  refine ⟨_, _, hexec, ?_, fun uncut => ?_⟩
  -- the row that is replaced is there and open
  · have hy : y ∈ t.sessions.filter fun z => z.id = next'.id ∧ z.status.isOpen :=
      List.mem_filter.mpr ⟨(List.mem_filter.mp (List.mem_of_getLast? last)).1, by simp [hid, hmove'.isOpen]⟩
    exact Nat.ne_of_gt (List.length_pos_of_mem hy)
  · have hmirror := h.withSessions hrows same rfl
    rw [huncut uncut] at hmirror ⊢
    exact hmirror

/-- The stores agree on a transition. -/
theorem agrees_apply (choice : Choice) (h : Mirrors R s t) (wf : s.EachRecord RoomRecord.WellFormed)
    {before : Instant} (timed : s.Timed before) (hle : before ≤ now) (hnow : Held now) (id id' : SessionId)
    (room : RoomId) (tr : Transition) :
    let request := Request.apply room tr
    Agrees R (¬ FailsTwice s now request) (request.inMemory id now s) (request.onTables choice id' now t) := by
  intro request
  have htables : ∀ {x t'},
      Database.run choice (applyStatements room tr now) ⟨t, some t⟩ = (x, ⟨t', some t⟩) →
      request.onTables choice id' now t = (x.map .committed, t.ended t' x) := performed_transaction
  have hrun := run_applyStatements choice t room tr now (some t)
  rw [h.rooms] at hrun
  simp only [request, Request.inMemory]
  -- the store decides what the statements come to
  rcases s.apply_cases room tr now with ⟨hr, happly⟩ | ⟨r, hr, hcases⟩
  -- no room, so no rows
  · have hnil : t.history room = [] := by
      have hrows := h.rows.ofRoom room
      rwa [history_of_none hr, List.forall₂_nil_left_iff] at hrows
    rw [hr] at hrun
    rw [happly, htables (hrun fun y hy => by cases hnil ▸ choice.mem_of_latest _ y hy)]
    exact ⟨fun _ => h, fun _ => .error _⟩
  -- the latest row is that of the current session
  obtain ⟨hlatest, hrel⟩ := h.latest choice hr (timed room r hr)
  rw [hlatest, hr] at hrun
  generalize hlast : (t.history room).getLast? = last at hrel hrun
  rcases hcases with ⟨hcurrent, happly⟩ | ⟨x, hcurrent, hmove⟩ <;> rw [hcurrent] at hrel
  · cases hrel
    rw [happly, htables (hrun fun y hy => by cases hy)]
    exact ⟨fun _ => h, fun _ => .error _⟩
  · cases hrel
    rename_i y alike
    have hkept := ((timed room r hr).sessions x (r.mem_of_current? hcurrent)).kept
    replace hrun := hrun fun y' hy' => by
      cases hy'
      exact (kept_of_alike alike hkept).accumulatedPause
    -- the two sessions are moved alike, or refused alike
    rcases alike.apply tr now with ⟨e, hx, hy⟩ | ⟨next, next', hx, hy, alike'⟩
    · simp only [Option.map_some, hy] at hrun
      rcases hmove with ⟨e', he', happly⟩ | ⟨next, hnext, -⟩
      · cases hx.symm.trans he'
        rw [happly, htables hrun]
        exact ⟨fun _ => h, fun _ => .error _⟩
      · cases hx.symm.trans hnext
    · obtain ⟨result, t', hupdate, htouched, hmirror⟩ :=
        exec_update choice h wf hr (timed room r hr) hle hnow hcurrent hlast (Session.move_of_apply hx)
          (Session.move_of_apply hy) alike'
      simp only [Option.map_some, hy, hupdate, if_neg htouched] at hrun
      rcases hmove with ⟨e', he', -⟩ | ⟨next'', hnext, happly⟩
      · cases hx.symm.trans he'
      · cases hx.symm.trans hnext
        rw [happly, htables hrun]
        exact ⟨fun uncut => hmirror (uncut _ rfl), fun _ => .ok (.committed (.mk alike'))⟩

end Occupancy.Postgres
