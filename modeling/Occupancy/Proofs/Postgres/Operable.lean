import Occupancy.Proofs.Postgres.Agreement

/-!
# Which session a transition is applied to

An assignment looks for a session of the room that is open, a transition takes the one that started last. The
clock may be set back between requests, so that these are not always the same. Whatever has been requested,
the tables keep the rules of the schema (`Tables.Sound`), which leave a room one open session. Main statement:
`operable_iff` says when that session is the one that a transition is applied to; `not_always_operable` has a
room whose open session can neither be cancelled nor finalized.
-/

namespace Occupancy.Postgres

/-! ## Which row started last -/

/-- The choice of a given row where it is one of those that started last. -/
def Choice.favouring (x : Session) : Choice where
  latest rows := if x ∈ rows ∧ ∀ y ∈ rows, y.startedAt ≤ x.startedAt then some x else lastStarted? rows
  eq_nil_of_latest rows h := by
    split at h
    · cases h
    · exact Choice.first.eq_nil_of_latest rows h
  mem_of_latest rows y h := by
    split at h
    · rename_i hx
      cases h
      exact hx.1
    · exact Choice.first.mem_of_latest rows y h
  le_latest rows y h := by
    split at h
    · rename_i hx
      cases h
      exact hx.2
    · exact Choice.first.le_latest rows y h

/-- A row is found whatever the choice exactly if all others started earlier. -/
theorem Choice.forall_latest_iff {rows : List Session} {x : Session} (hx : x ∈ rows) :
    (∀ choice : Choice, choice.latest rows = some x) ↔ ∀ y ∈ rows, y ≠ x → y.startedAt < x.startedAt := by
  constructor
  · intro h y hy hne
    have hle : ∀ z ∈ rows, z.startedAt ≤ x.startedAt := Choice.first.le_latest rows x (h .first)
    refine Int.lt_of_not_ge fun hxy => hne ?_
    -- a row that started as late could be chosen as well
    have hfavoured : (Choice.favouring y).latest rows = some y :=
      if_pos ⟨hy, fun z hz => Instant.le_trans (hle z hz) hxy⟩
    exact Option.some.inj (hfavoured.symm.trans (h (.favouring y)))
  · intro h choice
    cases hlatest : choice.latest rows with
    -- something is chosen, and nothing else started as late
    | none =>
      rw [choice.eq_nil_of_latest rows hlatest] at hx
      cases hx
    | some z =>
      by_contra hne
      have hlt := h z (choice.mem_of_latest rows z hlatest) fun heq => hne (congrArg some heq)
      exact absurd (choice.le_latest rows z hlatest x hx) (Int.not_le.mpr hlt)

/-! ## What columns keep -/

theorem bind_eq_ok {ε α β : Type} {x : Except ε α} {f : α → Except ε β} {b : β} (h : (x >>= f) = .ok b) :
    ∃ a, x = .ok a ∧ f a = .ok b := by
  cases x with
  | error e => cases h
  | ok a => exact ⟨a, rfl, h⟩

/-- What has been read from a column is written back as it is. -/
theorem column_of_column {i j : Instant} (h : column i = .ok j) : column j = .ok j := by
  unfold column at h
  split at h
  · rename_i hlate
    cases h
    -- an instant that is cut is a whole number of microseconds, and is not cut again
    have hcut : cut (cut i) = cut i := by
      refine Instant.eq_of_nanos_eq ?_
      have hsplit : (cut i).nanos - 946684800 * 1000000000 = 1000 * (i.toMicros - 946684800 * 1000000) := by
        show i.toMicros * 1000 - 946684800 * 1000000000 = _
        omega
      show (cut i).toMicros * 1000 = i.toMicros * 1000
      rw [Instant.toMicros, hsplit, Int.mul_tdiv_cancel_left _ (by decide)]
      omega
    -- the earliest instant is whole, so cutting does not go below it
    have hcutLate : earliest ≤ cut i := by
      rw [Instant.le_iff] at hlate ⊢
      have hearliest : earliest.nanos = -210866803200 * 1000000000 := rfl
      show earliest.nanos ≤ i.toMicros * 1000
      unfold Instant.toMicros
      rw [Int.tdiv_eq_ediv]
      split
      · omega
      · simp only [Int.sign]
        omega
    rw [column, if_pos hcutLate, hcut]
  · cases h

theorem column_of_late {i : Instant} (h : earliest ≤ i) : column i = .ok (cut i) :=
  if_pos h

theorem cutPause_whole (s : Span) : 1000000 ∣ (cutPause s).nanos :=
  Dvd.intro_left s.millis rfl

/-! ## Tables that keep the rules -/

namespace Tables

variable {choice : Choice} {t t' : Tables} {room : RoomId}

instance : Std.Symm Apart where
  symm _ _ h := ⟨h.1.symm, fun ⟨hb, ha, hroom⟩ => h.2 ⟨ha, hb, hroom.symm⟩⟩

/-- What is written keeps the rules. -/
theorem of_write {sessions : List Session} (h : t.write sessions = .ok t') :
    t' = { t with sessions } ∧ (∀ s ∈ sessions, Checked s) ∧ sessions.Pairwise Apart ∧
      ∀ s ∈ sessions, t.room? s.room ≠ none := by
  unfold write at h
  split at h
  · cases h
  · rename_i checked
    -- each of the three constraints would have stopped the write
    split at h
    · cases h
    · rename_i apart
      split at h
      · cases h
      · rename_i housed
        cases h
        exact ⟨rfl, by simpa using checked, not_not.mp apart, by simpa using housed⟩

/-- The end and the pauses of a session are as columns keep them. -/
structure Stored (s : Session) : Prop where
  ends : column s.scheduledEndAt = .ok s.scheduledEndAt
  paused : 1000000 ∣ s.accumulatedPause.nanos

/-- The sessions keep the rules of the schema, and are as columns keep them. -/
structure Sound (t : Tables) : Prop where
  checked : ∀ s ∈ t.sessions, Checked s
  apart : t.sessions.Pairwise Apart
  housed : ∀ s ∈ t.sessions, t.room? s.room ≠ none
  stored : ∀ s ∈ t.sessions, Stored s

namespace Sound

theorem write {sessions : List Session} (h : t.write sessions = .ok t')
    (stored : ∀ s ∈ sessions, Stored s) : t'.Sound := by
  obtain ⟨rfl, checked, apart, housed⟩ := of_write h
  exact ⟨checked, apart, housed, stored⟩

theorem stored_inserting (s : Session) (startedAt : Instant) {ending : Instant}
    (h : column s.scheduledEndAt = .ok ending) : Stored (inserting s startedAt ending) :=
  ⟨column_of_column h, Int.dvd_zero _⟩

/-- An update leaves what is stored so. -/
theorem stored_updating {s x : Session} {ending : Instant} (h : column s.scheduledEndAt = .ok ending)
    (pausedAt endedAt : Option Instant) (hx : Stored x) : Stored (updating s ending pausedAt endedAt x) := by
  unfold updating
  split
  · exact ⟨column_of_column h, cutPause_whole _⟩
  · exact hx

/-- Every statement leaves the tables sound. -/
theorem exec (h : t.Sound) {s : Statement} {result : Result} (hexec : t.exec choice s = .ok (result, t')) :
    t'.Sound := by
  cases s with
  | ping | lockRoomState room | lockRoom room | findOpen room | latest room | views rooms =>
    cases hexec
    -- these read
    exact h
  | setActive device active =>
    -- no session is touched
    cases hexec
    exact ⟨h.checked, h.apart, h.housed, h.stored⟩
  | insert s =>
    simp only [Tables.exec] at hexec
    obtain ⟨startedAt, -, hexec⟩ := bind_eq_ok hexec
    obtain ⟨ending, hending, hexec⟩ := bind_eq_ok hexec
    obtain ⟨written, hwrite, hexec⟩ := bind_eq_ok hexec
    cases hexec
    refine write hwrite fun x hx => ?_
    -- the row is inserted as the columns hold it
    rcases List.mem_append.mp hx with hold | hnew
    · exact h.stored x hold
    · rw [List.mem_singleton.mp hnew]
      exact stored_inserting s startedAt hending
  | update s =>
    simp only [Tables.exec] at hexec
    obtain ⟨ending, hending, hexec⟩ := bind_eq_ok hexec
    obtain ⟨pausedAt, -, hexec⟩ := bind_eq_ok hexec
    obtain ⟨endedAt, -, hexec⟩ := bind_eq_ok hexec
    obtain ⟨written, hwrite, hexec⟩ := bind_eq_ok hexec
    cases hexec
    -- a row is updated by what columns hold, or is left
    refine write hwrite fun x hx => ?_
    obtain ⟨y, hy, rfl⟩ := List.mem_map.mp hx
    exact stored_updating hending pausedAt endedAt (h.stored y hy)
  | finalizeExpired now =>
    simp only [Tables.exec] at hexec
    obtain ⟨ended, -, hexec⟩ := bind_eq_ok hexec
    obtain ⟨written, hwrite, hexec⟩ := bind_eq_ok hexec
    cases hexec
    refine write hwrite fun x hx => ?_
    obtain ⟨y, hy, rfl⟩ := List.mem_map.mp hx
    have hstored := h.stored y hy
    split
    · exact ⟨hstored.ends, hstored.paused⟩
    · exact hstored

end Sound

end Tables

/-! ## Runs -/

/-- The tables are sound, and those to which a transaction under way may be rolled back. -/
structure Database.Sound (d : Database) : Prop where
  tables : d.tables.Sound
  saved : ∀ t, d.saved = some t → t.Sound

namespace Database

variable {choice : Choice} {d : Database}

theorem Sound.answer (h : d.Sound) (c : Call) : (Database.answer choice c d).2.Sound := by
  cases c with
  | start => exact ⟨h.tables, by rintro t ⟨⟩; exact h.tables⟩
  | commit => exact ⟨h.tables, by rintro t ⟨⟩⟩
  | createTables => exact h
  | rollback =>
    -- a rollback goes back to what was saved, which is sound as well
    refine ⟨?_, by rintro t ⟨⟩⟩
    cases hsaved : d.saved with
    | none => simpa [Database.answer, hsaved] using h.tables
    | some t => simpa [Database.answer, hsaved] using h.saved t hsaved
  | execute s =>
    simp only [Database.answer]
    cases hexec : d.tables.exec choice s with
    | error code => exact h
    | ok x =>
      obtain ⟨result, t'⟩ := x
      exact ⟨h.tables.exec hexec, h.saved⟩

theorem Sound.run {α : Type} (h : d.Sound) (p : Program Calls α) :
    (Program.run (S := Calls) (Database.answer choice) p d).2.Sound := by
  induction p generalizing d with
  | done a => exact h
  | ask c next ih => exact ih _ (h.answer c)

end Database

namespace Tables

variable {choice : Choice} {t : Tables}

theorem Sound.performed {α : Type} (h : t.Sound) (f : α → Reply) (p : Exchange α) :
    (performed choice f p t).2.Sound := by
  have hdatabase : Database.Sound ⟨t, none⟩ := ⟨h, by rintro t ⟨⟩⟩
  exact (hdatabase.run p.run).tables

theorem Sound.onTables (h : t.Sound) (request : Request) (id : SessionId) (now : Instant) :
    (request.onTables choice id now t).2.Sound := by
  cases request with
  | assign room customer duration => exact h.performed _ _
  | apply room tr => exact h.performed _ _
  | finalizeExpired => exact h.performed _ _
  | view room => exact h.performed _ _
  | views rooms => exact h.performed _ _

/-- The tables after any requests at any instants. The database chooses anew on each of them. -/
inductive Reached (first : Tables) : Tables → Prop where
  | start : Reached first first
  | serve {t : Tables} (h : Reached first t) (choice : Choice) (request : Request) (id : SessionId)
      (now : Instant) : Reached first (request.onTables choice id now t).2

/-- Tables that started with no sessions are sound. -/
theorem Reached.sound {seed : Seed} (h : Reached (ofSeed seed) t) : t.Sound := by
  induction h with
  | start => exact ⟨by simp [ofSeed], by simp [ofSeed], by simp [ofSeed], by simp [ofSeed]⟩
  | serve _ choice request id now ih => exact ih.onTables request id now

/-! ## The open session of a room -/

theorem mem_history {room : RoomId} {x : Session} : x ∈ t.history room ↔ x ∈ t.sessions ∧ x.room = room := by
  rw [history, List.mem_filter, decide_eq_true_eq]

theorem mem_opened {room : RoomId} {x : Session} :
    x ∈ t.opened room ↔ x ∈ t.history room ∧ x.status.isOpen = true :=
  List.mem_filter

/-- Beside an open session of a room all others have ended. -/
theorem Sound.ended (h : t.Sound) {room : RoomId} {x z : Session} (hx : x ∈ t.opened room)
    (hz : z ∈ t.history room) (hne : z ≠ x) : z.status.isOpen = false := by
  obtain ⟨hx, hopen⟩ := mem_opened.mp hx
  rw [mem_history] at hx hz
  have hapart : Apart z x := h.apart.forall hz.1 hx.1 hne
  exact Bool.eq_false_iff.mpr fun hzopen => hapart.2 ⟨hzopen, hopen, hz.2.trans hx.2.symm⟩

section

variable (s : Session) (ending : Instant) (pausedAt endedAt : Option Instant) (y : Session)

theorem id_updating : (updating s ending pausedAt endedAt y).id = y.id := by
  unfold updating
  split <;> rfl

theorem room_updating : (updating s ending pausedAt endedAt y).room = y.room := by
  unfold updating
  split <;> rfl

/-- No row is opened by an update. -/
theorem isOpen_of_updating (h : (updating s ending pausedAt endedAt y).status.isOpen = true) :
    y.status.isOpen = true := by
  unfold updating at h
  split at h
  · rename_i hopen
    exact hopen.2
  · exact h

end

/-- A session that is closed can be written. -/
theorem Sound.write_closed (h : t.Sound) {x : Session} (hx : x ∈ t.sessions) {status : SessionStatus}
    (terminal : status.isTerminal = true) (now ended : Instant) :
    let next := x.close status now
    let row := updating next x.scheduledEndAt none (some ended)
    t.write (t.sessions.map row) = .ok { t with sessions := t.sessions.map row } := by
  intro next row
  have hne : status ≠ .paused := by
    rintro rfl
    cases terminal
  refine write_eq_ok (fun s hs => ?_) ?_ (fun s hs => ?_)
  · obtain ⟨y, hy, rfl⟩ := List.mem_map.mp hs
    simp only [row, updating]
    split
    · rename_i hcond
      -- numbers tell that it is the session itself
      have hyx : y = x := by
        by_contra hyx
        exact (h.apart.forall hy hx hyx).1 hcond.1
      subst hyx
      exact ⟨(h.checked y hy).1, by simp [next, Session.close, hne]⟩
    · exact h.checked y hy
  -- numbers and rooms stay, and no more rows are open than before
  · refine List.pairwise_map.mpr (h.apart.imp fun {a b} hab => ⟨?_, ?_⟩)
    · rw [id_updating, id_updating]
      exact hab.1
    · rintro ⟨ha, hb, hrooms⟩
      rw [room_updating, room_updating] at hrooms
      exact hab.2 ⟨isOpen_of_updating _ _ _ _ _ ha, isOpen_of_updating _ _ _ _ _ hb, hrooms⟩
  · obtain ⟨y, hy, rfl⟩ := List.mem_map.mp hs
    rw [room_updating]
    exact h.housed y hy

end Tables

/-! ## Transitions -/

section

variable {choice : Choice} {t : Tables} {room : RoomId} {x : Session} {now : Instant}

/-- A transition is applied to the session that is found to have started last. -/
theorem Tables.Sound.onTables_apply (h : t.Sound) {z : Session} (hz : choice.latest (t.history room) = some z)
    (tr : Transition) (id : SessionId) (now : Instant) :
    ∃ device, ((Request.apply room tr).onTables choice id now t).1 =
      match z.apply tr now with
      | .error e => .error (.refused e)
      | .ok next =>
        match t.exec choice (.update next) with
        | .error code => .error (.database code)
        | .ok (result, _) =>
          if result.touched = 0 then
            .error (.refused (.invalidState room tr.verb "session changed concurrently"))
          else .ok (.committed ⟨next, device⟩) := by
  have hstored : z ∈ t.sessions ∧ z.room = room :=
    Tables.mem_history.mp (choice.mem_of_latest _ z hz)
  -- a stored row has whole milliseconds of pauses, and so it is read as it is
  have hrun := run_applyStatements choice t room tr now (some t) fun y hy => by
    cases hz.symm.trans hy
    exact (h.stored z hstored.1).paused
  have hhoused : t.room? room ≠ none := hstored.2 ▸ h.housed z hstored.1
  obtain ⟨r, hr⟩ := Option.ne_none_iff_exists'.mp hhoused
  refine ⟨r.device, ?_⟩
  have htables : ∀ {a t'},
      Database.run choice (applyStatements room tr now) ⟨t, some t⟩ = (a, ⟨t', some t⟩) →
      ((Request.apply room tr).onTables choice id now t).1 = a.map .committed :=
    fun hrun => congrArg Prod.fst (performed_transaction hrun)
  simp only [hr, hz] at hrun
  cases hmove : z.apply tr now with
  | error e =>
    simp only [hmove] at hrun
    exact htables hrun
  | ok next =>
    simp only [hmove] at hrun
    dsimp only
    cases hexec : t.exec choice (.update next) with
    | error code =>
      rw [hexec] at hrun
      exact htables hrun
    | ok written =>
      rw [hexec] at hrun
      dsimp only at hrun ⊢
      by_cases htouched : written.1.touched = 0
      · rw [if_pos htouched] at hrun ⊢
        exact htables hrun
      · rw [if_neg htouched] at hrun ⊢
        exact htables hrun

/-- An open session that is closed is updated. -/
theorem Tables.Sound.exec_closed (h : t.Sound) (choice : Choice) (hx : x ∈ t.opened room)
    {status : SessionStatus} (terminal : status.isTerminal = true) (hlate : earliest ≤ now) :
    ∃ result t', t.exec choice (.update (x.close status now)) = .ok (result, t') ∧ result.touched ≠ 0 := by
  obtain ⟨hhistory, hopen⟩ := Tables.mem_opened.mp hx
  have hmem : x ∈ t.sessions := (Tables.mem_history.mp hhistory).1
  have hwrite := h.write_closed hmem terminal now (cut now)
  have hexec : t.exec choice (.update (x.close status now)) =
      .ok ({ touched := (t.sessions.filter fun y => y.id = x.id ∧ y.status.isOpen).length },
        { t with sessions :=
            t.sessions.map (Tables.updating (x.close status now) x.scheduledEndAt none (some (cut now))) }) := by
    have hended : column? (x.close status now).endedAt = .ok (some (cut now)) :=
      -- the end that is stored can be stored again
      congrArg (Except.map some) (column_of_late hlate)
    have hends : column (x.close status now).scheduledEndAt = .ok x.scheduledEndAt := (h.stored x hmem).ends
    have hpaused : column? (x.close status now).pausedAt = .ok none := rfl
    simp only [Tables.exec, hends, hpaused, hended, bind, Except.bind, hwrite]
    rfl
  refine ⟨_, _, hexec, Nat.ne_of_gt (List.length_pos_of_mem (a := x) ?_)⟩
  exact List.mem_filter.mpr ⟨hmem, by simp [hopen]⟩

theorem apply_of_ended {z : Session} (hended : z.status.isOpen = false) (tr : Transition) (now : Instant) :
    z.apply tr now = .error (z.rejected tr) := by
  refine Session.apply_of_forbidden now ?_
  rw [SessionStatus.phase_eq_idle_iff.mpr hended]
  cases tr <;> rfl

/-- What cancel and finalize make of an open session. -/
theorem apply_of_closing (hopen : x.status.isOpen = true) {tr : Transition} (closing : tr = .cancel ∨ tr = .finalize)
    (now : Instant) : ∃ status, status.isTerminal = true ∧ x.apply tr now = .ok (x.close status now) := by
  rcases closing with rfl | rfl
  · exact ⟨.cancelled, rfl, by simp [Session.apply, hopen]⟩
  · exact ⟨.finalized, rfl, by simp [Session.apply, hopen]⟩

end

/-! ## Conflicts -/

section

variable {choice : Choice} {t : Tables} {room : RoomId}

/-- Only sessions that are not apart are in conflict. -/
theorem Tables.of_write_conflict {sessions : List Session} (h : t.write sessions = .error "23505") :
    ¬ sessions.Pairwise Tables.Apart := by
  intro apart
  unfold Tables.write at h
  rw [if_neg (not_not_intro apart)] at h
  split at h
  · exact absurd (Except.error.inj h) (by decide)
  -- the other failures have other codes
  · split at h
    · exact absurd (Except.error.inj h) (by decide)
    · cases h

/-- A session under a new number is only in conflict with one that is open in its room. -/
theorem Tables.Sound.opened_of_insert_conflict (h : t.Sound) {s : Session} (fresh : ∀ y ∈ t.sessions, y.id ≠ s.id)
    (hexec : t.exec choice (.insert s) = .error "23505") : ∃ x, x ∈ t.opened s.room := by
  simp only [Tables.exec, column] at hexec
  split at hexec
  · split at hexec
    · simp only [bind, Except.bind] at hexec
      split at hexec
      · rename_i code hwrite
        cases hexec
        by_contra hfree
        -- without an open session in its room the new row is apart from all others
        refine Tables.of_write_conflict hwrite (List.pairwise_append.mpr ⟨h.apart, List.pairwise_singleton _ _, ?_⟩)
        intro y hy z hz
        rw [List.mem_singleton.mp hz]
        refine ⟨fresh y hy, ?_⟩
        rintro ⟨hopen, -, hroom⟩
        exact hfree ⟨y, Tables.mem_opened.mpr ⟨Tables.mem_history.mpr ⟨hy, hroom⟩, hopen⟩⟩
      · cases hexec
    · exact absurd (Except.error.inj hexec) (by decide)
  · exact absurd (Except.error.inj hexec) (by decide)

/-- An assignment is only in conflict with a session that is open. -/
theorem Tables.Sound.opened_of_conflict (h : t.Sound) {id : SessionId} (fresh : ∀ y ∈ t.sessions, y.id ≠ id)
    {customer : Option Word} {duration : Word} {now : Instant}
    (hconflict : ((Request.assign room customer duration).onTables choice id now t).1 =
      .error (.refused (.conflict room))) : ∃ x, x ∈ t.opened room := by
  cases hbook : Session.book id room customer duration now with
  | error e =>
    have hrun : Database.run choice (Postgres.assign id room customer duration now) ⟨t, none⟩ =
        (.error (.refused e), ⟨t, none⟩) := by
      rw [assign_eq, Database.run_given_bind, hbook]
      rfl
    -- an invalid duration is no conflict
    obtain ⟨detail, rfl⟩ := Session.book_error hbook
    cases (congrArg Prod.fst (performed_of_run (f := Reply.committed) hrun)).symm.trans hconflict
  | ok session =>
    have htransaction :
        Postgres.assign id room customer duration now = transaction (assignStatements room session) := by
      rw [assign_eq, hbook]
      rfl
    simp only [Request.onTables, htransaction] at hconflict
    have htables : ∀ {a t'},
        Database.run choice (assignStatements room session) ⟨t, some t⟩ = (a, ⟨t', some t⟩) →
        a.map Reply.committed = .error (.refused (.conflict room)) :=
      fun hrun => (congrArg Prod.fst (performed_transaction hrun)).symm.trans hconflict
    -- of all the ways in which an assignment can end, two are a conflict: the query for an open session
    -- has found one, or the insert has met one
    have hrun := run_assignStatements choice t room session (some t)
    split at hrun
    · cases htables hrun
    · split at hrun
      · cases htables hrun
      · split at hrun
        · rename_i hoccupied
          exact List.exists_mem_of_ne_nil _ hoccupied
        · split at hrun
          · cases htables hrun
          · rename_i code hexec
            by_cases hcode : code = "23505"
            · have hroom : session.room = room := by
                obtain ⟨-, -, _, -, rfl⟩ := Session.book_eq_ok hbook
                rfl
              rw [← hroom]
              rw [hcode] at hexec
              exact h.opened_of_insert_conflict (by rwa [Session.id_of_book hbook]) hexec
            · rw [if_neg hcode] at hrun
              cases htables hrun

end

/-! ## Which session is operable -/

/-- The tables after a run have been reached. -/
theorem Tables.reached_conduct {first t : Tables} (h : Tables.Reached first t) (choice : Choice)
    (ids : Nat → SessionId) (n : Nat) (run : Run) :
    Tables.Reached first (conduct (Request.onTables choice) ids n t run).2 := by
  induction run generalizing t n with
  | nil => exact h
  | cons x rest ih => exact ih (h.serve choice x.1 (ids n) x.2) (n + 1)

/-- **Which open session is operable.** Tables are filled from a seed and reached by any requests at any
instants. A room in which an assignment is in conflict has an open session. Whatever the database chooses, a
transition of the room finds this session exactly if every other session of the room started earlier. It is
cancelled and finalized, at any instant that columns hold, exactly if it is found. -/
theorem operable_iff {seed : Seed} {t : Tables} (reached : Tables.Reached (Tables.ofSeed seed) t) (room : RoomId) :
    (∀ {choice id customer duration now}, (∀ y ∈ t.sessions, y.id ≠ id) →
      ((Request.assign room customer duration).onTables choice id now t).1 =
        .error (.refused (.conflict room)) → ∃ x, x ∈ t.opened room) ∧
    ∀ x ∈ t.opened room,
      ((∀ choice : Choice, choice.latest (t.history room) = some x) ↔
        ∀ y ∈ t.history room, y ≠ x → y.startedAt < x.startedAt) ∧
      ∀ choice tr id now, tr = .cancel ∨ tr = .finalize → earliest ≤ now →
        ((∃ c, ((Request.apply room tr).onTables choice id now t).1 = .ok (.committed c)) ↔
          -- a conflict needs an open session, and a closing needs that the latest row is that session
          choice.latest (t.history room) = some x) := by
  have sound := reached.sound
  refine ⟨fun fresh hconflict => sound.opened_of_conflict fresh hconflict, fun x hx => ?_⟩
  obtain ⟨hhistory, hopen⟩ := Tables.mem_opened.mp hx
  refine ⟨Choice.forall_latest_iff hhistory, fun choice tr id now closing hlate => ?_⟩
  cases hlatest : choice.latest (t.history room) with
  | none =>
    rw [choice.eq_nil_of_latest _ hlatest] at hhistory
    cases hhistory
  | some z =>
    obtain ⟨device, hanswer⟩ := sound.onTables_apply hlatest tr id now
    rw [hanswer]
    constructor
    · -- another session has ended and refuses
      rintro ⟨c, hc⟩
      by_contra hne
      have hended := sound.ended hx (choice.mem_of_latest _ z hlatest) fun heq => hne (congrArg some heq)
      rw [apply_of_ended hended] at hc
      cases hc
    · intro heq
      cases heq
      obtain ⟨status, terminal, hclose⟩ := apply_of_closing hopen closing now
      obtain ⟨result, t', hexec, htouched⟩ := sound.exec_closed choice hx terminal hlate
      rw [hclose]
      simp only [hexec, if_neg htouched]
      exact ⟨_, rfl⟩

/-- The harbour is let again after a cancellation, and then cancelled again. -/
theorem operable_iff_harbour :
    let second (n : Fin 60) : Instant := ⟨n * 1000000000, Instant.second_inRange n⟩
    let run : Run :=
      [(.assign 5 none 15, second 20), (.apply 5 .cancel, second 30), (.assign 5 none 15, second 40)]
    let t := (conduct (Request.onTables .first) serial 0 (Tables.ofSeed harbourAndGarden) run).2
    let x : Session := ⟨serial 2, 5, none, second 40, second 55, none, .zero, .inUse, 0, none⟩
    x ∈ t.opened 5 ∧ (∀ choice : Choice, choice.latest (t.history 5) = some x) ∧
      ∃ c, ((Request.apply 5 .cancel).onTables .first (serial 3) (second 50) t).1 = .ok (.committed c) := by
  intro second run t x
  have hx : x ∈ t.opened 5 := by decide +kernel
  -- the second session started later than the first
  have hordered : ∀ y ∈ t.history 5, y ≠ x → y.startedAt < x.startedAt := by decide +kernel
  obtain ⟨hfound, hclosed⟩ := (operable_iff (Tables.reached_conduct .start .first serial 0 run) 5).2 x hx
  have hlatest := hfound.mpr hordered
  exact ⟨hx, hlatest, (hclosed .first .cancel (serial 3) (second 50) (.inl rfl) (by decide)).mpr (hlatest .first)⟩

/-- Why a request is refused, if it is. -/
def Answer.refusal : Answer → Option RoomError
  | .error (.refused e) => some e
  | _ => none

/-- The harbour is let and cancelled, the clock is set back, and the harbour is let again. The session is in the
way of any other and cannot be cancelled or finalized: the one that was cancelled is found instead. -/
theorem not_always_operable :
    let second (n : Fin 60) : Instant := ⟨n * 1000000000, Instant.second_inRange n⟩
    let run : Run :=
      [(.assign 5 none 15, second 40), (.apply 5 .cancel, second 41), (.assign 5 none 15, second 20)]
    let t := (conduct (Request.onTables .first) serial 0 (Tables.ofSeed harbourAndGarden) run).2
    let refusal (request : Request) := (request.onTables .first (serial 3) (second 21) t).1.refusal
    (t.opened 5).map (·.id) = [serial 2] ∧
      refusal (.assign 5 none 15) = some (.conflict 5) ∧
      refusal (.apply 5 .cancel) = some (.invalidState 5 .cancel "session is cancelled") ∧
      refusal (.apply 5 .finalize) = some (.invalidState 5 .finalize "session is cancelled") := by
  decide +kernel

end Occupancy.Postgres
