import Mathlib.Data.List.Forall2
import Occupancy.Proofs.Store.Machine

/-!
# Rooms are independent

What a store has and answers for one room depends on the commands for that room alone. Two runs from the
same seed are compared that agree on these commands, whatever else they do to other rooms and to devices.
The numbers of new sessions are drawn at random, so the runs agree up to them: the numbers in one run are
related to those in the other in a given way, and then so are they in all that is stored and answered.
Main statement: `rooms_independent`.
-/

namespace Occupancy

variable {R : SessionId → SessionId → Prop} {room : RoomId}

/-! ## Lists -/

theorem forall₂_getLast? {α β : Type} {P : α → β → Prop} {l : List α} {l' : List β}
    (h : List.Forall₂ P l l') : Option.Rel P l.getLast? l'.getLast? := by
  induction h with
  | nil => exact .none
  | @cons a b l l' hab h ih =>
    cases h with
    | nil => exact .some hab
    | cons => simpa only [List.getLast?_cons_cons] using ih

/-- Of a list with distinct keys, a filter for one key leaves the entry with that key, if there is one. -/
theorem filter_eq_toList {α κ : Type} [DecidableEq κ] {key : α → κ} {l : List α}
    (distinct : (l.map key).Nodup) {k : κ} {o : Option α} (h : ∀ a, a ∈ l ∧ key a = k ↔ o = some a) :
    l.filter (key · = k) = o.toList := by
  induction l generalizing o with
  | nil =>
    cases o with
    | none => rfl
    | some a => cases ((h a).mpr rfl).1
  | cons b l ih =>
    rw [List.map_cons, List.nodup_cons] at distinct
    by_cases hb : key b = k
    · -- the key does not come again
      obtain rfl := (h b).mp ⟨List.mem_cons_self, hb⟩
      have hrest : l.filter (key · = k) = [] := by
        refine List.filter_eq_nil_iff.mpr fun a ha hk => distinct.1 ?_
        rw [hb, ← of_decide_eq_true hk]
        exact List.mem_map_of_mem ha
      rw [List.filter_cons_of_pos (by simpa using hb), hrest, Option.toList_some]
    · rw [List.filter_cons_of_neg (by simpa using hb)]
      refine ih distinct.2 fun a => ?_
      rw [← h a, List.mem_cons]
      constructor
      · rintro ⟨ha, hk⟩
        exact ⟨.inr ha, hk⟩
      · rintro ⟨rfl | ha, hk⟩
        · exact absurd hk hb
        · exact ⟨ha, hk⟩

/-! ## Sessions under other numbers -/

namespace Session

/-- The session under another number. -/
def withId (s : Session) (id : SessionId) : Session :=
  { s with id }

/-- Sessions that differ in nothing but their numbers, which are related. -/
inductive Alike (R : SessionId → SessionId → Prop) (s : Session) : Session → Prop where
  | mk {id : SessionId} (related : R s.id id) : Alike R s (s.withId id)

/-- No transition looks at the number of a session. -/
theorem apply_withId (s : Session) (id : SessionId) (t : Transition) (now : Instant) :
    (s.withId id).apply t now = (s.apply t now).map (·.withId id) := by
  -- the transitions read every field but the number
  unfold apply
  rw [show (s.withId id).status = s.status from rfl]
  split
  · rw [show (s.withId id).pausedAt = s.pausedAt from rfl]
    split <;> rfl
  · rfl
  · rw [show (s.withId id).shiftedEnd _ = s.shiftedEnd _ from rfl]
    cases s.shiftedEnd _ <;> rfl
  · split <;> rfl
  · split <;> rfl
  · rfl

theorem id_of_apply {s next : Session} {t : Transition} {now : Instant}
    (h : s.apply t now = .ok next) : next.id = s.id := by
  cases move_of_apply h <;> rfl

theorem book_withId (id id' : SessionId) (customer : Option Word) (duration : Word) (now : Instant) :
    book id' room customer duration now = (book id room customer duration now).map (·.withId id') := by
  unfold book
  split
  · rfl
  · split
    · rfl
    · split <;> rfl

theorem id_of_book {id : SessionId} {customer : Option Word} {duration : Word} {now : Instant}
    {s : Session} (h : book id room customer duration now = .ok s) : s.id = id := by
  obtain ⟨-, -, ending, -, rfl⟩ := book_eq_ok h
  rfl

/-- Sessions that are alike stay so under a transition, and fail for the same reason. -/
theorem Alike.apply {s s' : Session} (h : s.Alike R s') (t : Transition) (now : Instant) :
    (∃ e, s.apply t now = .error e ∧ s'.apply t now = .error e) ∨
    ∃ next next', s.apply t now = .ok next ∧ s'.apply t now = .ok next' ∧ next.Alike R next' := by
  obtain ⟨related⟩ := h
  rw [apply_withId]
  cases happly : s.apply t now with
  | error e => exact .inl ⟨e, rfl, rfl⟩
  | ok next =>
    rw [← id_of_apply happly] at related
    exact .inr ⟨next, _, rfl, rfl, .mk related⟩

/-- Expiry finalizes both of two sessions that are alike, or neither. -/
theorem Alike.expire? {s s' : Session} (h : s.Alike R s') (now : Instant) :
    Option.Rel (Session.Alike R) (s.expire? now) (s'.expire? now) := by
  cases h with
  | @mk id related =>
    unfold Session.expire?
    rw [show (s.withId id).isExpired now = s.isExpired now from rfl]
    split
    · exact .some (.mk related)
    · exact .none

/-- Bookings under related numbers are alike, or fail for the same reason. -/
theorem alike_book {id id' : SessionId} (related : R id id') (room : RoomId) (customer : Option Word)
    (duration : Word) (now : Instant) :
    (∃ e, book id room customer duration now = .error e ∧
      book id' room customer duration now = .error e) ∨
    ∃ s s', book id room customer duration now = .ok s ∧
      book id' room customer duration now = .ok s' ∧ s.Alike R s' := by
  rw [book_withId id id']
  cases hbook : book id room customer duration now with
  | error e => exact .inl ⟨e, rfl, rfl⟩
  | ok s =>
    rw [← id_of_book hbook] at related
    exact .inr ⟨s, _, rfl, rfl, .mk related⟩

end Session

/-! ## What is alike -/

/-- Commits that differ in nothing but the numbers of their sessions. -/
inductive Commit.Alike (R : SessionId → SessionId → Prop) (c : Commit) : Commit → Prop where
  | mk {session : Session} (alike : c.session.Alike R session) : Alike R c { c with session }

/-- Records of one room whose sessions are alike, row by row. -/
inductive RoomRecord.Alike (R : SessionId → SessionId → Prop) (r : RoomRecord) :
    RoomRecord → Prop where
  | mk {history : List Session} (alike : List.Forall₂ (Session.Alike R) r.history history) :
      Alike R r { r with history }

/-- Views of one room that differ in nothing but the device and the number of the session. -/
inductive RoomView.Alike (R : SessionId → SessionId → Prop) (v : RoomView) : RoomView → Prop where
  | idle (device : Option Device) (free : v.session = none) : Alike R v { v with device }
  | occupied (device : Option Device) {session : SessionView} {id : SessionId}
      (shown : v.session = some session) (related : R session.id id) :
      Alike R v { v with device, session := some { session with id } }

/-- Readings of one room that are alike: both succeed, or both fail for the same reason. -/
inductive RoomView.ReadAlike (R : SessionId → SessionId → Prop) :
    Except ViewError RoomView → Except ViewError RoomView → Prop where
  | ok {v v' : RoomView} (alike : v.Alike R v') : ReadAlike R (.ok v) (.ok v')
  | error (e : ViewError) : ReadAlike R (.error e) (.error e)

/-- Commands that differ in nothing but the number of a new session. -/
inductive Command.Alike (R : SessionId → SessionId → Prop) : Command → Command → Prop where
  | assign {id id' : SessionId} (related : R id id') (room : RoomId) (customer : Option Word)
      (duration : Word) (now : Instant) :
      Alike R (.assign id room customer duration now) (.assign id' room customer duration now)
  | apply (room : RoomId) (t : Transition) (now : Instant) :
      Alike R (.apply room t now) (.apply room t now)
  | finalizeExpired (now : Instant) : Alike R (.finalizeExpired now) (.finalizeExpired now)
  | bill (room : RoomId) (cost : Word) : Alike R (.bill room cost) (.bill room cost)
  | insertRoom (room : Room) : Alike R (.insertRoom room) (.insertRoom room)
  | insertDevice (device : Device) : Alike R (.insertDevice device) (.insertDevice device)
  | setActive (device : DeviceId) (active : Bool) :
      Alike R (.setActive device active) (.setActive device active)

/-- The part of a batch that is about one room. -/
def Commit.inRoom (room : RoomId) (cs : List Commit) : List Commit :=
  cs.filter (·.session.room = room)

/-- Answers that are alike, as far as they are about one room. -/
inductive Outcome.Alike (R : SessionId → SessionId → Prop) (room : RoomId) :
    Outcome → Outcome → Prop where
  | done : Alike R room .done .done
  | refused (e : RoomError) : Alike R room (.refused e) (.refused e)
  | committed {c c' : Commit} (alike : c.Alike R c') : Alike R room (.committed c) (.committed c')
  | finalized {cs cs' : List Commit}
      (alike : List.Forall₂ (Commit.Alike R) (Commit.inRoom room cs) (Commit.inRoom room cs')) :
      Alike R room (.finalized cs) (.finalized cs')

/-- Is a command about a room, or about all rooms? -/
def Command.Concerns (room : RoomId) : Command → Prop
  | .assign _ key _ _ _ => key = room
  | .apply key _ _ => key = room
  | .finalizeExpired _ => True
  | .bill key _ => key = room
  | .insertRoom description => description.id = room
  | .insertDevice _ => False
  | .setActive _ _ => False

instance (room : RoomId) : DecidablePred (Command.Concerns room)
  | .assign _ _ _ _ _ => inferInstanceAs (Decidable (_ = _))
  | .apply _ _ _ => inferInstanceAs (Decidable (_ = _))
  | .finalizeExpired _ => inferInstanceAs (Decidable True)
  | .bill _ _ => inferInstanceAs (Decidable (_ = _))
  | .insertRoom _ => inferInstanceAs (Decidable (_ = _))
  | .insertDevice _ => inferInstanceAs (Decidable False)
  | .setActive _ _ => inferInstanceAs (Decidable False)

def Command.about (room : RoomId) (commands : List Command) : List Command :=
  commands.filter fun c => c.Concerns room

/-! ## Records that are alike -/

namespace RoomRecord

namespace Alike

variable {r r' : RoomRecord}

theorem room_eq (h : r.Alike R r') : r'.room = r.room := by
  cases h
  rfl

theorem current? (h : r.Alike R r') : Option.Rel (Session.Alike R) r.current? r'.current? := by
  obtain ⟨alike⟩ := h
  exact forall₂_getLast? alike

theorem open? (h : r.Alike R r') : Option.Rel (Session.Alike R) r.open? r'.open? := by
  have hcurrent := h.current?
  unfold RoomRecord.open?
  generalize r.current? = c at hcurrent
  generalize r'.current? = c' at hcurrent
  cases hcurrent with
  | none => exact .none
  | @some s _ alike =>
    cases alike with
    | @mk id related =>
      -- two sessions that differ in their number are open together
      rw [Option.filter_some, Option.filter_some, show (s.withId id).status = s.status from rfl]
      split
      · exact .some (.mk related)
      · exact .none

theorem isSome_open? (h : r.Alike R r') : r'.open?.isSome = r.open?.isSome := by
  have hopen := h.open?
  generalize r.open? = o at hopen
  generalize r'.open? = o' at hopen
  cases hopen <;> rfl

theorem append (h : r.Alike R r') {s s' : Session} (hs : s.Alike R s') :
    (r.append s).Alike R (r'.append s') := by
  obtain ⟨alike⟩ := h
  exact .mk (List.rel_append alike (.cons hs .nil))

theorem replaceCurrent (h : r.Alike R r') {s s' : Session} (hs : s.Alike R s') :
    (r.replaceCurrent s).Alike R (r'.replaceCurrent s') := by
  cases h with
  | @mk history alike =>
    have inner : List.Forall₂ (Session.Alike R) r.history.dropLast history.dropLast := by
      rw [List.dropLast_eq_take, List.dropLast_eq_take, ← alike.length_eq]
      exact List.forall₂_take _ alike
    exact .mk (List.rel_append inner (.cons hs .nil))

theorem expired? (h : r.Alike R r') (now : Instant) :
    Option.Rel (Session.Alike R) (r.expired? now) (r'.expired? now) := by
  have hcurrent := h.current?
  unfold RoomRecord.expired?
  generalize r.current? = c at hcurrent
  generalize r'.current? = c' at hcurrent
  cases hcurrent with
  | none => exact .none
  | some alike => exact alike.expire? now

theorem settle (h : r.Alike R r') (now : Instant) : (r.settle now).Alike R (r'.settle now) := by
  have hexpired := h.expired? now
  unfold RoomRecord.settle
  generalize r.expired? now = x at hexpired
  generalize r'.expired? now = x' at hexpired
  cases hexpired with
  | none => exact h
  | some alike => exact h.replaceCurrent alike

end Alike

end RoomRecord

/-! ## Stores that are alike in one room -/

namespace Store

/-- Two stores have records of a room that are alike, or both have none. -/
def AlikeAt (R : SessionId → SessionId → Prop) (room : RoomId) (s s' : Store) : Prop :=
  Option.Rel (RoomRecord.Alike R) (s.rooms.get? room) (s'.rooms.get? room)

/-- A command and a store do in a room what another command and another store do. -/
def Agree (R : SessionId → SessionId → Prop) (room : RoomId) (x y : Outcome × Store) : Prop :=
  x.1.Alike R room y.1 ∧ x.2.AlikeAt R room y.2

variable {s s' : Store}

/-- A command that is not about a room leaves its record alone. -/
theorem get?_execute_of_not_concerns {c : Command} (other : ¬ c.Concerns room) :
    (s.execute c).2.rooms.get? room = s.rooms.get? room := by
  obtain ⟨o, s', hexecute, h⟩ := s.exists_executes c
  rw [hexecute]
  cases h with
  | refused | installed | switched => rfl
  | assigned | applied | billed => exact (Table.get?_set _ _ _ _).trans (if_neg (Ne.symm other))
  | described => exact (Table.get?_set _ _ _ _).trans (if_neg (Ne.symm other))
  | finalized => exact absurd trivial other

theorem alikeAt_set {r r' : RoomRecord} (h : r.Alike R r') :
    AlikeAt R room { s with rooms := s.rooms.set room r } { s' with rooms := s'.rooms.set room r' } := by
  simpa only [AlikeAt, Table.get?_set, if_pos] using .some h

/-- Both stores know the room, or neither does. -/
theorem AlikeAt.cases (h : s.AlikeAt R room s') :
    (s.rooms.get? room = none ∧ s'.rooms.get? room = none) ∨
    ∃ r r', s.rooms.get? room = some r ∧ s'.rooms.get? room = some r' ∧ r.Alike R r' := by
  unfold AlikeAt at h
  generalize s.rooms.get? room = x at h
  generalize s'.rooms.get? room = x' at h
  cases h with
  | none => exact .inl ⟨rfl, rfl⟩
  | @some r r' alike => exact .inr ⟨r, r', rfl, rfl, alike⟩

/-- An assignment in a room that the store knows. -/
theorem execute_assign {r : RoomRecord} (hr : s.rooms.get? room = some r) (id : SessionId)
    (customer : Option Word) (duration : Word) (now : Instant) :
    s.execute (.assign id room customer duration now) =
      if r.room.state = .deleted then (.refused (.noRoom room), s)
      else if r.open?.isSome then (.refused (.conflict room), s)
      else
        match Session.book id room customer duration now with
        | .error e => (.refused e, s)
        | .ok session => (.committed ⟨session, r.room.device⟩,
            { s with rooms := s.rooms.set room (r.append session) }) := by
  simp only [execute, assign, hr]
  by_cases deleted : r.room.state = .deleted
  · simp [Option.filter, deleted]
  · by_cases taken : r.open?.isSome = true
    · simp [Option.filter, deleted, taken]
    · cases Session.book id room customer duration now <;> simp [Option.filter, deleted, taken]

theorem agree_assign (h : s.AlikeAt R room s') {id id' : SessionId} (related : R id id')
    (customer : Option Word) (duration : Word) (now : Instant) :
    Agree R room (s.execute (.assign id room customer duration now))
      (s'.execute (.assign id' room customer duration now)) := by
  rcases h.cases with ⟨hr, hr'⟩ | ⟨r, r', hr, hr', alike⟩
  · simp only [execute, assign, hr, hr', Option.filter_none]
    exact ⟨.refused _, h⟩
  · rw [execute_assign hr, execute_assign hr', alike.room_eq, alike.isSome_open?]
    split
    · exact ⟨.refused _, h⟩
    · split
      · exact ⟨.refused _, h⟩
      · -- the booking is the same but for the number
        rcases Session.alike_book related room customer duration now with
          ⟨e, hbook, hbook'⟩ | ⟨session, session', hbook, hbook', booked⟩
        · rw [hbook, hbook']
          exact ⟨.refused e, h⟩
        · rw [hbook, hbook']
          exact ⟨.committed (.mk booked), alikeAt_set (alike.append booked)⟩

theorem agree_apply (h : s.AlikeAt R room s') (t : Transition) (now : Instant) :
    Agree R room (s.execute (.apply room t now)) (s'.execute (.apply room t now)) := by
  rcases h.cases with ⟨hr, hr'⟩ | ⟨r, r', hr, hr', alike⟩
  · simp only [execute, apply, hr, hr']
    exact ⟨.refused _, h⟩
  · simp only [execute, apply, hr, hr', alike.room_eq]
    -- the current sessions differ in their number at most
    have hcurrent := alike.current?
    generalize r.current? = c at hcurrent
    generalize r'.current? = c' at hcurrent
    cases hcurrent with
    | none => exact ⟨.refused _, h⟩
    | some current =>
      rcases current.apply t now with ⟨e, happly, happly'⟩ | ⟨next, next', happly, happly', moved⟩
      · simp only [happly, happly']
        exact ⟨.refused e, h⟩
      · simp only [happly, happly']
        exact ⟨.committed (.mk moved), alikeAt_set (alike.replaceCurrent moved)⟩

theorem agree_bill (h : s.AlikeAt R room s') (cost : Word) :
    Agree R room (s.execute (.bill room cost)) (s'.execute (.bill room cost)) := by
  rcases h.cases with ⟨hr, hr'⟩ | ⟨r, r', hr, hr', alike⟩
  · simp only [execute, bill, hr, hr']
    exact ⟨.refused _, h⟩
  · simp only [execute, bill, hr, hr']
    have hopen := alike.open?
    generalize r.open? = o at hopen
    generalize r'.open? = o' at hopen
    cases hopen with
    | none => exact ⟨.refused _, h⟩
    | some session =>
      obtain ⟨related⟩ := session
      exact ⟨.done, alikeAt_set (alike.replaceCurrent (.mk related))⟩

theorem agree_insertRoom {description : Room} (h : s.AlikeAt R description.id s') :
    Agree R description.id (s.execute (.insertRoom description))
      (s'.execute (.insertRoom description)) := by
  refine ⟨.done, alikeAt_set ?_⟩
  rcases h.cases with ⟨hr, hr'⟩ | ⟨r, r', hr, hr', alike⟩
  · rw [hr, hr']
    exact .mk .nil
  · rw [hr, hr']
    cases alike with
    | mk rows => exact .mk rows

/-- The part of a batch that is about a room is what expires there. -/
theorem inRoom_finalizeExpired (wf : s.EachRecord RoomRecord.WellFormed) (room : RoomId)
    (now : Instant) :
    Commit.inRoom room (s.finalizeExpired now).1 =
      ((s.rooms.get? room).bind fun r =>
        (r.expired? now).map fun session => Commit.mk session r.room.device).toList := by
  refine filter_eq_toList (nodup_rooms_finalizeExpired wf now) fun c => ?_
  rw [mem_finalizeExpired_iff wf, Option.bind_eq_some_iff]
  constructor
  · rintro ⟨⟨r, hr, hexpired, hdevice⟩, rfl⟩
    exact ⟨r, hr, by rw [hexpired, Option.map_some, ← hdevice]⟩
  · rintro ⟨r, hr, hc⟩
    obtain ⟨session, hexpired, rfl⟩ := Option.map_eq_some_iff.mp hc
    obtain rfl : session.room = room := (wf room r hr).room_of_expired? hexpired
    exact ⟨⟨r, hr, hexpired, rfl⟩, rfl⟩

theorem agree_finalizeExpired (wf : s.EachRecord RoomRecord.WellFormed)
    (wf' : s'.EachRecord RoomRecord.WellFormed) (h : s.AlikeAt R room s') (now : Instant) :
    Agree R room (s.execute (.finalizeExpired now)) (s'.execute (.finalizeExpired now)) := by
  constructor
  · -- each answer lists the room when its own session has expired, and they expire together
    refine .finalized ?_
    change List.Forall₂ _ (Commit.inRoom room (s.finalizeExpired now).1)
      (Commit.inRoom room (s'.finalizeExpired now).1)
    rw [inRoom_finalizeExpired wf, inRoom_finalizeExpired wf']
    rcases h.cases with ⟨hr, hr'⟩ | ⟨r, r', hr, hr', alike⟩
    · rw [hr, hr']
      exact .nil
    · rw [hr, hr', Option.bind_some, Option.bind_some, alike.room_eq]
      have hexpired := alike.expired? now
      generalize r.expired? now = x at hexpired
      generalize r'.expired? now = x' at hexpired
      cases hexpired with
      | none => exact .nil
      | some session => exact .cons (.mk session) .nil
  · -- the records settle to records that are alike
    rw [AlikeAt, execute, execute, get?_finalizeExpired, get?_finalizeExpired]
    rcases h.cases with ⟨hr, hr'⟩ | ⟨r, r', hr, hr', alike⟩
    · rw [hr, hr']
      exact .none
    · rw [hr, hr']
      exact .some (alike.settle now)

/-- Alike commands about a room come to the same there. -/
theorem agree_execute (wf : s.EachRecord RoomRecord.WellFormed)
    (wf' : s'.EachRecord RoomRecord.WellFormed) (h : s.AlikeAt R room s') {c c' : Command}
    (alike : c.Alike R c') (concerns : c.Concerns room) :
    Agree R room (s.execute c) (s'.execute c') := by
  cases alike with
  | assign related key customer duration now =>
    obtain rfl := concerns
    exact agree_assign h related customer duration now
  | apply key t now =>
    obtain rfl := concerns
    exact agree_apply h t now
  | finalizeExpired now => exact agree_finalizeExpired wf wf' h now
  | bill key cost =>
    obtain rfl := concerns
    exact agree_bill h cost
  | insertRoom description =>
    obtain rfl := concerns
    exact agree_insertRoom h
  | insertDevice | setActive => exact concerns.elim

/-- Alike records have alike views, apart from the devices. -/
theorem AlikeAt.view (h : s.AlikeAt R room s') (now : Instant) :
    RoomView.ReadAlike R (s.view room now) (s'.view room now) := by
  rcases h.cases with ⟨hr, hr'⟩ | ⟨r, r', hr, hr', alike⟩
  · simp only [Store.view, hr, hr']
    exact .error _
  · have hopen := alike.open?
    simp only [Store.view, hr, hr', alike.room_eq, RoomView.project?]
    change Option.Rel _ (r.current?.filter _) (r'.current?.filter _) at hopen
    generalize r.current?.filter _ = o at hopen
    generalize r'.current?.filter _ = o' at hopen
    cases hopen with
    | none => exact .ok (.idle _ rfl)
    | @some session _ alike =>
      cases alike with
      | @mk id related =>
        -- the billing clock does not look at the number
        dsimp only
        rw [show (session.withId id).elapsedBillable? now = session.elapsedBillable? now from rfl]
        cases session.elapsedBillable? now with
        | none => exact .error _
        | some elapsed =>
          exact .ok (@RoomView.Alike.occupied R _ (s'.linkedDevice? r.room) session.view id rfl related)

/-! ## Two runs -/

/-- Two runs side by side: what is not about the room is passed over on either side. -/
inductive Aligned (R : SessionId → SessionId → Prop) (room : RoomId) :
    List Command → List Command → Prop where
  | nil : Aligned R room [] []
  | left {c : Command} {cs cs' : List Command} (other : ¬ c.Concerns room)
      (rest : Aligned R room cs cs') : Aligned R room (c :: cs) cs'
  | right {c : Command} {cs cs' : List Command} (other : ¬ c.Concerns room)
      (rest : Aligned R room cs cs') : Aligned R room cs (c :: cs')
  | both {c c' : Command} {cs cs' : List Command} (concerns : c.Concerns room)
      (concerns' : c'.Concerns room) (alike : c.Alike R c') (rest : Aligned R room cs cs') :
      Aligned R room (c :: cs) (c' :: cs')

theorem aligned_of_about {cs cs' : List Command}
    (h : List.Forall₂ (Command.Alike R) (Command.about room cs) (Command.about room cs')) :
    Aligned R room cs cs' := by
  induction cs generalizing cs' with
  | nil =>
    -- the first run is over, so all that is left of the other is about other rooms
    induction cs' with
    | nil => exact .nil
    | cons c' cs' ih =>
      by_cases hc' : c'.Concerns room
      · rw [Command.about, Command.about, List.filter_cons_of_pos (by simpa using hc')] at h
        cases h
      · rw [Command.about, Command.about, List.filter_cons_of_neg (by simpa using hc')] at h
        exact .right hc' (ih h)
  | cons c cs ih =>
    by_cases hc : c.Concerns room
    · rw [Command.about, List.filter_cons_of_pos (by simpa using hc)] at h
      -- the other run comes to its own command about the room
      induction cs' with
      | nil => cases h
      | cons c' cs' ih' =>
        by_cases hc' : c'.Concerns room
        · rw [Command.about, List.filter_cons_of_pos (by simpa using hc')] at h
          cases h with
          | cons alike rest => exact .both hc hc' alike (ih rest)
        · rw [Command.about, List.filter_cons_of_neg (by simpa using hc')] at h
          exact .right hc' (ih' h)
    · rw [Command.about, List.filter_cons_of_neg (by simpa using hc)] at h
      exact .left hc (ih h)

/-- The commands about a room with their answers. -/
def answersAbout (s : Store) (room : RoomId) (commands : List Command) : List (Command × Outcome) :=
  (s.transcript commands).filter fun e => e.1.Concerns room

/-- Aligned runs leave alike records behind and give alike answers. -/
theorem alikeAt_after {cs cs' : List Command} (aligned : Aligned R room cs cs')
    (wf : s.EachRecord RoomRecord.WellFormed) (wf' : s'.EachRecord RoomRecord.WellFormed)
    (h : s.AlikeAt R room s') :
    (s.after cs).AlikeAt R room (s'.after cs') ∧
    List.Forall₂ (fun x y => x.1.Alike R y.1 ∧ x.2.Alike R room y.2)
      (s.answersAbout room cs) (s'.answersAbout room cs') := by
  induction aligned generalizing s s' with
  | nil => exact ⟨h, .nil⟩
  | @left c cs cs' other _ ih =>
    -- a command about another room leaves the record of this one
    have hnext : (s.execute c).2.AlikeAt R room s' := by
      rwa [AlikeAt, get?_execute_of_not_concerns other]
    rw [after_cons, answersAbout, transcript, List.filter_cons_of_neg (by simpa using other)]
    exact ih (wellFormed_execute wf c) wf' hnext
  | @right c cs cs' other _ ih =>
    have hnext : s.AlikeAt R room (s'.execute c).2 := by
      rwa [AlikeAt, get?_execute_of_not_concerns other]
    rw [after_cons, answersAbout, answersAbout, transcript,
      List.filter_cons_of_neg (by simpa using other)]
    exact ih wf (wellFormed_execute wf' c) hnext
  | @both c c' cs cs' concerns concerns' alike _ ih =>
    -- both runs meet a command about the room, and the answers agree
    obtain ⟨answer, hnext⟩ := agree_execute wf wf' h alike concerns
    obtain ⟨hafter, hrest⟩ := ih (wellFormed_execute wf c) (wellFormed_execute wf' c') hnext
    rw [after_cons, after_cons, answersAbout, answersAbout, transcript, transcript,
      List.filter_cons_of_pos (by simpa using concerns),
      List.filter_cons_of_pos (by simpa using concerns')]
    exact ⟨hafter, .cons ⟨alike, answer⟩ hrest⟩

/-- A fresh store is like itself, since it has no sessions yet. -/
theorem alikeAt_ofSeed (R : SessionId → SessionId → Prop) (seed : Seed) (room : RoomId) :
    (ofSeed seed).AlikeAt R room (ofSeed seed) := by
  unfold AlikeAt
  cases hr : (ofSeed seed).rooms.get? room with
  | none => exact .none
  | some r =>
    -- a seed brings rooms without sessions
    have hnil := (ofSeed_untouched seed).1 room r hr
    have hrows : List.Forall₂ (Session.Alike R) r.history r.history := by
      rw [hnil]
      exact .nil
    exact .some (.mk hrows)

/-- **Rooms are independent.** Let two runs from one seed agree on the commands about a room, up to the
numbers of new sessions, whatever else happens in them and in which order. Then they agree on the history
of the room, on the answers to all commands about it, each batch as far as it is about the room, and on
the view of the room at every instant, apart from the device; all of this up to the numbers of sessions,
which are related as those in the commands are. -/
theorem rooms_independent (seed : Seed) (room : RoomId) (R : SessionId → SessionId → Prop)
    {commands commands' : List Command}
    (same : List.Forall₂ (Command.Alike R) (Command.about room commands)
      (Command.about room commands')) :
    let s := (ofSeed seed).after commands
    let s' := (ofSeed seed).after commands'
    List.Forall₂ (Session.Alike R) (s.history room) (s'.history room) ∧
    List.Forall₂ (fun x y => x.1.Alike R y.1 ∧ x.2.Alike R room y.2)
      ((ofSeed seed).answersAbout room commands) ((ofSeed seed).answersAbout room commands') ∧
    ∀ now, RoomView.ReadAlike R (s.view room now) (s'.view room now) := by
  intro s s'
  have wf : (ofSeed seed).EachRecord RoomRecord.WellFormed := wellFormed_after seed []
  obtain ⟨alike, answers⟩ :=
    alikeAt_after (aligned_of_about same) wf wf (alikeAt_ofSeed R seed room)
  refine ⟨?_, answers, alike.view⟩
  rcases alike.cases with ⟨hr, hr'⟩ | ⟨r, r', hr, hr', records⟩
  · simp only [s, s', history, hr, hr']
    exact .nil
  · cases records with
    | mk rows => simpa only [s, s', history, hr, hr', Option.map_some, Option.getD_some] using rows

/-- Two rooms that share a device. -/
def twoRooms : Seed :=
  ⟨[⟨1, 1, "Harbour", .active, some 4⟩, ⟨2, 1, "Garden", .active, some 4⟩],
    [⟨4, "Lamp", none, false⟩]⟩

/-- A minute in the first room, with the expiry after it. -/
def quietHour : List Command :=
  [.assign ⟨1⟩ 1 none 60 .epoch, .finalizeExpired .last]

/-- The quiet hour, while the second room is let, cancelled and let again, and its lamp is switched on. -/
def busyHour : List Command :=
  [.assign ⟨5⟩ 2 none 90 .epoch, .setActive 4 true, .apply 2 .cancel .epoch,
   .assign ⟨6⟩ 1 none 60 .epoch, .assign ⟨7⟩ 2 none 30 .epoch, .finalizeExpired .last]

/-- The first room is let under another number in the busy hour, and nothing else differs in its history. -/
theorem rooms_independent_busyHour :
    List.Forall₂ (Command.Alike fun id id' => id = ⟨1⟩ ∧ id' = ⟨6⟩)
      (Command.about 1 quietHour) (Command.about 1 busyHour) ∧
    List.Forall₂ (Session.Alike fun id id' => id = ⟨1⟩ ∧ id' = ⟨6⟩)
      (((ofSeed twoRooms).after quietHour).history 1) (((ofSeed twoRooms).after busyHour).history 1) := by
  have same : List.Forall₂ (Command.Alike fun id id' => id = ⟨1⟩ ∧ id' = ⟨6⟩)
      (Command.about 1 quietHour) (Command.about 1 busyHour) :=
    .cons (.assign ⟨rfl, rfl⟩ 1 none 60 .epoch) (.cons (.finalizeExpired .last) .nil)
  exact ⟨same, (rooms_independent twoRooms 1 _ same).1⟩

end Store

end Occupancy
