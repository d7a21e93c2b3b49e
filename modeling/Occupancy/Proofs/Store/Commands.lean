import Occupancy.Proofs.Session.Moves
import Occupancy.Proofs.Table
import Occupancy.Store.Basic

/-!
# Runs of the store

Everything that can be done to a store is a `Command`, and a run is a list of them. `Executes` says what
a command can come to, and what it does to one room is one of the few changes of `RoomRecord.Change`;
`after_induction` carries what every change keeps over a whole run.
-/

namespace Occupancy

/-- A call that changes a store, with everything that it depends on. -/
inductive Command where
  | assign (id : SessionId) (room : RoomId) (customer : Option Word) (duration : Word)
      (now : Instant)
  | apply (room : RoomId) (t : Transition) (now : Instant)
  | finalizeExpired (now : Instant)
  | bill (room : RoomId) (cost : Word)
  | insertRoom (room : Room)
  | insertDevice (device : Device)
  | setActive (device : DeviceId) (active : Bool)

inductive Outcome where
  | done
  | committed (c : Commit)
  | finalized (cs : List Commit)
  | refused (e : RoomError)

namespace Store

/-! ## Running commands -/

/-- Does a command. A refused command leaves the store alone. -/
def execute (s : Store) : Command → Outcome × Store
  | .assign id room customer duration now =>
    match s.assign id room customer duration now with
    | .ok (c, s') => (.committed c, s')
    | .error e => (.refused e, s)
  | .apply room t now =>
    match s.apply room t now with
    | .ok (c, s') => (.committed c, s')
    | .error e => (.refused e, s)
  | .finalizeExpired now =>
    let (cs, s') := s.finalizeExpired now
    (.finalized cs, s')
  | .bill room cost =>
    match s.bill room cost with
    | .ok s' => (.done, s')
    | .error e => (.refused e, s)
  | .insertRoom room => (.done, s.insertRoom room)
  | .insertDevice device => (.done, s.insertDevice device)
  | .setActive device active =>
    match s.setActive device active with
    | .ok s' => (.done, s')
    | .error e => (.refused e, s)

def after (s : Store) (commands : List Command) : Store :=
  commands.foldl (fun s c => (s.execute c).2) s

/-- The commands of a run with their answers. -/
def transcript (s : Store) : List Command → List (Command × Outcome)
  | [] => []
  | c :: rest => (c, (s.execute c).1) :: (s.execute c).2.transcript rest

@[simp] theorem after_nil (s : Store) : s.after [] = s :=
  rfl

@[simp] theorem after_cons (s : Store) (c : Command) (rest : List Command) :
    s.after (c :: rest) = (s.execute c).2.after rest :=
  rfl

theorem after_append (s : Store) (earlier later : List Command) :
    s.after (earlier ++ later) = (s.after earlier).after later :=
  List.foldl_append

theorem transcript_append (s : Store) (earlier later : List Command) :
    s.transcript (earlier ++ later) = s.transcript earlier ++ (s.after earlier).transcript later := by
  induction earlier generalizing s with
  | nil => rfl
  | cons c rest ih => rw [List.cons_append, transcript, ih, transcript, after_cons, List.cons_append]

/-! ## What the calls do

Each call is inverted once: it commits exactly so, or it is refused for exactly this reason. -/

/-- An assignment commits a freshly booked session to a room that is there and free, or fails. -/
theorem assign_cases (s : Store) (id : SessionId) (room : RoomId) (customer : Option Word)
    (duration : Word) (now : Instant) :
    ((∀ r, s.rooms.get? room = some r → r.room.state = .deleted) ∧
      s.assign id room customer duration now = .error (.noRoom room)) ∨
    ∃ r, s.rooms.get? room = some r ∧ r.room.state ≠ .deleted ∧
      ((r.open?.isSome = true ∧ s.assign id room customer duration now = .error (.conflict room)) ∨
       (r.open? = none ∧ ∃ e, Session.book id room customer duration now = .error e ∧
          s.assign id room customer duration now = .error e) ∨
       (r.open? = none ∧ ∃ session, Session.book id room customer duration now = .ok session ∧
          s.assign id room customer duration now =
            .ok (⟨session, r.room.device⟩,
              { s with rooms := s.rooms.set room (r.append session) }))) := by
  unfold assign
  cases hr : s.rooms.get? room with
  | none => simp
  | some r =>
    -- a deleted room counts as missing
    by_cases hd : r.room.state = .deleted
    · simp [Option.filter, hd]
    · right
      refine ⟨r, rfl, hd, ?_⟩
      simp only [Option.filter, ne_eq, hd, not_false_eq_true, decide_true, ↓reduceIte]
      -- the booking is only tried while no session is open
      by_cases ho : r.open?.isSome = true
      · left
        exact ⟨ho, by rw [if_pos ho]⟩
      · have hnone : r.open? = none := Option.not_isSome_iff_eq_none.mp ho
        rw [if_neg ho]
        cases hbook : Session.book id room customer duration now with
        | error e => exact .inr (.inl ⟨hnone, e, rfl, rfl⟩)
        | ok session => exact .inr (.inr ⟨hnone, session, rfl, rfl⟩)

/-- A transition commits what it makes of the most recent session of a room, or fails. -/
theorem apply_cases (s : Store) (room : RoomId) (t : Transition) (now : Instant) :
    (s.rooms.get? room = none ∧ s.apply room t now = .error (.noRoom room)) ∨
    ∃ r, s.rooms.get? room = some r ∧
      ((r.current? = none ∧
          s.apply room t now = .error (.invalidState room t.verb "room has no session")) ∨
       ∃ current, r.current? = some current ∧
        ((∃ e, current.apply t now = .error e ∧ s.apply room t now = .error e) ∨
         (∃ next, current.apply t now = .ok next ∧
            s.apply room t now =
              .ok (⟨next, r.room.device⟩,
                { s with rooms := s.rooms.set room (r.replaceCurrent next) })))) := by
  unfold apply
  cases hr : s.rooms.get? room with
  | none => exact .inl ⟨rfl, rfl⟩
  | some r =>
    right
    refine ⟨r, rfl, ?_⟩
    dsimp only
    -- the last session is operated on, and a room may have none
    cases hc : r.current? with
    | none => exact .inl ⟨rfl, rfl⟩
    | some current =>
      right
      refine ⟨current, rfl, ?_⟩
      dsimp only
      cases happly : current.apply t now with
      | error e => exact .inl ⟨e, rfl, rfl⟩
      | ok next => exact .inr ⟨next, rfl, rfl⟩

/-- A bill is written to the open session of a room, or fails. -/
theorem bill_cases (s : Store) (room : RoomId) (cost : Word) :
    (∃ e, s.bill room cost = .error e) ∨
    ∃ r session, s.rooms.get? room = some r ∧ r.open? = some session ∧
      s.bill room cost =
        .ok { s with
          rooms := s.rooms.set room (r.replaceCurrent { session with billedTimeCost := cost }) } := by
  unfold bill
  cases hr : s.rooms.get? room with
  | none => exact .inl ⟨_, rfl⟩
  | some r =>
    cases ho : r.open? with
    | none => exact .inl ⟨.invalidState room .bill "no open session", by simp [ho]⟩
    | some session => exact .inr ⟨r, session, rfl, ho, by simp [ho]⟩

/-- Setting an activity changes devices only, or fails. -/
theorem setActive_cases (s : Store) (device : DeviceId) (active : Bool) :
    (s.devices.get? device = none ∧ s.setActive device active = .error (.noDevice device)) ∨
    ∃ d, s.devices.get? device = some d ∧
      s.setActive device active =
        .ok { s with
          devices := s.devices.set device { d with active }
          toggles := s.toggles ++ [(device, active)] } := by
  unfold setActive
  cases hd : s.devices.get? device with
  | none => exact .inl ⟨rfl, rfl⟩
  | some d => exact .inr ⟨d, rfl, rfl⟩

/-- What a command comes to: it is refused and leaves the store alone, or it is done. -/
inductive Executes (s : Store) : Command → Outcome → Store → Prop where
  | refused (c : Command) (e : RoomError) : Executes s c (.refused e) s
  | assigned {id : SessionId} {room : RoomId} {customer : Option Word} {duration : Word}
      {now : Instant} {r : RoomRecord} {session : Session} (found : s.rooms.get? room = some r)
      (free : r.open? = none) (booked : Session.book id room customer duration now = .ok session) :
      Executes s (.assign id room customer duration now) (.committed ⟨session, r.room.device⟩)
        { s with rooms := s.rooms.set room (r.append session) }
  | applied {room : RoomId} {t : Transition} {now : Instant} {r : RoomRecord}
      {current next : Session} (found : s.rooms.get? room = some r)
      (current_eq : r.current? = some current) (moved : current.apply t now = .ok next) :
      Executes s (.apply room t now) (.committed ⟨next, r.room.device⟩)
        { s with rooms := s.rooms.set room (r.replaceCurrent next) }
  | finalized (now : Instant) :
      Executes s (.finalizeExpired now) (.finalized (s.finalizeExpired now).1)
        (s.finalizeExpired now).2
  | billed {room : RoomId} {cost : Word} {r : RoomRecord} {session : Session}
      (found : s.rooms.get? room = some r) (open_eq : r.open? = some session) :
      Executes s (.bill room cost) .done
        { s with
          rooms := s.rooms.set room (r.replaceCurrent { session with billedTimeCost := cost }) }
  | described (room : Room) : Executes s (.insertRoom room) .done (s.insertRoom room)
  | installed (device : Device) : Executes s (.insertDevice device) .done (s.insertDevice device)
  | switched {device : DeviceId} {active : Bool} {d : Device}
      (found : s.devices.get? device = some d) :
      Executes s (.setActive device active) .done
        { s with
          devices := s.devices.set device { d with active }
          toggles := s.toggles ++ [(device, active)] }

/-- The one place where commands are taken apart. -/
theorem exists_executes (s : Store) (c : Command) :
    ∃ o s', s.execute c = (o, s') ∧ s.Executes c o s' := by
  cases c with
  | assign id room customer duration now =>
    rcases s.assign_cases id room customer duration now with
      ⟨-, h⟩ | ⟨r, hr, -, ⟨-, h⟩ | ⟨-, e, -, h⟩ | ⟨free, session, booked, h⟩⟩
    · exact ⟨_, _, by rw [execute, h], .refused _ _⟩
    · exact ⟨_, _, by rw [execute, h], .refused _ _⟩
    · exact ⟨_, _, by rw [execute, h], .refused _ _⟩
    · exact ⟨_, _, by rw [execute, h], .assigned hr free booked⟩
  | apply room t now =>
    rcases s.apply_cases room t now with
      ⟨-, h⟩ | ⟨r, hr, ⟨-, h⟩ | ⟨current, hcurrent, ⟨e, -, h⟩ | ⟨next, happly, h⟩⟩⟩
    · exact ⟨_, _, by rw [execute, h], .refused _ _⟩
    · exact ⟨_, _, by rw [execute, h], .refused _ _⟩
    · exact ⟨_, _, by rw [execute, h], .refused _ _⟩
    · exact ⟨_, _, by rw [execute, h], .applied hr hcurrent happly⟩
  | finalizeExpired now => exact ⟨_, _, rfl, .finalized now⟩
  | bill room cost =>
    rcases s.bill_cases room cost with ⟨e, h⟩ | ⟨r, session, hr, hopen, h⟩
    · exact ⟨_, _, by rw [execute, h], .refused _ _⟩
    · exact ⟨_, _, by rw [execute, h], .billed hr hopen⟩
  | insertRoom room => exact ⟨_, _, rfl, .described room⟩
  | insertDevice device => exact ⟨_, _, rfl, .installed device⟩
  | setActive device active =>
    rcases s.setActive_cases device active with ⟨-, h⟩ | ⟨d, hd, h⟩
    · exact ⟨_, _, by rw [execute, h], .refused _ _⟩
    · exact ⟨_, _, by rw [execute, h], .switched hd⟩

end Store

/-! ## Changes of a room -/

namespace RoomRecord

/-- The record with its session finalized, if that has expired. -/
def settle (r : RoomRecord) (now : Instant) : RoomRecord :=
  match r.expired? now with
  | some session => r.replaceCurrent session
  | none => r

theorem settle_of_expired {r : RoomRecord} {now : Instant} {session : Session}
    (h : r.expired? now = some session) : r.settle now = r.replaceCurrent session := by
  rw [settle, h]

theorem settle_of_unexpired {r : RoomRecord} {now : Instant} (h : r.expired? now = none) :
    r.settle now = r := by
  rw [settle, h]

theorem open?_eq_some_iff {r : RoomRecord} {s : Session} :
    r.open? = some s ↔ r.current? = some s ∧ s.status.isOpen = true := by
  simp [open?, Option.filter_eq_some_iff]

theorem open?_eq_none_iff {r : RoomRecord} :
    r.open? = none ↔ ∀ s, r.current? = some s → s.status.isOpen = false := by
  simp [open?, Option.filter_eq_none_iff]

/-- What a command may do to the record of a room. -/
inductive Change (room : RoomId) : Option RoomRecord → Option RoomRecord → Prop where
  | none (x : Option RoomRecord) : Change room x x
  | create (description : Room) (id : description.id = room) :
      Change room .none (some ⟨description, []⟩)
  | describe (r : RoomRecord) (description : Room) (id : description.id = room) :
      Change room (some r) (some { r with room := description })
  | book {r : RoomRecord} {id : SessionId} {customer : Option Word} {duration : Word}
      {now : Instant} {session : Session} (free : r.open? = .none)
      (booked : Session.book id room customer duration now = .ok session) :
      Change room (some r) (some (r.append session))
  | move {r : RoomRecord} {current next : Session} {now : Instant}
      (current_eq : r.current? = some current) (moved : current.Move now next) :
      Change room (some r) (some (r.replaceCurrent next))
  | bill {r : RoomRecord} {session : Session} (cost : Word) (open_eq : r.open? = some session) :
      Change room (some r) (some (r.replaceCurrent { session with billedTimeCost := cost }))

/-- A record whose session has expired moves; any other stays. -/
theorem change_settle (room : RoomId) (r : RoomRecord) (now : Instant) :
    Change room (some r) (some (r.settle now)) := by
  cases h : r.expired? now with
  | none =>
    -- what is not due is not touched
    rw [settle_of_unexpired h]
    exact .none _
  | some session =>
    obtain ⟨current, hcurrent, hexpire⟩ := Option.bind_eq_some_iff.mp h
    rw [settle_of_expired h]
    exact .move hcurrent (Session.move_of_expire? hexpire)

end RoomRecord

namespace Store

open RoomRecord (Change)

theorem get?_finalizeExpired (s : Store) (now : Instant) (room : RoomId) :
    (s.finalizeExpired now).2.rooms.get? room = (s.rooms.get? room).map (·.settle now) := by
  simp only [finalizeExpired, Table.get?_mapValues]
  rfl

/-- Setting the record of one room changes that room as it does, and no other. -/
theorem change_set {s : Store} {room key : RoomId} {r : RoomRecord}
    (h : Change key (s.rooms.get? key) (some r)) :
    Change room (s.rooms.get? room) ((s.rooms.set key r).get? room) := by
  rw [Table.get?_set]
  by_cases hkey : room = key
  · subst hkey
    rw [if_pos rfl]
    exact h
  · rw [if_neg hkey]
    exact .none _

/-- What a command does to a room is one of the changes of its record. -/
theorem execute_change (s : Store) (c : Command) (room : RoomId) :
    Change room (s.rooms.get? room) ((s.execute c).2.rooms.get? room) := by
  obtain ⟨o, s', hexecute, h⟩ := s.exists_executes c
  rw [hexecute]
  cases h with
  | refused => exact .none _
  | assigned found free booked =>
    refine change_set ?_
    rw [found]
    exact .book free booked
  | applied found current_eq moved =>
    refine change_set ?_
    rw [found]
    exact .move current_eq (Session.move_of_apply moved)
  | finalized now =>
    -- every record settles by itself
    rw [get?_finalizeExpired]
    cases s.rooms.get? room with
    | none => exact .none _
    | some r => exact RoomRecord.change_settle room r now
  | billed found open_eq =>
    refine change_set ?_
    rw [found]
    exact .bill _ open_eq
  | described description =>
    refine change_set ?_
    -- a new description keeps the history that is there
    cases s.rooms.get? description.id with
    | none => exact .create description rfl
    | some r => exact .describe r description rfl
  | installed => exact .none _
  | switched => exact .none _

/-! ## Whole runs -/

/-- Every room of a store has a record that meets `P`. -/
def EachRecord (P : RoomId → RoomRecord → Prop) (s : Store) : Prop :=
  ∀ room r, s.rooms.get? room = some r → P room r

/-- What every change of a record keeps, a run of commands keeps. -/
theorem after_induction {P : RoomId → RoomRecord → Prop}
    (create : ∀ description : Room, P description.id ⟨description, []⟩)
    (change : ∀ room r r', P room r → Change room (some r) (some r') → P room r')
    {s : Store} (hs : s.EachRecord P) (commands : List Command) : (s.after commands).EachRecord P := by
  induction commands generalizing s with
  | nil => exact hs
  | cons c rest ih =>
    rw [after_cons]
    -- a record after the first command is new or comes from one before it
    refine ih fun room r' hr' => ?_
    have hchange := s.execute_change c room
    rw [hr'] at hchange
    cases hr : s.rooms.get? room with
    | none =>
      rw [hr] at hchange
      cases hchange with
      | create description id => exact id ▸ create description
    | some r =>
      rw [hr] at hchange
      exact change room r r' (hs room r hr) hchange

/-- A seed is read by inserting its devices and then its rooms. -/
theorem ofSeed_eq_after (seed : Seed) :
    ofSeed seed = empty.after (seed.devices.map .insertDevice ++ seed.rooms.map .insertRoom) := by
  simp only [ofSeed, after, List.foldl_append, List.foldl_map]
  rfl

/-- No room has had a session, and no device was changed. -/
def Untouched (s : Store) : Prop :=
  s.EachRecord (fun _ r => r.history = []) ∧ s.toggles = []

theorem Untouched.insertRoom {s : Store} (h : s.Untouched) (description : Room) :
    (s.insertRoom description).Untouched := by
  refine ⟨?_, h.2⟩
  intro room r hr
  rw [Store.insertRoom, Table.alter, Table.get?_set] at hr
  -- the description is new, and the history stays
  split at hr
  · cases hr
    cases hd : s.rooms.get? description.id with
    | none => rfl
    | some old => exact h.1 description.id old hd
  · exact h.1 room r hr

/-- A store that has just been filled is untouched. -/
theorem ofSeed_untouched (seed : Seed) : (ofSeed seed).Untouched := by
  have hempty : empty.Untouched := by
    refine ⟨?_, rfl⟩
    intro room r hr
    cases hr
  -- devices are installed beside the rooms
  have hdevices : (seed.devices.foldl insertDevice empty).Untouched :=
    List.foldlRecOn (motive := Untouched) seed.devices insertDevice hempty fun _ h _ _ => h
  exact List.foldlRecOn (motive := Untouched) seed.rooms Store.insertRoom hdevices
    fun _ h description _ => h.insertRoom description

/-- A run from a seed is a run from the empty store. -/
theorem ofSeed_induction {P : RoomId → RoomRecord → Prop}
    (create : ∀ description : Room, P description.id ⟨description, []⟩)
    (change : ∀ room r r', P room r → Change room (some r) (some r') → P room r')
    (seed : Seed) (commands : List Command) : ((ofSeed seed).after commands).EachRecord P := by
  refine after_induction create change ?_ commands
  rw [ofSeed_eq_after]
  refine after_induction create change ?_ _
  intro room r hr
  cases hr

end Store

end Occupancy
