import Occupancy.Proofs.Operation.Lockstep
import Occupancy.Proofs.Store.Expiry

/-!
# Device effects, exactly once

Calls of the engine are made one after another over a store in memory, which keeps the devices as well.
The log of device changes is then what the successful calls ask for, call by call, as far as the rooms are
linked to known devices; and nothing else in an answer depends on the devices, save the device in a view.
Main statement: `effects_exactly_once`.
-/

namespace Occupancy

/-! ## Views and answers apart from devices -/

/-- The view without its device. -/
def RoomView.bare (v : RoomView) : RoomView :=
  { v with device := none }

/-- Which device is linked to a room shows in the device of its view only. -/
theorem RoomView.bare_project? (room : Room) (device device' : Option Device) (session : Option Session)
    (now : Instant) :
    (project? room device session now).map bare = (project? room device' session now).map bare := by
  unfold project?
  cases session.filter (·.status.isOpen) with
  | none => rfl
  | some s => cases h : s.elapsedBillable? now <;> simp [h, bare, idle]

namespace Operation

inductive EngineCall where
  | change (r : Request)
  | view (room : RoomId)
  | views (rooms : List RoomId)

/-- The answer of the engine to a call. -/
inductive Answer where
  | opened (r : Except RoomError SessionId)
  | moved (r : Except RoomError Commit)
  | swept (r : Except RoomError (List RoomId))
  | viewed (r : Except ViewError RoomView)
  | listed (r : Except ViewError (List RoomView))

/-- The answer without the devices of views. -/
def Answer.bare : Answer → Answer
  | .viewed r => .viewed (r.map RoomView.bare)
  | .listed r => .listed (r.map (·.map RoomView.bare))
  | a => a

def EngineCall.action : EngineCall → Action Answer
  | .change (.assign room customer duration) =>
    (assign room customer duration).bind fun r => .done (.opened r)
  | .change (.transition room t) => (transition room t).bind fun r => .done (.moved r)
  | .change .finalizeExpired => finalizeExpired.bind fun r => .done (.swept r)
  | .view room => (Operation.view room).bind fun r => .done (.viewed r)
  | .views rooms => (Operation.views rooms).bind fun r => .done (.listed r)

/-- A call with what the clock shows then and the number that a new session would get. -/
structure Visit where
  call : EngineCall
  now : Instant
  id : SessionId

/-- The store answers a request of the engine, with the clock at `now` and `id` as the next new number. -/
def answerAt (now : Instant) (id : SessionId) (c : StoreCall) (s : Store) : c.Reply × Store :=
  s.answer now id c

/-- The engine serves a call over a store. -/
def Visit.run (v : Visit) (s : Store) : Answer × Store :=
  v.call.action.run (answerAt v.now v.id) s

def afterAll (s : Store) (visits : List Visit) : Store :=
  visits.foldl (fun s v => (v.run s).2) s

/-- The calls with their answers. -/
def dialogue (s : Store) : List Visit → List (Visit × Answer)
  | [] => []
  | v :: rest => (v, (v.run s).1) :: dialogue (v.run s).2 rest

/-! ## What calls ask of rooms' devices -/

/-- The activities that a call asks of the devices of rooms, by its answer. A call that fails asks for
nothing. -/
def Request.effects : Request → Answer → List (RoomId × Bool)
  | .assign room _ _, .opened (.ok _) => [(room, true)]
  | .transition room .pause, .moved (.ok _) => [(room, false)]
  | .transition room .resume, .moved (.ok _) => [(room, true)]
  | .transition _ (.extend _), .moved (.ok _) => []
  | .transition room .cancel, .moved (.ok _) => [(room, false)]
  | .transition room .finalize, .moved (.ok _) => [(room, false)]
  | .finalizeExpired, .swept (.ok rooms) => rooms.map (·, false)
  | _, _ => []

/-- The activities that a call asks of the devices of rooms. Reading a view asks for nothing. -/
def EngineCall.effects : EngineCall → Answer → List (RoomId × Bool)
  | .change r, a => r.effects a
  | .view _, _ => []
  | .views _, _ => []

def link? (s : Store) (room : RoomId) : Option DeviceId :=
  (s.rooms.get? room).bind (·.room.device)

/-- The device that a store has for a room: the room is linked to it, and the store knows it. -/
def knownDevice? (s : Store) (room : RoomId) : Option DeviceId :=
  (link? s room).filter fun d => (s.devices.get? d).isSome

/-- What is asked of rooms, as changes of the devices that a store has for them. -/
def reach (s : Store) (asked : List (RoomId × Bool)) : List (DeviceId × Bool) :=
  asked.filterMap fun x => (knownDevice? s x.1).map (·, x.2)

/-- From one store to another, the session in use in a room was finalized. -/
def Finalizes (room : RoomId) (s s' : Store) : Prop :=
  ∃ running closed, (s.history room).getLast? = some running ∧ running.status = .inUse ∧
    (s'.history room).getLast? = some closed ∧ closed.status = .finalized

/-! ## Serving a call -/

/-- Commands that set activities of devices in order. -/
def switches (ts : List (DeviceId × Bool)) : List Command :=
  ts.map fun t => .setActive t.1 t.2

/-- What the outcome of a request's command becomes as an answer. -/
inductive Request.Reports : Request → Outcome → Answer → Prop where
  | notOpened (room : RoomId) (customer : Option Word) (duration : Word) (e : RoomError) :
      Reports (.assign room customer duration) (.refused e) (.opened (.error e))
  | opened (room : RoomId) (customer : Option Word) (duration : Word) (c : Commit) :
      Reports (.assign room customer duration) (.committed c) (.opened (.ok c.session.id))
  | notMoved (room : RoomId) (t : Transition) (e : RoomError) :
      Reports (.transition room t) (.refused e) (.moved (.error e))
  | moved (room : RoomId) (t : Transition) (c : Commit) :
      Reports (.transition room t) (.committed c) (.moved (.ok c))
  | swept (cs : List Commit) : Reports .finalizeExpired (.finalized cs) (.swept (.ok (Commit.rooms cs)))

theorem Request.Reports.right_unique {r : Request} {o : Outcome} {a a' : Answer} (h : r.Reports o a)
    (h' : r.Reports o a') : a = a' := by
  cases h <;> cases h' <;> rfl

section

variable (now : Instant) (id : SessionId)

/-- Settling devices switches them one after another. -/
theorem run_settle (ts : List (DeviceId × Bool)) (s : Store) :
    (settle ts).run (answerAt now id) s = ((), s.after (switches ts)) := by
  induction ts generalizing s with
  | nil => rfl
  | cons t rest ih =>
    have hanswer := Store.answer_snd s now id (.setActive t.1 t.2)
    exact (ih _).trans (congrArg (fun s' : Store => ((), s'.after (switches rest))) hanswer)

/-- Synchronising a device switches the one a commit names, if it names any. -/
theorem run_syncDevice (active : Bool) (c : Commit) (s : Store) :
    (syncDevice c.device active).run (answerAt now id) s =
      ((), s.after (switches (toggle active c))) := by
  rw [← run_settle now id, toggle, ← List.append_nil (c.device.toList.map _), ← syncDevice_bind]
  exact congrArg (Program.run _ · s) (Program.bind_done _).symm

/-- A request commits its command, reports the outcome, and makes the changes that it owes. -/
theorem exists_run_change (r : Request) (s : Store) :
    ∃ a, r.Reports (s.execute (r.command id now)).1 a ∧
      Visit.run ⟨.change r, now, id⟩ s =
        (a, (s.execute (r.command id now)).2.after
          (switches (r.owes (s.execute (r.command id now)).1))) := by
  cases r with
  -- the clock, the command and the switches: the command decides which switches follow
  | assign room customer duration =>
    simp only [Visit.run, EngineCall.action, assign, Program.ask_bind, Program.run, answerAt,
      Store.answer, Request.command, Store.execute]
    cases s.assign id room customer duration now with
    | error e => exact ⟨_, .notOpened room customer duration e, rfl⟩
    | ok x =>
      refine ⟨_, .opened room customer duration x.1, ?_⟩
      simp only [Program.run_bind, run_syncDevice, Program.run, Request.owes]
  | transition room t =>
    simp only [Visit.run, EngineCall.action, transition, Program.ask_bind, Program.run, answerAt,
      Store.answer, Request.command, Store.execute]
    cases s.apply room t now with
    | error e => exact ⟨_, .notMoved room t e, rfl⟩
    | ok x =>
      refine ⟨_, .moved room t x.1, ?_⟩
      simp only [Request.owes]
      cases t.deviceEffect with
      | none => rfl
      | some active =>
        simp only [Program.run_bind, run_syncDevice, Program.run, Option.toList_some,
          List.flatMap_cons, List.flatMap_nil, List.append_nil]
  | finalizeExpired =>
    refine ⟨_, .swept (s.finalizeExpired now).1, ?_⟩
    simp only [Visit.run, EngineCall.action, finalizeExpired, Program.ask_bind, Program.run, answerAt,
      Store.answer, Request.command, Store.execute, Request.owes, Program.run_bind, deactivateAll_eq,
      run_settle, Commit.rooms]

theorem operates_command? {c : StoreCall} {k : Command} (h : c.command? id = some k) : k.Operates := by
  cases c <;> cases h <;> trivial

/-- Whatever an action does to a store, it does by commands. -/
theorem exists_commands {α : Type} (p : Action α) (s : Store) :
    ∃ commands : List Command, (∀ c ∈ commands, c.Operates) ∧
      (p.run (answerAt now id) s).2 = s.after commands := by
  induction p generalizing s with
  | done a => exact ⟨[], by simp, rfl⟩
  -- each call comes to one command at most, and the rest follows from where it leads
  | ask c next ih =>
    obtain ⟨commands, operates, heq⟩ := ih (s.answer now id c).1 (s.answer now id c).2
    refine ⟨(c.command? id).toList ++ commands, ?_, ?_⟩
    · intro k hk
      rcases List.mem_append.mp hk with hk | hk
      · exact operates_command? id (Option.mem_toList.mp hk)
      · exact operates k hk
    · rw [Store.after_append, ← Store.answer_snd s now id c]
      exact heq

end

/-! ## What stays the same -/

/-- What operator actions leave of a store `s₀`: the descriptions of its rooms, and its devices, each with
the activity that was logged for it last, or else its old one. -/
structure Follows (s₀ s : Store) : Prop where
  description : ∀ room, (s.rooms.get? room).map (·.room) = (s₀.rooms.get? room).map (·.room)
  device : ∀ d, s.devices.get? d = (s₀.devices.get? d).map fun device =>
    { device with active := (activities d s.toggles).getLast?.getD device.active }

variable {s₀ s s' : Store}

theorem follows_refl (untouched : s.Untouched) : Follows s s := by
  refine ⟨fun _ => rfl, fun d => ?_⟩
  rw [untouched.2]
  exact Option.map_id'.symm

/-- What follows from a store still does after an operation. -/
theorem Follows.execute (h : Follows s₀ s) {c : Command} (operates : c.Operates) :
    Follows s₀ (s.execute c).2 := by
  refine ⟨fun room => (s.description_execute operates room).trans (h.description room), fun d => ?_⟩
  rcases s.devices_execute operates with
    ⟨hdevices, htoggles⟩ | ⟨key, set, old, -, hold, hdevices, htoggles⟩
  -- no device was touched
  · rw [hdevices, htoggles]
    exact h.device d
  · rw [hdevices, htoggles, Table.get?_set, activities_append, activities_cons, activities_nil]
    split
    · -- the change is the last that was logged for its device
      rename_i hkey
      subst hkey
      rw [h.device] at hold
      obtain ⟨device, hdevice, rfl⟩ := Option.map_eq_some_iff.mp hold
      rw [hdevice, if_pos rfl, List.getLast?_concat]
      rfl
    · rename_i hkey
      rw [if_neg (Ne.symm hkey), List.append_nil]
      exact h.device d

theorem Follows.after (h : Follows s₀ s) {commands : List Command}
    (operates : ∀ c ∈ commands, c.Operates) : Follows s₀ (s.after commands) := by
  induction commands generalizing s with
  | nil => exact h
  | cons c rest ih =>
    exact ih (h.execute (operates c List.mem_cons_self)) fun k hk => operates k (List.mem_cons_of_mem _ hk)

theorem Follows.run (h : Follows s₀ s) (v : Visit) : Follows s₀ (v.run s).2 := by
  obtain ⟨commands, operates, heq⟩ := exists_commands v.now v.id v.call.action s
  rw [Visit.run, heq]
  exact h.after operates

theorem Follows.isSome_device (h : Follows s₀ s) (d : DeviceId) :
    (s.devices.get? d).isSome = (s₀.devices.get? d).isSome := by
  rw [h.device, Option.isSome_map]

/-- The devices that are there for rooms stay the same. -/
theorem Follows.reach_eq (h : Follows s₀ s) (asked : List (RoomId × Bool)) :
    reach s asked = reach s₀ asked := by
  have hlink : ∀ room, link? s room = link? s₀ room := fun room => by
    have hmap := congrArg (Option.bind · Room.device) (h.description room)
    simpa only [link?, Option.bind_map, Function.comp_def] using hmap
  simp only [reach, knownDevice?, hlink, h.isSome_device]

theorem wellFormed_run (wf : s.EachRecord RoomRecord.WellFormed) (v : Visit) :
    (v.run s).2.EachRecord RoomRecord.WellFormed := by
  obtain ⟨commands, -, heq⟩ := exists_commands v.now v.id v.call.action s
  rw [Visit.run, heq]
  exact Store.keeps_wellFormed wf commands

/-! ## What is logged -/

/-- Of changes of devices, those of known devices are logged. -/
theorem toggles_switches (s : Store) (ts : List (DeviceId × Bool)) :
    (s.after (switches ts)).toggles =
      s.toggles ++ ts.filter fun t => (s.devices.get? t.1).isSome := by
  induction ts generalizing s with
  | nil => exact (List.append_nil _).symm
  | cons t rest ih =>
    obtain ⟨device, active⟩ := t
    rw [switches, List.map_cons, Store.after_cons]
    refine (ih _).trans ?_
    rcases s.setActive_cases device active with ⟨hnone, h⟩ | ⟨d, hd, h⟩
    -- a switch of an unknown device is lost
    · rw [List.filter_cons_of_neg (by simp [hnone])]
      simp only [Store.execute, h]
    · rw [List.filter_cons_of_pos (by simp [hd])]
      -- a known device stays known
      have hknown : ∀ key, ((s.devices.set device { d with active }).get? key).isSome =
          (s.devices.get? key).isSome := fun key => by
        rw [Table.get?_set]
        split
        · rename_i hkey
          rw [hkey, hd]
          rfl
        · rfl
      simp only [Store.execute, h, hknown, List.append_assoc, List.singleton_append]

/-- Changes of devices leave the rooms. -/
theorem rooms_switches (s : Store) (ts : List (DeviceId × Bool)) :
    (s.after (switches ts)).rooms = s.rooms := by
  induction ts generalizing s with
  | nil => rfl
  | cons t rest ih =>
    refine (ih _).trans ?_
    rcases s.setActive_cases t.1 t.2 with ⟨-, h⟩ | ⟨d, -, h⟩
    · simp only [Store.execute, h]
    · simp only [Store.execute, h]

/-- What a commit asks of a device is what is asked of its room. -/
theorem toggle_eq {room : RoomId} {record : RoomRecord} (hrecord : s.rooms.get? room = some record)
    (active : Bool) (session : Session) :
    toggle active ⟨session, record.room.device⟩ =
      [(room, active)].filterMap fun x => (link? s x.1).map (·, x.2) := by
  rw [toggle, List.filterMap_cons, link?, hrecord, Option.bind_some]
  cases record.room.device <;> rfl

/-- A request owes the devices of rooms what its answer asks of the rooms. -/
theorem owes_eq (wf : s.EachRecord RoomRecord.WellFormed) {r : Request} {now : Instant} {id : SessionId}
    {a : Answer} (reports : r.Reports (s.execute (r.command id now)).1 a) :
    r.owes (s.execute (r.command id now)).1 =
      (r.effects a).filterMap fun x => (link? s x.1).map (·, x.2) := by
  obtain ⟨o, s', hexecute, h⟩ := s.exists_executes (r.command id now)
  rw [hexecute] at reports ⊢
  cases reports with
  -- refused, so nothing is owed and nothing was answered that could have an effect
  | notOpened => rfl
  | notMoved room t => cases t <;> rfl
  | opened room customer duration c =>
    cases h with
    | assigned found => exact toggle_eq found true _
  | moved room t c =>
    cases h with
    | applied found =>
      cases t with
      | pause => exact (List.flatMap_singleton _ _).trans (toggle_eq found false _)
      | resume => exact (List.flatMap_singleton _ _).trans (toggle_eq found true _)
      | extend => rfl
      | cancel => exact (List.flatMap_singleton _ _).trans (toggle_eq found false _)
      | finalize => exact (List.flatMap_singleton _ _).trans (toggle_eq found false _)
  | swept cs =>
    cases h with
    | finalized =>
      simp only [Request.owes, Request.effects, Commit.rooms, List.map_map, List.filterMap_map]
      rw [List.filterMap_eq_flatMap_toList]
      refine List.flatMap_congr fun c hc => ?_
      -- every commit of the batch has the device of its room
      obtain ⟨record, hrecord, -, hdevice⟩ := (Store.mem_finalizeExpired_iff wf).mp hc
      simp only [Function.comp_apply, link?, hrecord, Option.bind_some, toggle, hdevice]
      cases record.room.device <;> rfl

/-- Commands of requests log nothing. -/
theorem toggles_command (r : Request) (now : Instant) (id : SessionId) (s : Store) :
    (s.execute (r.command id now)).2.devices = s.devices ∧
      (s.execute (r.command id now)).2.toggles = s.toggles := by
  rcases s.devices_execute (r.operates id now) with h | ⟨device, active, d, heq, -⟩
  · exact h
  · cases r <;> cases heq

/-- A call logs what its answer asks for. -/
theorem toggles_run (h : Follows s₀ s) (wf : s.EachRecord RoomRecord.WellFormed) (v : Visit) :
    (v.run s).2.toggles = s.toggles ++ reach s₀ (v.call.effects (v.run s).1) := by
  obtain ⟨call, now, id⟩ := v
  cases call with
  | view | views =>
    -- reading changes nothing and asks for nothing
    exact (List.append_nil _).symm
  | change r =>
    obtain ⟨a, reports, hrun⟩ := exists_run_change now id r s
    obtain ⟨hdevices, htoggles⟩ := toggles_command r now id s
    rw [hrun, toggles_switches, hdevices, htoggles, owes_eq wf reports, ← h.reach_eq,
      List.filter_filterMap]
    refine congrArg _ (List.filterMap_congr fun x _ => ?_)
    rw [knownDevice?, Option.filter_map]
    rfl

/-- The log grows by what the answers of a run ask for, in the order of the calls. -/
theorem toggles_afterAll (h : Follows s₀ s) (wf : s.EachRecord RoomRecord.WellFormed)
    (visits : List Visit) :
    Follows s₀ (afterAll s visits) ∧
    (afterAll s visits).EachRecord RoomRecord.WellFormed ∧
    (afterAll s visits).toggles =
      s.toggles ++ reach s₀ ((dialogue s visits).flatMap fun e => e.1.call.effects e.2) := by
  induction visits generalizing s with
  | nil => exact ⟨h, wf, (List.append_nil _).symm⟩
  | cons v rest ih =>
    obtain ⟨hfollows, hwf, htoggles⟩ := ih (h.run v) (wellFormed_run wf v)
    refine ⟨hfollows, hwf, htoggles.trans ?_⟩
    rw [toggles_run h wf, dialogue, List.flatMap_cons, List.append_assoc, reach, reach, reach,
      List.filterMap_append]

/-! ## The batch -/

/-- The last session of a room's history is its current one. -/
theorem getLast?_history (s : Store) (room : RoomId) :
    (s.history room).getLast? = (s.rooms.get? room).bind (·.current?) := by
  unfold Store.history
  cases s.rooms.get? room <;> rfl

/-- A batch finalizes what has expired. -/
theorem finalizes_iff_expired {room : RoomId} {now : Instant}
    (h : s'.rooms = (s.finalizeExpired now).2.rooms) :
    Finalizes room s s' ↔ ∃ r session, s.rooms.get? room = some r ∧ r.expired? now = some session := by
  simp only [Finalizes, getLast?_history, h, Store.get?_finalizeExpired]
  constructor
  · rintro ⟨running, closed, hrunning, inUse, hclosed, finalized⟩
    obtain ⟨r, hr, hcurrent⟩ := Option.bind_eq_some_iff.mp hrunning
    rw [hr, Option.map_some, Option.bind_some] at hclosed
    -- a room that was not expired was left as it was
    cases hexpired : r.expired? now with
    | none =>
      rw [RoomRecord.settle_of_unexpired hexpired, hcurrent] at hclosed
      cases hclosed
      rw [inUse] at finalized
      cases finalized
    | some session => exact ⟨r, session, hr, hexpired⟩
  · rintro ⟨r, session, hr, hexpired⟩
    obtain ⟨current, hcurrent, inUse, -, rfl⟩ := RoomRecord.expired?_eq_some_iff.mp hexpired
    refine ⟨current, current.close .finalized now, by rw [hr, Option.bind_some, hcurrent], inUse, ?_, rfl⟩
    rw [hr, Option.map_some, Option.bind_some, RoomRecord.settle_of_expired hexpired,
      RoomRecord.current?_replaceCurrent]

/-- The sweep answers with the rooms whose session it finalizes, in ascending order, each once. -/
theorem run_finalizeExpired (wf : s.EachRecord RoomRecord.WellFormed) (now : Instant) (id : SessionId) :
    ∃ rooms, (Visit.run ⟨.change .finalizeExpired, now, id⟩ s).1 = .swept (.ok rooms) ∧
      rooms.Pairwise (·.toInt < ·.toInt) ∧
      ∀ room, room ∈ rooms ↔
        Finalizes room s (Visit.run ⟨.change .finalizeExpired, now, id⟩ s).2 := by
  obtain ⟨a, reports, hrun⟩ := exists_run_change now id .finalizeExpired s
  rw [hrun]
  refine ⟨Commit.rooms (s.finalizeExpired now).1, reports.right_unique (.swept _),
    Store.pairwise_rooms_finalizeExpired wf now, fun room => ?_⟩
  rw [Store.mem_rooms_finalizeExpired wf]
  exact (finalizes_iff_expired (rooms_switches _ _)).symm

/-! ## What does not depend on devices -/

/-- The command of a request comes to the same with other devices. -/
theorem execute_congr (h : s.rooms = s'.rooms) (r : Request) (now : Instant) (id : SessionId) :
    (s.execute (r.command id now)).1 = (s'.execute (r.command id now)).1 ∧
      (s.execute (r.command id now)).2.rooms = (s'.execute (r.command id now)).2.rooms := by
  obtain ⟨rooms, devices, toggles⟩ := s
  obtain ⟨rooms', devices', toggles'⟩ := s'
  obtain rfl : rooms = rooms' := h
  -- the two stores differ in their devices only, and no command reads those
  cases r with
  | assign room customer duration =>
    simp only [Request.command, Store.execute, Store.assign]
    cases (rooms.get? room).filter (·.room.state ≠ .deleted) with
    | none => exact ⟨rfl, rfl⟩
    | some record =>
      by_cases taken : record.open?.isSome = true
      · simp [taken]
      · cases Session.book id room customer duration now <;> simp [taken]
  | transition room t =>
    simp only [Request.command, Store.execute, Store.apply]
    cases rooms.get? room with
    | none => exact ⟨rfl, rfl⟩
    | some record =>
      cases hcurrent : record.current? with
      | none => simp [hcurrent]
      | some current => cases happly : current.apply t now <;> simp [hcurrent, happly]
  | finalizeExpired => exact ⟨rfl, rfl⟩

/-- But for its device a view depends on the rooms alone. -/
theorem view_congr (h : s.rooms = s'.rooms) (room : RoomId) (now : Instant) :
    (s.view room now).map RoomView.bare = (s'.view room now).map RoomView.bare := by
  simp only [Store.view, h]
  cases s'.rooms.get? room with
  | none => rfl
  | some r =>
    have hbare := RoomView.bare_project? r.room (s.linkedDevice? r.room) (s'.linkedDevice? r.room)
      r.current? now
    dsimp only
    generalize RoomView.project? r.room (s.linkedDevice? r.room) r.current? now = v at hbare
    generalize RoomView.project? r.room (s'.linkedDevice? r.room) r.current? now = v' at hbare
    cases v with
    -- the session cannot be shown, with whatever device
    | none =>
      rw [Option.map_none, eq_comm, Option.map_eq_none_iff] at hbare
      rw [hbare]
    | some v =>
      rw [Option.map_some, eq_comm, Option.map_eq_some_iff] at hbare
      obtain ⟨v', rfl, hbare⟩ := hbare
      exact congrArg Except.ok hbare.symm

/-- But for its devices a batch of views depends on the rooms alone. -/
theorem views_congr (h : s.rooms = s'.rooms) (rooms : List RoomId) (now : Instant) :
    (s.views rooms now).map (·.map RoomView.bare) = (s'.views rooms now).map (·.map RoomView.bare) := by
  induction rooms with
  | nil => rfl
  | cons room rest ih =>
    have hview := view_congr h room now
    rw [Store.views, Store.views]
    generalize s.view room now = x at hview
    generalize s'.view room now = x' at hview
    cases x with
    | error e =>
      cases x' with
      | ok v' => cases hview
      | error e' =>
        cases hview
        cases e with
        | refused =>
          -- the room is unknown, and left out on both sides
          exact ih
        | overflow => rfl
    | ok v =>
      cases x' with
      | error e' => cases hview
      | ok v' =>
        have hbare : v.bare = v'.bare := Except.ok.inj hview
        generalize s.views rest now = xs at ih
        generalize s'.views rest now = xs' at ih
        cases xs with
        | error e =>
          cases xs' with
          | ok vs' => cases ih
          | error e' =>
            cases ih
            rfl
        | ok vs =>
          cases xs' with
          | error e' => cases ih
          | ok vs' =>
            have hrest : vs.map RoomView.bare = vs'.map RoomView.bare := Except.ok.inj ih
            show Except.ok ((v :: vs).map RoomView.bare) = Except.ok ((v' :: vs').map RoomView.bare)
            rw [List.map_cons, List.map_cons, hbare, hrest]

/-- A call gets the same answer over other devices, up to devices in views, and does the same to rooms. -/
theorem run_congr (h : s.rooms = s'.rooms) (v : Visit) :
    (v.run s).1.bare = (v.run s').1.bare ∧ (v.run s).2.rooms = (v.run s').2.rooms := by
  obtain ⟨call, now, id⟩ := v
  cases call with
  | change r =>
    obtain ⟨a, reports, hrun⟩ := exists_run_change now id r s
    obtain ⟨a', reports', hrun'⟩ := exists_run_change now id r s'
    obtain ⟨hanswer, hrooms⟩ := execute_congr h r now id
    -- both runs report the same outcome, and there is one answer for it
    rw [← hanswer] at reports'
    rw [hrun, hrun', rooms_switches, rooms_switches, reports.right_unique reports']
    exact ⟨rfl, hrooms⟩
  | view room => exact ⟨congrArg Answer.viewed (view_congr h room now), h⟩
  | views rooms => exact ⟨congrArg Answer.listed (views_congr h rooms now), h⟩

/-- The answers of a whole dialogue depend on the rooms alone, but for the devices they show. -/
theorem answers_congr (h : s.rooms = s'.rooms) (visits : List Visit) :
    (dialogue s visits).map (·.2.bare) = (dialogue s' visits).map (·.2.bare) := by
  induction visits generalizing s s' with
  | nil => rfl
  | cons v rest ih =>
    obtain ⟨hanswer, hrooms⟩ := run_congr h v
    rw [dialogue, dialogue, List.map_cons, List.map_cons, hanswer, ih hrooms]

/-- Which devices a seed has does not show in its rooms. -/
theorem rooms_ofSeed (seed : Seed) (devices : List Device) :
    (Store.ofSeed { seed with devices }).rooms = (Store.ofSeed seed).rooms := by
  -- filling in devices leaves the rooms, and filling in rooms does not look at devices
  have hdevices : ∀ ds : List Device, (ds.foldl Store.insertDevice .empty).rooms = Store.empty.rooms :=
    fun ds => List.foldlRecOn (motive := fun s : Store => s.rooms = Store.empty.rooms) ds
      Store.insertDevice rfl fun _ h _ _ => h
  have hrooms : ∀ (rooms : List Room) {s s' : Store}, s.rooms = s'.rooms →
      (rooms.foldl Store.insertRoom s).rooms = (rooms.foldl Store.insertRoom s').rooms := by
    intro rooms
    induction rooms with
    | nil => exact fun h => h
    | cons room rest ih => exact fun h => ih (by simp only [Store.insertRoom, h])
  exact hrooms seed.rooms ((hdevices devices).trans (hdevices seed.devices).symm)

/-- **Device effects, exactly once.** Calls of the engine are made one after another over a store that was
filled from a seed. The log of device changes is what the successful calls ask of the devices of rooms, in
the order of the calls, as far as the room is linked to a device that the store knows. Every device has the
activity that was logged for it last, or else the one in the seed. A sweep answers with the rooms whose
session it finalizes, in ascending order, each once. And all answers are those over any other devices, up
to the devices in views. -/
theorem effects_exactly_once (seed : Seed) (visits : List Visit) :
    let start := Store.ofSeed seed
    let s := afterAll start visits
    s.toggles = reach start ((dialogue start visits).flatMap fun e => e.1.call.effects e.2) ∧
    (∀ d, s.devices.get? d = (start.devices.get? d).map fun device =>
      { device with active := (activities d s.toggles).getLast?.getD device.active }) ∧
    (∀ now id, ∃ rooms, (Visit.run ⟨.change .finalizeExpired, now, id⟩ s).1 = .swept (.ok rooms) ∧
      rooms.Pairwise (·.toInt < ·.toInt) ∧
      ∀ room, room ∈ rooms ↔
        Finalizes room s (Visit.run ⟨.change .finalizeExpired, now, id⟩ s).2) ∧
    ∀ devices, (dialogue start visits).map (·.2.bare) =
      -- untouched at the start, so everything that was toggled was toggled by the calls
      (dialogue (Store.ofSeed { seed with devices }) visits).map (·.2.bare) := by
  intro start s
  have untouched := Store.ofSeed_untouched seed
  obtain ⟨hfollows, hwf, htoggles⟩ :=
    toggles_afterAll (follows_refl untouched) (Store.wellFormed_after seed []) visits
  rw [untouched.2, List.nil_append] at htoggles
  exact ⟨htoggles, hfollows.device, run_finalizeExpired hwf,
    fun devices => answers_congr (rooms_ofSeed seed devices).symm visits⟩

end Operation

end Occupancy
