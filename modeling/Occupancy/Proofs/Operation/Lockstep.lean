import Occupancy.Proofs.Operation.Interleaving
import Occupancy.Proofs.Store.Contention
import Occupancy.Proofs.Store.Devices

/-!
# Devices and sessions side by side

Every commit that starts or stops the clock of a room asks for one change of the room's device, and the
caller makes that change in a later turn. Nothing orders these changes, so a device can end up showing
an earlier commit than the last one. `lockstep_iff` says exactly when it does not, and
`not_inLockstep_overtaken` shows that it happens.

The proof keeps two books for every room. The log of commands says what the last commit asked for, which
is whether the room is in use. The changes that were made, together with those that are still owed, are
the changes that were asked for, in some order.
-/

namespace Occupancy

namespace Machine

variable {room : RoomId} {x y : Option Situation} {shown : List Bool}

/-! ## What commits ask of devices -/

/-- The activity that an answered command asks of the device of a room, if it does. -/
def effect (room : RoomId) : Command × Outcome → Option Bool
  | (.assign _ key _ _ _, .committed _) => if key = room then some true else none
  | (.apply key t _, .committed _) => if key = room then t.deviceEffect else none
  | (.finalizeExpired _, .finalized cs) => if room ∈ Commit.rooms cs then some false else none
  | _ => none

/-- The activities that a log of commands asks of the device of a room, oldest first. -/
def effects (room : RoomId) (log : List (Command × Outcome)) : List Bool :=
  log.filterMap (effect room)

/-- A command for something else asks nothing of the device of a room. -/
theorem effect_of_undriven {c : Command} (undriven : ¬ c.Drives room) (o : Outcome) :
    effect room (c, o) = none := by
  cases c with
  | assign _ key => cases o <;> simp_all [effect, Command.Drives]
  | apply key => cases o <;> simp_all [effect, Command.Drives]
  | finalizeExpired => exact absurd trivial undriven
  | bill | insertRoom | insertDevice | setActive => rfl

/-- A transition asks for what its phase shows, or for nothing while the room stays in use. -/
theorem deviceEffect_of_next? {phase next : Phase} {t : Transition} (h : phase.next? t = some next) :
    t.deviceEffect = some (decide (next = .inUse)) ∨
      t.deviceEffect = none ∧ phase = .inUse ∧ next = .inUse := by
  cases phase <;> cases t <;> cases h
  all_goals simp [Transition.deviceEffect]

/-- What was asked for last tells whether the room is in use, once it has had a session. -/
def Tells (shown : List Bool) (x : Option Situation) : Prop :=
  ∀ x', x = some x' → (x'.ending = none ∧ x'.phase = .idle) ∨
    shown.getLast? = some (decide (x'.phase = .inUse))

/-- After a step the session shows the last effect, or the room has no session. -/
theorem Step.tells {c : Command} {o : Outcome} (h : Step room x c o y) (hx : Tells shown x) :
    Tells (shown ++ (effect room (c, o)).toList) y := by
  cases h with
  | assignNowhere | applyNowhere =>
    intro x' hx'
    cases hx'
  -- no effect, and nothing of the session changed
  | assignDeleted | assignTaken | assignInvalid | overbooked | rejected =>
    simpa [effect] using hx
  | assigned =>
    rintro _ ⟨⟩
    right
    simp [effect]
  | @applied x t now c phase allowed leads =>
    rintro _ ⟨⟩
    right
    -- an extension has no effect, and leaves a running session running
    rcases deviceEffect_of_next? allowed with heffect | ⟨heffect, running, rfl⟩
    · simp [effect, heffect]
    · rcases hx x rfl with ⟨-, idle⟩ | hlast
      · rw [running] at idle
        cases idle
      · simpa [effect, heffect, running] using hlast
  | expired running ends due listed =>
    rintro _ ⟨⟩
    right
    simp [effect, listed]
  | unexpired early unlisted => simpa [effect, unlisted] using hx
  -- the room is not there
  | expireNowhere =>
    intro x' hx'
    cases hx'
  | @describe _ description here =>
    rintro _ ⟨⟩
    simp only [effect, Option.toList_none, List.append_nil]
    cases x with
    | none => exact .inl ⟨rfl, rfl⟩
    | some x => simpa using hx x rfl
  | elsewhere undriven =>
    rw [effect_of_undriven undriven, Option.toList_none, List.append_nil]
    exact hx

/-- Along a run of the machine, the last activity asked for tells whether the room is in use. -/
theorem Run.tells {log : List (Command × Outcome)} (h : Run room x log y) (hx : Tells shown x) :
    Tells (shown ++ effects room log) y := by
  induction h generalizing shown with
  | nil => simpa [effects] using hx
  | @cons x y z c o log first _ ih =>
    have hrest := ih (first.tells hx)
    rwa [List.append_assoc, show (effect room (c, o)).toList ++ effects room log =
      effects room ((c, o) :: log) by cases he : effect room (c, o) <;> simp [effects, he]] at hrest

end Machine

namespace Operation

open Machine (effect effects)

/-! ## A caller owes what its commit asks for -/

theorem activities_toggle (device : DeviceId) (active : Bool) (c : Commit) :
    activities device (toggle active c) = if c.device = some device then [active] else [] := by
  cases h : c.device with
  | none => simp [toggle, h]
  | some d => simp [toggle, h, activities_cons]

/-- Of the changes after a batch, one is for the device of a room that the batch lists. -/
theorem activities_batch {room : RoomId} {device : DeviceId} {cs : List Commit}
    (own : ∀ c ∈ cs, c.device = some device ↔ c.session.room = room) (once : (Commit.rooms cs).Nodup) :
    activities device (cs.flatMap (toggle false)) =
      if room ∈ Commit.rooms cs then [false] else [] := by
  induction cs with
  | nil => rfl
  | cons c rest ih =>
    simp only [Commit.rooms, List.map_cons, List.nodup_cons] at once
    have hrest := ih (fun c hc => own c (List.mem_cons_of_mem _ hc)) once.2
    rw [List.flatMap_cons, activities_append, hrest, activities_toggle]
    by_cases hroom : c.session.room = room
    · -- the room is not listed again
      have hfresh : room ∉ Commit.rooms rest := hroom ▸ once.1
      rw [if_pos ((own c List.mem_cons_self).mpr hroom), if_neg hfresh]
      simp [Commit.rooms, hroom]
    · rw [if_neg fun h => hroom ((own c List.mem_cons_self).mp h)]
      simp [Commit.rooms, Ne.symm hroom]

/-- In a store whose rooms have devices of their own, a device belongs to one room. -/
theorem device_eq_iff {s : Store} (linked : s.Linked) {room key : RoomId} {r r' : RoomRecord}
    {device : DeviceId} (hr : s.rooms.get? room = some r) (hdevice : r.room.device = some device)
    (hr' : s.rooms.get? key = some r') : r'.room.device = some device ↔ key = room := by
  constructor
  · intro h
    exact linked.own hr' hr h hdevice
  · rintro rfl
    rw [hr] at hr'
    cases hr'
    exact hdevice

/-- After its command, a request owes the device of a room what the answer asks for. -/
theorem activities_owes {s : Store} (wf : s.EachRecord RoomRecord.WellFormed) (linked : s.Linked)
    {room : RoomId} {r : RoomRecord} {device : DeviceId} (hr : s.rooms.get? room = some r)
    (hdevice : r.room.device = some device) (q : Request) (id : SessionId) (now : Instant) :
    activities device (q.owes (s.execute (q.command id now)).1) =
      (effect room (q.command id now, (s.execute (q.command id now)).1)).toList := by
  obtain ⟨o, s', hexecute, h⟩ := s.exists_executes (q.command id now)
  rw [hexecute]
  cases q with
  -- each room has a device of its own, so the effect is on this device exactly if it is on this room
  | assign key customer duration =>
    cases h with
    | refused => rfl
    | assigned found =>
      simp only [Request.command, Request.owes, effect, activities_toggle,
        device_eq_iff linked hr hdevice found]
      split <;> rfl
  | transition key t =>
    cases h with
    | refused => rfl
    | applied found =>
      simp only [Request.command, Request.owes, effect]
      cases t.deviceEffect with
      | none => simp
      | some active =>
        simp only [Option.toList_some, List.flatMap_cons, List.flatMap_nil, List.append_nil,
          activities_toggle, device_eq_iff linked hr hdevice found]
        split <;> rfl
  -- the batch lists every room once
  | finalizeExpired =>
    have own : ∀ c ∈ (s.finalizeExpired now).1, c.device = some device ↔ c.session.room = room := by
      intro c hc
      obtain ⟨r', hr', -, hc⟩ := (Store.mem_finalizeExpired_iff wf).mp hc
      rw [hc]
      exact device_eq_iff linked hr hdevice hr'
    cases h with
    | refused => rfl
    | finalized =>
      simp only [Request.command, Request.owes, effect,
        activities_batch own (Store.nodup_rooms_finalizeExpired wf now)]
      split <;> rfl

/-! ## What is made and what is owed -/

/-- The changes of devices that a caller still owes. -/
def Caller.owed : Caller → List (DeviceId × Bool)
  | .fresh _ => []
  | .timed _ _ => []
  | .owing toggles => toggles

/-- When one caller goes on, what all callers owe changes by what that one owes. -/
theorem flatMap_owed_set {callers : List Caller} {i : Nat} {old : Caller} (new : Caller)
    (here : callers[i]? = some old) :
    (old.owed ++ (callers.set i new).flatMap Caller.owed).Perm
      (new.owed ++ callers.flatMap Caller.owed) := by
  induction callers generalizing i with
  | nil => cases here
  | cons c rest ih =>
    cases i with
    | zero =>
      cases here
      simp only [List.set_cons_zero, List.flatMap_cons]
      exact List.perm_append_comm_assoc _ _ _
    | succ i =>
      rw [List.getElem?_cons_succ] at here
      simp only [List.set_cons_succ, List.flatMap_cons]
      -- the caller that goes on comes to the front and back
      refine (List.perm_append_comm_assoc _ _ _).trans ?_
      refine ((ih here).append_left _).trans ?_
      exact List.perm_append_comm_assoc _ _ _

/-- Whatever order changes were made in, a device had the same ones. -/
theorem activities_perm {ts us : List (DeviceId × Bool)} (device : DeviceId) (h : ts.Perm us) :
    (activities device ts).Perm (activities device us) :=
  (h.filter _).map _

theorem Request.operates (q : Request) (id : SessionId) (now : Instant) :
    (q.command id now).Operates := by
  cases q <;> trivial

/-- One more command asks for one more effect at most. -/
theorem effects_append (s : Store) (commands : List Command) (k : Command) (room : RoomId) :
    effects room (s.transcript (commands ++ [k])) =
      effects room (s.transcript commands) ++
        (effect room (k, ((s.after commands).execute k).1)).toList := by
  rw [Store.transcript_append, effects, List.filterMap_append]
  rfl

namespace Crew

/-- The changes of devices that were made, and then those that are owed. -/
def changes (c : Crew) : List (DeviceId × Bool) :=
  c.store.toggles ++ c.callers.flatMap Caller.owed

/-- What holds of a crew that has come from store `s` so far. The changes made and owed for the device
of a room are those that its commits asked for. -/
structure Sound (s : Store) (c : Crew) : Prop where
  store_eq : c.store = s.after c.commands
  wellFormed : c.store.EachRecord RoomRecord.WellFormed
  linked : c.store.Linked
  faithful : c.store.Faithful
  asked : ∀ {room r device}, c.store.rooms.get? room = some r → r.room.device = some device →
    (activities device c.changes).Perm (effects room (s.transcript c.commands))

variable {s : Store} {c c' : Crew}

/-- A caller that reads the clock leaves all as it was. -/
theorem Sound.begin (h : c.Sound s) {i : Nat} {q : Request} {now : Instant}
    (here : c.callers[i]? = some (.fresh q)) :
    Sound s { c with callers := c.callers.set i (.timed q now) } := by
  refine ⟨h.store_eq, h.wellFormed, h.linked, h.faithful, ?_⟩
  intro room r device hr hdevice
  have howed := flatMap_owed_set (.timed q now) here
  exact (activities_perm device (howed.append_left _)).trans (h.asked hr hdevice)

/-- A commit owes exactly the effect it has. -/
theorem Sound.commit (h : c.Sound s) {i : Nat} {q : Request} {now : Instant} (id : SessionId)
    (here : c.callers[i]? = some (.timed q now)) :
    Sound s
      { store := (c.store.execute (q.command id now)).2
        callers := c.callers.set i (.owing (q.owes (c.store.execute (q.command id now)).1))
        commands := c.commands ++ [q.command id now] } := by
  have operates := q.operates id now
  refine ⟨?_, Store.wellFormed_execute h.wellFormed _, h.linked.execute operates,
    h.faithful.execute operates, ?_⟩
  · rw [Store.after_append, ← h.store_eq]
    rfl
  · intro room r' device hr' hdevice
    obtain ⟨r, hr, hroom⟩ := Store.exists_record_before operates hr'
    rw [← hroom] at hdevice
    have howes := activities_owes h.wellFormed h.linked hr hdevice q id now
    have hmade : (c.store.execute (q.command id now)).2.toggles = c.store.toggles := by
      rcases c.store.devices_execute operates with ⟨-, htoggles⟩ | ⟨_, _, _, hset, -⟩
      · exact htoggles
      · cases q <;> cases hset
    have howed := flatMap_owed_set (.owing (q.owes (c.store.execute (q.command id now)).1)) here
    rw [effects_append, ← h.store_eq, ← howes]
    -- what is made stays, and what the caller owes now was not owed before
    have hchanges : ((c.store.execute (q.command id now)).2.toggles ++
        (c.callers.set i (.owing (q.owes (c.store.execute (q.command id now)).1))).flatMap
          Caller.owed).Perm (c.changes ++ q.owes (c.store.execute (q.command id now)).1) := by
      rw [hmade, changes, List.append_assoc]
      exact (howed.trans List.perm_append_comm).append_left _
    refine (activities_perm device hchanges).trans ?_
    rw [activities_append]
    exact (h.asked hr hdevice).append_right _

/-- A toggle turns what is owed into what is made. -/
theorem Sound.toggle (h : c.Sound s) {i : Nat} {key : DeviceId} {active : Bool}
    {rest : List (DeviceId × Bool)} (here : c.callers[i]? = some (.owing ((key, active) :: rest))) :
    Sound s
      { store := (c.store.execute (.setActive key active)).2
        callers := c.callers.set i (.owing rest)
        commands := c.commands ++ [.setActive key active] } := by
  have operates : (Command.setActive key active).Operates := trivial
  refine ⟨?_, Store.wellFormed_execute h.wellFormed _, h.linked.execute operates,
    h.faithful.execute operates, ?_⟩
  · rw [Store.after_append, ← h.store_eq]
    rfl
  · intro room r' device hr' hdevice
    obtain ⟨r, hr, hroom⟩ := Store.exists_record_before operates hr'
    rw [← hroom] at hdevice
    -- the caller owed this change first, and owes the rest
    have howed : ((key, active) :: (c.callers.set i (.owing rest)).flatMap Caller.owed).Perm
        (c.callers.flatMap Caller.owed) := by
      have hset := flatMap_owed_set (.owing rest) here
      refine (List.perm_append_left_iff rest).mp (List.Perm.trans ?_ hset)
      exact List.perm_middle
    have hasked := (activities_perm device (howed.append_left c.store.toggles)).trans
      (h.asked hr hdevice)
    rw [effects_append, show effect room (Command.setActive key active, _) = none from rfl,
      Option.toList_none, List.append_nil]
    refine List.Perm.trans (List.Perm.of_eq ?_) hasked
    rcases c.store.setActive_cases key active with ⟨hunknown, hset⟩ | ⟨d, -, hset⟩
    · -- the change of an unknown device is lost, but this device is known
      have hne : key ≠ device := by
        rintro rfl
        obtain ⟨d, known, hd, hknown⟩ := h.linked.known hr
        rw [hdevice] at hd
        cases hd
        rw [hunknown] at hknown
        cases hknown
      simp [changes, Store.execute, hset, activities_cons, hne]
    · simp [changes, Store.execute, hset]

/-- Every step keeps a crew sound. -/
theorem Sound.step (h : c.Sound s) (hstep : Step c c') : c'.Sound s := by
  cases hstep with
  | begin now here => exact h.begin here
  | commit id here => exact h.commit id here
  | toggle here => exact h.toggle here

theorem Sound.run (h : c.Sound s) (hrun : Relation.ReflTransGen Step c c') : c'.Sound s := by
  induction hrun with
  | refl => exact h
  | tail _ hstep ih => exact ih.step hstep

/-- Requests that are about to begin. -/
def start (s : Store) (requests : List Request) : Crew :=
  ⟨s, requests.map .fresh, []⟩

theorem crowd_start (s : Store) (requests : List Request) :
    (start s requests).crowd = Crowd.start s requests := by
  simp [start, crowd, Crowd.start, Caller.action]

/-- At the start nothing was asked for and nothing is owed. -/
theorem sound_start (seed : Seed) (linked : (Store.ofSeed seed).Linked) (requests : List Request) :
    (start (Store.ofSeed seed) requests).Sound (Store.ofSeed seed) := by
  have htoggles := (Store.ofSeed_untouched seed).2
  have howed : (requests.map Caller.fresh).flatMap Caller.owed = [] := by simp [Caller.owed]
  refine ⟨rfl, Store.wellFormed_after seed [], linked, ?_, ?_⟩
  · intro d device _ active hlast
    simp [start, htoggles] at hlast
  · intro room r device _ _
    simp [start, changes, htoggles, howed, effects, Store.transcript]

/-- Every interleaving of requests leaves a sound crew. -/
theorem exists_sound (seed : Seed) (linked : (Store.ofSeed seed).Linked) (requests : List Request)
    (turns : List Turn) :
    ∃ c : Crew, c.Sound (Store.ofSeed seed) ∧
      (Crowd.start (Store.ofSeed seed) requests).run turns = c.crowd := by
  obtain ⟨c, hrun, hcrowd⟩ := (start (Store.ofSeed seed) requests).run_crowd turns
  rw [crowd_start] at hcrowd
  exact ⟨c, (sound_start seed linked requests).run hrun, hcrowd⟩

/-- When all callers have returned, nothing is owed. -/
theorem changes_of_returned (returned : c.crowd.Returned) : c.changes = c.store.toggles := by
  have howed : c.callers.flatMap Caller.owed = [] := by
    refine List.flatMap_eq_nil_iff.mpr fun caller hcaller => ?_
    rw [Caller.eq_of_returned (returned caller.action (List.mem_map_of_mem hcaller))]
    rfl
  rw [changes, howed, List.append_nil]

end Crew

/-- What was asked for last tells whether the session of a room is in use. -/
theorem getLast?_effects (seed : Seed) (commands : List Command) {room : RoomId} {r : RoomRecord}
    {session : Session} (hr : ((Store.ofSeed seed).after commands).rooms.get? room = some r)
    (hsession : r.current? = some session) :
    (effects room ((Store.ofSeed seed).transcript commands)).getLast? =
      some (decide (session.status = .inUse)) := by
  have run := Store.run_transcript (Store.wellFormed_after seed []) commands room
  rw [Store.after_nil, Store.situation?_of_get? hr] at run
  have fresh : Machine.Tells [] ((Store.ofSeed seed).situation? room) := by
    intro x hx
    left
    -- at the start no room has a session
    obtain ⟨r₀, hr₀, rfl⟩ := Option.map_eq_some_iff.mp hx
    have hnil := (Store.ofSeed_untouched seed).1 room r₀ hr₀
    simp [RoomRecord.situation, RoomRecord.current?, hnil]
  have tells := run.tells fresh
  rw [List.nil_append] at tells
  rcases tells _ rfl with ⟨hnone, -⟩ | hlast
  · -- the room has a session by now
    simp [RoomRecord.situation, hsession] at hnone
  · rw [hlast, RoomRecord.situation_of_current? hsession]
    simp only [SessionStatus.phase_eq_inUse_iff]

/-! ## When devices are in lockstep -/

/-- The device of a room is active exactly while the last session of the room is in use. -/
def InLockstep (s : Store) (room : RoomId) : Prop :=
  ∀ r session d device, s.rooms.get? room = some r → r.current? = some session →
    r.room.device = some d → s.devices.get? d = some device →
    (device.active = true ↔ session.status = .inUse)

/-- **When a device is in lockstep with its room.** Let every room of a fresh store have a device of its
own, let any number of callers act on it in any interleaving, and let all of them have returned. Once a
room has had a session, the changes made to its device are, in some order, those that the commits in the
room asked for; and the device is in lockstep if and only if the change that was made last is to the
activity that was asked for last. -/
theorem lockstep_iff (seed : Seed) (linked : (Store.ofSeed seed).Linked) (requests : List Request)
    (turns : List Turn)
    (returned : ((Crowd.start (Store.ofSeed seed) requests).run turns).Returned) :
    let w := (Crowd.start (Store.ofSeed seed) requests).run turns
    let asked room := effects room ((Store.ofSeed seed).transcript w.commands)
    w.store = (Store.ofSeed seed).after w.commands ∧
    ∀ room r, w.store.rooms.get? room = some r → r.history ≠ [] →
      ∃ d, r.room.device = some d ∧ (w.store.devices.get? d).isSome = true ∧
        (activities d w.store.toggles).Perm (asked room) ∧
        (InLockstep w.store room ↔
          (activities d w.store.toggles).getLast? = (asked room).getLast?) := by
  intro w asked
  obtain ⟨c, sound, hw⟩ := Crew.exists_sound seed linked requests turns
  -- the store and the commands of the crowd are those of its crew
  rw [hw] at returned
  have hstore : w.store = c.store := congrArg Crowd.store hw
  have hcommands : w.commands = c.commands := congrArg Crowd.commands hw
  rw [hstore, hcommands]
  refine ⟨sound.store_eq, fun room r hr hhistory => ?_⟩
  obtain ⟨d, device, hd, hdevice⟩ := sound.linked.known hr
  obtain ⟨session, hsession⟩ : ∃ session, r.current? = some session :=
    Option.ne_none_iff_exists'.mp fun hnone => hhistory (List.getLast?_eq_none_iff.mp hnone)
  have hperm : (activities d c.store.toggles).Perm (asked room) := by
    have hasked := sound.asked hr hd
    rwa [Crew.changes_of_returned returned, ← hcommands] at hasked
  have hlast : (asked room).getLast? = some (decide (session.status = .inUse)) := by
    have hr' := hr
    rw [sound.store_eq, ← hcommands] at hr'
    exact getLast?_effects seed w.commands hr' hsession
  -- something was asked for, so something was made, and the device shows the last of it
  obtain ⟨active, hactive⟩ : ∃ active, (activities d c.store.toggles).getLast? = some active := by
    refine Option.ne_none_iff_exists'.mp fun hnone => ?_
    rw [List.getLast?_eq_none_iff.mp hnone] at hperm
    rw [hperm.symm.eq_nil] at hlast
    cases hlast
  have hshown : device.active = active := sound.faithful d device hdevice active hactive
  refine ⟨d, hd, by rw [hdevice]; rfl, hperm, ?_⟩
  rw [hlast, hactive, Option.some.injEq, ← hshown]
  constructor
  · intro h
    have hiff := h r session d device hr hsession hd hdevice
    rw [Bool.eq_iff_iff, hiff, decide_eq_true_iff]
  · intro h r' session' d' device' hr' hsession' hd' hdevice'
    -- there is one room, one session and one device to speak of
    obtain rfl : r = r' := Option.some.inj (hr.symm.trans hr')
    obtain rfl : session = session' := Option.some.inj (hsession.symm.trans hsession')
    obtain rfl : d = d' := Option.some.inj (hd.symm.trans hd')
    obtain rfl : device = device' := Option.some.inj (hdevice.symm.trans hdevice')
    rw [h, decide_eq_true_iff]

/-! ### A studio with a lamp -/

/-- Room 7 with device 9. -/
def studio : Seed :=
  ⟨[⟨7, 1, "studio", .active, some 9⟩], [⟨9, "lamp", none, false⟩]⟩

theorem studio_linked : (Store.ofSeed studio).Linked := by
  have hrooms : ∀ {room r}, (Store.ofSeed studio).rooms.get? room = some r →
      room = 7 ∧ r = ⟨⟨7, 1, "studio", .active, some 9⟩, []⟩ := by
    intro room r hr
    rw [Store.ofSeed, studio, List.foldl_cons, List.foldl_nil, Store.insertRoom, Table.alter,
      Table.get?_set] at hr
    split at hr
    · rename_i hroom
      cases hr
      exact ⟨hroom, rfl⟩
    · cases hr
  constructor
  · intro room r hr
    obtain ⟨-, rfl⟩ := hrooms hr
    exact ⟨9, ⟨9, "lamp", none, false⟩, rfl, rfl⟩
  · intro room room' r r' d hr hr' _ _
    rw [(hrooms hr).1, (hrooms hr').1]

/-- A booking, a pause and a resumption in the studio, by callers 0, 1 and 2 in the given order. -/
def studioRun (callers : List Nat) : Crowd :=
  (Crowd.start (Store.ofSeed studio)
    [.assign 7 none 3600, .transition 7 .pause, .transition 7 .resume]).run
    (callers.map fun caller => ⟨caller, .epoch, ⟨1⟩⟩)

/-- One after another, the three leave the lamp in lockstep. -/
theorem lockstep_iff_one_by_one :
    (studioRun [0, 0, 0, 1, 1, 1, 2, 2, 2]).Returned ∧
      InLockstep (studioRun [0, 0, 0, 1, 1, 1, 2, 2, 2]).store 7 := by
  have returned : (studioRun [0, 0, 0, 1, 1, 1, 2, 2, 2]).Returned := by decide +kernel
  refine ⟨returned, ?_⟩
  have hlink : ((studioRun [0, 0, 0, 1, 1, 1, 2, 2, 2]).store.rooms.get? 7).bind (·.room.device) =
      some 9 := by decide +kernel
  have hhistory : (((studioRun [0, 0, 0, 1, 1, 1, 2, 2, 2]).store.rooms.get? 7).map
      (·.history.length)) = some 1 := by decide +kernel
  obtain ⟨r, hr, hlength⟩ := Option.map_eq_some_iff.mp hhistory
  rw [hr] at hlink
  obtain ⟨d, hd, -, -, hiff⟩ := (lockstep_iff studio studio_linked _ _ returned).2 7 r hr
    (List.ne_nil_of_length_eq_add_one hlength)
  obtain rfl : d = 9 := Option.some.inj (hd.symm.trans hlink)
  refine hiff.mpr ?_
  decide +kernel

/-- **A device out of step.** A pause commits; a resumption commits and switches the lamp on; only then
does the pause switch it off. All callers have returned, the session is in use and the lamp is off. -/
theorem not_inLockstep_overtaken :
    (Store.ofSeed studio).Linked ∧ (studioRun [0, 0, 0, 1, 1, 2, 2, 2, 1]).Returned ∧
      ¬ InLockstep (studioRun [0, 0, 0, 1, 1, 2, 2, 2, 1]).store 7 := by
  refine ⟨studio_linked, by decide +kernel, fun h => ?_⟩
  -- the lamp is off while the session is in use
  have hroom : ((studioRun [0, 0, 0, 1, 1, 2, 2, 2, 1]).store.rooms.get? 7).bind (fun r =>
      r.current?.map fun session => (r.room.device, session.status)) = some (some 9, .inUse) := by
    decide +kernel
  have hlamp : ((studioRun [0, 0, 0, 1, 1, 2, 2, 2, 1]).store.devices.get? 9).map (·.active) =
      some false := by decide +kernel
  obtain ⟨r, hr, hcurrent⟩ := Option.bind_eq_some_iff.mp hroom
  obtain ⟨session, hsession, hpair⟩ := Option.map_eq_some_iff.mp hcurrent
  obtain ⟨lamp, hdevice, hoff⟩ := Option.map_eq_some_iff.mp hlamp
  obtain ⟨hd, running⟩ := Prod.mk.inj hpair
  have hon : lamp.active = true := (h r session 9 lamp hr hsession hd hdevice).mpr running
  rw [hoff] at hon
  cases hon

end Operation

end Occupancy
