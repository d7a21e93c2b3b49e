import Mathlib.Logic.Relation
import Occupancy.Operation.Engine
import Occupancy.Proofs.Store.Commands
import Occupancy.Simulation.Perform

/-!
# Operator actions side by side

Any number of callers share one store. Each runs the program of its request, and a turn of a caller is
one request of that program answered in one indivisible step: a reading of the clock, a commit, or one
change of a device. A list of turns is therefore an interleaving, and every interleaving is one.

A caller is always in one of three places: it has not begun, it has read the clock, or it has committed
and owes changes of devices. `Crew` is a crowd seen that way, and `run_crowd` says that nothing else
happens.
-/

namespace Occupancy

/-! ## How a store answers -/

/-- The command that a call gives to the store, if it may change it. A new session gets number `id`. -/
def StoreCall.command? (id : SessionId) : StoreCall → Option Command
  | .now => none
  | .assign room customer duration time => some (.assign id room customer duration time)
  | .apply room t time => some (.apply room t time)
  | .finalizeExpired time => some (.finalizeExpired time)
  | .view _ _ => none
  | .views _ _ => none
  | .setActive device active => some (.setActive device active)

/-- A store's answer to a call, with the clock at `now` and `id` as the next new number. -/
def Store.answer (s : Store) (now : Instant) (id : SessionId) : (c : StoreCall) → c.Reply × Store
  | .now => (now, s)
  | .assign room customer duration now =>
    match s.assign id room customer duration now with
    | .ok (c, s') => (Except.ok c, s')
    | .error e => (Except.error e, s)
  | .apply room t now =>
    match s.apply room t now with
    | .ok (c, s') => (Except.ok c, s')
    | .error e => (Except.error e, s)
  | .finalizeExpired now => (Except.ok (s.finalizeExpired now).1, (s.finalizeExpired now).2)
  | .view room now => (s.view room now, s)
  | .views rooms now => (s.views rooms now, s)
  | .setActive device active =>
    match s.setActive device active with
    | .ok s' => (Except.ok (), s')
    | .error e => (Except.error e, s)

/-- The simulated server answers so where no fault is injected. -/
theorem Simulation.World.performStore_eq (w : World) (faultless : w.storeFaults = [])
    (c : StoreCall) :
    ∃ w', w.performStore c = .reply (w.store.answer w.now (.ofNat (w.opened + 1)) c).1 w' ∧
      w'.store = (w.store.answer w.now (.ofNat (w.opened + 1)) c).2 := by
  cases c with
  -- without faults the store is asked, and the world keeps what it becomes
  | now => exact ⟨w, rfl, rfl⟩
  | assign room customer duration now =>
    simp only [performStore, onStore, faultless, judge, Store.answer]
    cases w.store.assign (.ofNat (w.opened + 1)) room customer duration now with
    | ok x => exact ⟨_, rfl, rfl⟩
    | error e => exact ⟨_, rfl, rfl⟩
  | apply room t now =>
    simp only [performStore, onStore, faultless, judge, Store.answer]
    cases w.store.apply room t now with
    | ok x => exact ⟨_, rfl, rfl⟩
    | error e => exact ⟨_, rfl, rfl⟩
  | finalizeExpired now =>
    simp only [performStore, onStore, faultless, judge, Store.answer]
    exact ⟨_, rfl, rfl⟩
  | view room now =>
    simp only [performStore, onStore, faultless, judge, Store.answer]
    exact ⟨_, rfl, rfl⟩
  | views rooms now =>
    simp only [performStore, onStore, faultless, judge, Store.answer]
    exact ⟨_, rfl, rfl⟩
  | setActive device active =>
    simp only [performStore, onStore, faultless, judge, Store.answer]
    cases w.store.setActive device active with
    | ok x => exact ⟨_, rfl, rfl⟩
    | error e => exact ⟨_, rfl, rfl⟩

/-- A call changes the store as its command does. -/
theorem Store.answer_snd (s : Store) (now : Instant) (id : SessionId) (c : StoreCall) :
    (s.answer now id c).2 = s.after (c.command? id).toList := by
  cases c with
  | now => rfl
  | assign room customer duration time =>
    simp only [answer, StoreCall.command?, Option.toList_some, after_cons, after_nil, execute]
    cases s.assign id room customer duration time <;> rfl
  | apply room t time =>
    simp only [answer, StoreCall.command?, Option.toList_some, after_cons, after_nil, execute]
    cases s.apply room t time <;> rfl
  | finalizeExpired time => rfl
  | view room time => rfl
  | views rooms time => rfl
  | setActive device active =>
    simp only [answer, StoreCall.command?, Option.toList_some, after_cons, after_nil, execute]
    cases s.setActive device active <;> rfl

namespace Operation

/-! ## Crowds -/

/-- A call of an operator or of the sweeper that may change sessions. -/
inductive Request where
  | assign (room : RoomId) (customer : Option Word) (duration : Word)
  | transition (room : RoomId) (t : Transition)
  | finalizeExpired

/-- What a request does. Nothing here depends on its result. -/
def Request.action : Request → Action Unit
  | .assign room customer duration =>
    (Operation.assign room customer duration).bind fun _ => .done ()
  | .transition room t => (Operation.transition room t).bind fun _ => .done ()
  | .finalizeExpired => Operation.finalizeExpired.bind fun _ => .done ()

/-- A turn of one caller, with what the clock shows then and the next new session number. -/
structure Turn where
  caller : Nat
  now : Instant
  id : SessionId

/-- A store, what its callers have left to do, and the commands that it was given so far. -/
structure Crowd where
  store : Store
  calls : List (Action Unit)
  commands : List Command

namespace Crowd

/-- Callers that are about to begin. -/
def start (s : Store) (requests : List Request) : Crowd :=
  ⟨s, requests.map Request.action, []⟩

/-- The crowd after a turn. The turn of a caller that has returned is void. -/
def step (w : Crowd) (turn : Turn) : Crowd :=
  match w.calls[turn.caller]? with
  | some (.ask c next) =>
    let (reply, store) := w.store.answer turn.now turn.id c
    { store
      calls := w.calls.set turn.caller (next reply)
      commands := w.commands ++ (c.command? turn.id).toList }
  | some (.done _) => w
  | none => w

def run (w : Crowd) (turns : List Turn) : Crowd :=
  turns.foldl step w

def Returned (w : Crowd) : Prop :=
  ∀ p ∈ w.calls, p = .done ()

instance (p : Action Unit) : Decidable (p = .done ()) :=
  match p with
  | .done () => isTrue rfl
  | .ask _ _ => isFalse fun h => by cases h

instance (w : Crowd) : Decidable w.Returned :=
  inferInstanceAs (Decidable (∀ p ∈ w.calls, p = .done ()))

end Crowd

/-! ## The places of a caller -/

/-- Sets activities of devices in order, and returns. -/
def settle : List (DeviceId × Bool) → Action Unit
  | [] => .done ()
  | (device, active) :: rest => .ask (.setActive device active) fun _ => settle rest

/-- The change of a device that a commit asks for, if the room has a device. -/
def toggle (active : Bool) (c : Commit) : List (DeviceId × Bool) :=
  c.device.toList.map (·, active)

/-- Synchronising one device and then settling others is settling all of them. -/
theorem syncDevice_bind (device : Option DeviceId) (active : Bool) (rest : List (DeviceId × Bool)) :
    ((syncDevice device active).bind fun _ => settle rest) =
      settle (device.toList.map (·, active) ++ rest) := by
  cases device <;> rfl

theorem deactivateAll_eq (cs : List Commit) :
    deactivateAll cs = settle (cs.flatMap (toggle false)) := by
  induction cs with
  | nil => rfl
  | cons c rest ih => rw [deactivateAll, ih, syncDevice_bind, List.flatMap_cons, toggle]

namespace Request

/-- What a request does after it has read the clock. -/
def commit : Request → Instant → Action Unit
  | .assign room customer duration, now => .ask (.assign room customer duration now) fun
    | .error _ => settle []
    | .ok c => settle (toggle true c)
  | .transition room t, now => .ask (.apply room t now) fun
    | .error _ => settle []
    | .ok c =>
      match t.deviceEffect with
      | none => settle []
      | some active => settle (toggle active c)
  | .finalizeExpired, now => .ask (.finalizeExpired now) fun
    | .error _ => settle []
    | .ok cs => settle (cs.flatMap (toggle false))

/-- A request reads the clock first. -/
theorem action_eq (r : Request) : r.action = .ask .now r.commit := by
  have hsync : ∀ device active, ((syncDevice device active).bind fun _ => .done ()) =
      settle (device.toList.map (·, active)) := by
    intro device active
    rw [← List.append_nil (device.toList.map _), ← syncDevice_bind]
    rfl
  -- the two programs agree request by request, for every reply
  cases r with
  | assign room customer duration =>
    simp only [action, Operation.assign, Program.ask_bind]
    refine congrArg _ (funext fun now => congrArg _ (funext fun reply => ?_))
    cases reply with
    | error e => rfl
    | ok c => simp only [Program.bind_assoc, Program.done_bind, hsync, toggle]
  | transition room t =>
    simp only [action, Operation.transition, Program.ask_bind]
    refine congrArg _ (funext fun now => congrArg _ (funext fun reply => ?_))
    cases reply with
    | error e => rfl
    | ok c =>
      cases t.deviceEffect with
      | none => simp only [Program.done_bind, settle]
      | some active => simp only [Program.bind_assoc, Program.done_bind, hsync, toggle]
  | finalizeExpired =>
    simp only [action, Operation.finalizeExpired, Program.ask_bind]
    refine congrArg _ (funext fun now => congrArg _ (funext fun reply => ?_))
    cases reply with
    | error e => rfl
    | ok cs =>
      simp only [Program.bind_assoc, Program.done_bind, deactivateAll_eq]
      exact Program.bind_done _

def command (r : Request) (id : SessionId) (now : Instant) : Command :=
  match r with
  | .assign room customer duration => .assign id room customer duration now
  | .transition room t => .apply room t now
  | .finalizeExpired => .finalizeExpired now

/-- The changes of devices that a request owes once its command was answered. -/
def owes : Request → Outcome → List (DeviceId × Bool)
  | .assign _ _ _, .committed c => toggle true c
  | .transition _ t, .committed c => t.deviceEffect.toList.flatMap fun active => toggle active c
  | .finalizeExpired, .finalized cs => cs.flatMap (toggle false)
  | _, _ => []

/-- A commit is one command, and what follows it are the changes that are owed. -/
theorem commit_cases (r : Request) (now : Instant) (s : Store) (time : Instant) (id : SessionId) :
    ∃ c next, r.commit now = .ask c next ∧ c.command? id = some (r.command id now) ∧
      next (s.answer time id c).1 = settle (r.owes (s.execute (r.command id now)).1) := by
  -- the call of the commit is the command, and what is owed is read off its outcome
  cases r with
  | assign room customer duration =>
    refine ⟨_, _, rfl, rfl, ?_⟩
    simp only [Store.answer, command, Store.execute]
    cases s.assign id room customer duration now <;> rfl
  | transition room t =>
    refine ⟨_, _, rfl, rfl, ?_⟩
    simp only [Store.answer, command, Store.execute]
    cases s.apply room t now with
    | error e => rfl
    | ok x => cases ht : t.deviceEffect <;> simp [owes, ht]
  | finalizeExpired => exact ⟨_, _, rfl, rfl, rfl⟩

end Request

/-- Where a caller is in its program. -/
inductive Caller where
  | fresh (r : Request)
  | timed (r : Request) (now : Instant)
  | owing (toggles : List (DeviceId × Bool))

def Caller.action : Caller → Action Unit
  | .fresh r => r.action
  | .timed r now => r.commit now
  | .owing toggles => settle toggles

/-- A caller has returned when it owes nothing. -/
theorem Caller.eq_of_returned {c : Caller} (h : c.action = .done ()) : c = .owing [] := by
  cases c with
  -- only a caller that owes nothing has returned
  | fresh r =>
    rw [action, Request.action_eq] at h
    cases h
  | timed r now => cases r <;> cases h
  | owing toggles =>
    cases toggles with
    | nil => rfl
    | cons toggle rest => cases h

/-! ## Crews -/

/-- A crowd whose callers are all known to be in one of the three places. -/
structure Crew where
  store : Store
  callers : List Caller
  commands : List Command

namespace Crew

/-- A crew as a crowd. -/
def crowd (c : Crew) : Crowd :=
  ⟨c.store, c.callers.map Caller.action, c.commands⟩

/-- A turn that is not void. -/
inductive Step (c : Crew) : Crew → Prop where
  | begin {i : Nat} {r : Request} (now : Instant) (here : c.callers[i]? = some (.fresh r)) :
      Step c { c with callers := c.callers.set i (.timed r now) }
  | commit {i : Nat} {r : Request} {now : Instant} (id : SessionId)
      (here : c.callers[i]? = some (.timed r now)) :
      Step c
        { store := (c.store.execute (r.command id now)).2
          callers := c.callers.set i (.owing (r.owes (c.store.execute (r.command id now)).1))
          commands := c.commands ++ [r.command id now] }
  | toggle {i : Nat} {device : DeviceId} {active : Bool} {rest : List (DeviceId × Bool)}
      (here : c.callers[i]? = some (.owing ((device, active) :: rest))) :
      Step c
        { store := (c.store.execute (.setActive device active)).2
          callers := c.callers.set i (.owing rest)
          commands := c.commands ++ [.setActive device active] }

/-- A turn of a crowd is a step of its crew, or void. -/
theorem step_crowd (c : Crew) (turn : Turn) :
    c.crowd.step turn = c.crowd ∨ ∃ c', Step c c' ∧ c.crowd.step turn = c'.crowd := by
  cases hi : c.callers[turn.caller]? with
  | none =>
    left
    simp [Crowd.step, crowd, hi]
  | some caller =>
    cases caller with
    | fresh r =>
      -- the first request of every program is for the time
      right
      refine ⟨_, .begin turn.now hi, ?_⟩
      simp [Crowd.step, crowd, hi, Caller.action, Request.action_eq, Store.answer,
        StoreCall.command?, List.map_set]
    | timed r now =>
      right
      obtain ⟨call, next, hcommit, hcommand, hnext⟩ :=
        r.commit_cases now c.store turn.now turn.id
      refine ⟨_, .commit turn.id hi, ?_⟩
      simp only [Crowd.step, crowd, List.getElem?_map, hi, Option.map_some, Caller.action, hcommit,
        hnext, Store.answer_snd, hcommand, Option.toList_some, Store.after_cons, Store.after_nil,
        List.map_set]
    | owing toggles =>
      cases toggles with
      | nil =>
        -- this caller has returned
        left
        simp [Crowd.step, crowd, hi, Caller.action, settle]
      | cons first rest =>
        right
        obtain ⟨device, active⟩ := first
        refine ⟨_, .toggle hi, ?_⟩
        simp only [Crowd.step, crowd, List.getElem?_map, hi, Option.map_some, Caller.action, settle,
          Store.answer_snd, StoreCall.command?, Option.toList_some, Store.after_cons,
          Store.after_nil, List.map_set]

/-- An interleaving of a crowd is a sequence of steps of its crew. -/
theorem run_crowd (c : Crew) (turns : List Turn) :
    ∃ c', Relation.ReflTransGen Step c c' ∧ c.crowd.run turns = c'.crowd := by
  induction turns generalizing c with
  | nil => exact ⟨c, .refl, rfl⟩
  | cons turn rest ih =>
    rcases c.step_crowd turn with hvoid | ⟨c', hstep, hcrowd⟩
    -- a turn of nobody changes nothing
    · obtain ⟨c'', hrun, hcrowd''⟩ := ih c
      exact ⟨c'', hrun, by rw [← hcrowd'', Crowd.run, List.foldl_cons, hvoid, Crowd.run]⟩
    · obtain ⟨c'', hrun, hcrowd''⟩ := ih c'
      exact ⟨c'', .head hstep hrun, by rw [← hcrowd'', Crowd.run, List.foldl_cons, hcrowd, Crowd.run]⟩

end Crew

end Operation

end Occupancy
