import Occupancy.Http.Routes
import Occupancy.Proofs.Operation.Interleaving
import Occupancy.Proofs.Program

/-!
# What an answer says about the change

A request that changes a room makes a chain of calls: the commit, the change of the device, the reading of
the fresh view and its publication. Every call to the store may fail. An answer is honest about a room if
an error means that nothing was changed, and a change was handed to the publisher.

Main statement: `honest_iff`. An answer is honest unless a change was committed and the view of the room
could not be read afterwards.
-/

namespace Occupancy

/-! ## Stores that fail -/

/-- The reply of a call that fails. The clock does not fail. -/
def StoreCall.refusal (c : StoreCall) (e : RoomError) : Option c.Reply :=
  match c with
  | .now => none
  | .assign _ _ _ _ => some (Except.error e)
  | .apply _ _ _ => some (Except.error e)
  | .finalizeExpired _ => some (Except.error e)
  | .view _ _ => some (Except.error (.refused e))
  | .views _ _ => some (Except.error (.refused e))
  | .setActive _ _ => some (Except.error e)

/-- A store's answer to a call that fails with `fault`, if there is one. -/
def Store.answerWith (s : Store) (fault : Option RoomError) (now : Instant) (id : SessionId)
    (c : StoreCall) : c.Reply × Store :=
  match fault.bind c.refusal with
  | some r => (r, s)
  | none => s.answer now id c

namespace Simulation.World

/-- A call is answered by the store as it is, or it fails and leaves the store alone. -/
theorem answerWith_of_onStore {w w' : World} {target : StoreTarget} {c : StoreCall}
    {failed : RoomError → c.Reply} {run : World → c.Reply × World} {r : c.Reply}
    (answered : w.onStore target failed run = .reply r w')
    (refuses : ∀ e, c.refusal e = some (failed e))
    (performs : ∀ faults, w.store.answer w.now (.ofNat (w.opened + 1)) c =
      ((run { w with storeFaults := faults }).1, (run { w with storeFaults := faults }).2.store)) :
    ∃ fault, w.store.answerWith fault w.now (.ofNat (w.opened + 1)) c = (r, w'.store) := by
  unfold onStore at answered
  -- the fault is a reply of the store as well, and a hang is no reply
  cases hj : judge target w.storeFaults with
  | mk verdict faults =>
    rw [hj] at answered
    cases verdict with
    | pass =>
      cases answered
      exact ⟨none, performs faults⟩
    | fail e =>
      cases answered
      exact ⟨some e, by rw [Store.answerWith, Option.bind_some, refuses]⟩
    | hang => cases answered

/-- The simulated server answers so, whatever faults are injected. -/
theorem performStore_answerWith {w w' : World} {c : StoreCall} {r : c.Reply}
    (answered : w.performStore c = .reply r w') :
    ∃ fault, w.store.answerWith fault w.now (.ofNat (w.opened + 1)) c = (r, w'.store) := by
  -- each call is one of the store's; those that may fail leave it then as it was
  cases c with
  | now =>
    cases answered
    exact ⟨none, rfl⟩
  | assign room customer duration now =>
    rw [performStore] at answered
    refine answerWith_of_onStore answered (fun _ => rfl) fun faults => ?_
    dsimp only [Store.answer]
    cases w.store.assign (.ofNat (w.opened + 1)) room customer duration now <;> rfl
  | apply room t now =>
    rw [performStore] at answered
    refine answerWith_of_onStore answered (fun _ => rfl) fun faults => ?_
    dsimp only [Store.answer]
    cases w.store.apply room t now <;> rfl
  | finalizeExpired now =>
    rw [performStore] at answered
    exact answerWith_of_onStore answered (fun _ => rfl) fun _ => rfl
  | view room now =>
    rw [performStore] at answered
    exact answerWith_of_onStore answered (fun _ => rfl) fun _ => rfl
  | views rooms now =>
    rw [performStore] at answered
    exact answerWith_of_onStore answered (fun _ => rfl) fun _ => rfl
  | setActive device active =>
    rw [performStore] at answered
    refine answerWith_of_onStore answered (fun _ => rfl) fun faults => ?_
    dsimp only [Store.answer]
    cases w.store.setActive device active <;> rfl

end Simulation.World

namespace Store

variable {s s' : Store} {room key : RoomId}

theorem history_set_of_ne {r : RoomRecord} (h : room ≠ key) :
    ({ s with rooms := s.rooms.set key r } : Store).history room = s.history room := by
  simp only [history, Table.get?_set, if_neg h]

/-- An assignment leaves the history of every other room. -/
theorem history_of_assign {id : SessionId} {customer : Option Word} {duration : Word} {now : Instant}
    {c : Commit} (h : s.assign id key customer duration now = .ok (c, s')) (hroom : room ≠ key) :
    s'.history room = s.history room := by
  rcases s.assign_cases id key customer duration now with
    ⟨-, h'⟩ | ⟨r, -, -, ⟨-, h'⟩ | ⟨-, e, -, h'⟩ | ⟨-, session, -, h'⟩⟩
  -- an assignment that succeeds has written to its own room
  · rw [h'] at h; cases h
  · rw [h'] at h; cases h
  · rw [h'] at h; cases h
  · rw [h'] at h
    cases h
    exact history_set_of_ne hroom

/-- A change leaves the history of every other room. -/
theorem history_of_apply {t : Transition} {now : Instant} {c : Commit}
    (h : s.apply key t now = .ok (c, s')) (hroom : room ≠ key) :
    s'.history room = s.history room := by
  rcases s.apply_cases key t now with
    ⟨-, h'⟩ | ⟨r, -, ⟨-, h'⟩ | ⟨current, -, ⟨e, -, h'⟩ | ⟨next, -, h'⟩⟩⟩
  · rw [h'] at h; cases h
  · rw [h'] at h; cases h
  · rw [h'] at h; cases h
  · rw [h'] at h
    cases h
    exact history_set_of_ne hroom

/-- Switching a device leaves every history. -/
theorem history_of_setActive {device : DeviceId} {active : Bool}
    (h : s.setActive device active = .ok s') (room : RoomId) : s'.history room = s.history room := by
  rcases s.setActive_cases device active with ⟨-, h'⟩ | ⟨d, -, h'⟩
  · rw [h'] at h; cases h
  · rw [h'] at h
    cases h
    rfl

variable (fault : Option RoomError) (now : Instant) (id : SessionId)

@[simp] theorem answerWith_now (s : Store) : s.answerWith fault now id .now = (now, s) := by
  cases fault <;> rfl

/-- An assignment is refused and leaves the store alone, or it touches its own room only. -/
theorem answerWith_assign (s : Store) (key : RoomId) (customer : Option Word) (duration : Word)
    (time : Instant) :
    (∃ e, s.answerWith fault now id (.assign key customer duration time) = (Except.error e, s)) ∨
    ∃ c s', s.answerWith fault now id (.assign key customer duration time) = (Except.ok c, s') ∧
      ∀ room, room ≠ key → s'.history room = s.history room := by
  cases fault with
  | some e => exact .inl ⟨e, rfl⟩
  | none =>
    simp only [answerWith, Option.bind_none, answer]
    cases h : s.assign id key customer duration time with
    | error e => exact .inl ⟨e, rfl⟩
    | ok x => exact .inr ⟨x.1, x.2, rfl, fun room hroom => history_of_assign h hroom⟩

/-- A transition is refused and leaves the store alone, or it touches its own room only. -/
theorem answerWith_apply (s : Store) (key : RoomId) (t : Transition) (time : Instant) :
    (∃ e, s.answerWith fault now id (.apply key t time) = (Except.error e, s)) ∨
    ∃ c s', s.answerWith fault now id (.apply key t time) = (Except.ok c, s') ∧
      ∀ room, room ≠ key → s'.history room = s.history room := by
  cases fault with
  | some e => exact .inl ⟨e, rfl⟩
  | none =>
    simp only [answerWith, Option.bind_none, answer]
    cases h : s.apply key t time with
    | error e => exact .inl ⟨e, rfl⟩
    | ok x => exact .inr ⟨x.1, x.2, rfl, fun room hroom => history_of_apply h hroom⟩

/-- Setting an activity touches no room. -/
theorem history_answerWith_setActive (s : Store) (device : DeviceId) (active : Bool) (room : RoomId) :
    (s.answerWith fault now id (.setActive device active)).2.history room = s.history room := by
  cases fault with
  | some e => rfl
  | none =>
    simp only [answerWith, Option.bind_none, answer]
    cases h : s.setActive device active with
    | error e => rfl
    | ok s' => exact history_of_setActive h room

/-- Reading a view leaves the store alone, and what is read is the view. -/
theorem answerWith_view (s : Store) (key : RoomId) (time : Instant) :
    (∃ e, s.answerWith fault now id (.view key time) = (Except.error e, s)) ∨
    ∃ v, s.answerWith fault now id (.view key time) = (Except.ok v, s) ∧ s.view key time = .ok v := by
  cases fault with
  | some e => exact .inl ⟨.refused e, rfl⟩
  | none =>
    simp only [answerWith, Option.bind_none, answer]
    cases h : s.view key time with
    | error e => exact .inl ⟨e, rfl⟩
    | ok v => exact .inr ⟨v, rfl, rfl⟩

end Store

namespace Http

/-! ## A server under faults -/

/-- What a server meets: at its call number `n` to the store the clock shows `now n`, a new session would
get the number `id n`, and the call fails with `fault n` if that is an error. -/
structure Circumstances where
  now : Nat → Instant
  id : Nat → SessionId
  fault : Nat → Option RoomError
  health : Health

/-- A server that answers one request: its store, the calls made to the store with their replies, and the
views handed to the publisher. -/
structure Desk where
  store : Store
  calls : List ((c : StoreCall) × c.Reply) := []
  broadcasts : List RoomView := []

namespace Desk

/-- Makes a call to the store. -/
def serve (x : Circumstances) (c : StoreCall) (d : Desk) : c.Reply × Desk :=
  let n := d.calls.length
  let a := d.store.answerWith (x.fault n) (x.now n) (x.id n) c
  (a.1, { d with store := a.2, calls := d.calls ++ [⟨c, a.1⟩] })

def answer (x : Circumstances) : (c : RouteCall) → Desk → c.Reply × Desk
  | .store c, d => d.serve x c
  | .broadcast v, d => ((), { d with broadcasts := d.broadcasts ++ [v] })
  | .health, d => (x.health, d)

end Desk

/-- Is an answer right about a room? An error means that the room's sessions are as before, and if they
are not, then exactly the room's view as it is now was handed to the publisher. -/
structure Honest (room : RoomId) (before : Store) (response : Response) (after : Desk) : Prop where
  unchanged : response.status ≠ 200 → after.store.history room = before.history room
  announced : after.store.history room ≠ before.history room →
    ∃ v now, after.store.view room now = .ok v ∧ after.broadcasts = [v]

/-! ## One call -/

namespace Desk

variable {x : Circumstances} {c : StoreCall} {d d' d'' : Desk} {room : RoomId}

/-- Between two moments no room but `spared` changed its sessions, no view was read, and nothing was handed
to the publisher. -/
structure Quiet (spared : Option RoomId) (d d' : Desk) : Prop where
  history : ∀ room, some room ≠ spared → d'.store.history room = d.store.history room
  broadcasts : d'.broadcasts = d.broadcasts
  unread : ∀ room now r, ⟨.view room now, r⟩ ∈ d'.calls → ⟨.view room now, r⟩ ∈ d.calls

namespace Quiet

variable {spared : Option RoomId}

theorem refl (d : Desk) : Quiet spared d d :=
  ⟨fun _ _ => rfl, rfl, fun _ _ _ h => h⟩

theorem trans (h : Quiet spared d d') (h' : Quiet spared d' d'') : Quiet spared d d'' :=
  ⟨fun room hroom => (h'.history room hroom).trans (h.history room hroom),
    h'.broadcasts.trans h.broadcasts, fun room now r hr => h.unread room now r (h'.unread room now r hr)⟩

theorem weaken (h : Quiet none d d') : Quiet spared d d' :=
  ⟨fun room _ => h.history room (Option.some_ne_none room), h.broadcasts, h.unread⟩

end Quiet

/-- A call that reads no view is quiet about the rooms that it leaves. -/
theorem quiet_called {spared : Option RoomId} {store : Store} {r : c.Reply}
    (unread : ∀ room now, c ≠ .view room now)
    (history : ∀ room, some room ≠ spared → store.history room = d.store.history room) :
    Quiet spared d { d with store, calls := d.calls ++ [⟨c, r⟩] } := by
  refine ⟨history, rfl, fun room now r' hr => ?_⟩
  rcases List.mem_append.mp hr with hr | hr
  · exact hr
  · rw [List.mem_singleton] at hr
    cases hr
    exact (unread room now rfl).elim

/-! ## Parts of a route -/

theorem quiet_now (x : Circumstances) (d : Desk) : Quiet none d (d.serve x .now).2 := by
  refine quiet_called (c := .now) (fun _ _ h => by cases h) fun room _ => ?_
  rw [Store.answerWith_now]

theorem quiet_setActive (x : Circumstances) (device : DeviceId) (active : Bool) (d : Desk) :
    Quiet none d (d.serve x (.setActive device active)).2 :=
  quiet_called (c := .setActive device active) (fun _ _ h => by cases h) fun room _ =>
    Store.history_answerWith_setActive _ _ _ d.store device active room

theorem quiet_syncDevice (x : Circumstances) (device : Option DeviceId) (active : Bool) (d : Desk) :
    Quiet none d ((Operation.syncDevice device active).run (serve x) d).2 := by
  cases device with
  | none => exact .refl d
  | some device => exact quiet_setActive x device active d

/-- A commit in a room: it is refused quietly, or it is made and only the room may have changed. -/
def Commits {α : Type} (room : RoomId) (d : Desk) (a : Except RoomError α × Desk) : Prop :=
  (∃ e, a.1 = .error e ∧ Quiet none d a.2) ∨ ∃ c, a.1 = .ok c ∧ Quiet (some room) d a.2

/-- An assignment of the store is refused without an effect, or commits for its room only. -/
theorem commits_assign (x : Circumstances) (room : RoomId) (customer : Option Word) (duration : Word)
    (time : Instant) (d : Desk) :
    Commits (α := Commit) room d (d.serve x (.assign room customer duration time)) := by
  have unread : ∀ room' now, StoreCall.assign room customer duration time ≠ .view room' now :=
    fun _ _ h => by cases h
  rcases Store.answerWith_assign (x.fault d.calls.length) (x.now d.calls.length)
    (x.id d.calls.length) d.store room customer duration time with ⟨e, h⟩ | ⟨c, s', h, hroom⟩
  · left
    rw [serve, h]
    exact ⟨e, rfl, quiet_called unread fun _ _ => rfl⟩
  · right
    rw [serve, h]
    exact ⟨c, rfl, quiet_called unread fun room' hne => hroom room' fun heq => hne (heq ▸ rfl)⟩

/-- A change of a session is refused without an effect, or commits for its room only. -/
theorem commits_apply (x : Circumstances) (room : RoomId) (t : Transition) (time : Instant) (d : Desk) :
    Commits (α := Commit) room d (d.serve x (.apply room t time)) := by
  have unread : ∀ room' now, StoreCall.apply room t time ≠ .view room' now := fun _ _ h => by cases h
  rcases Store.answerWith_apply (x.fault d.calls.length) (x.now d.calls.length)
    (x.id d.calls.length) d.store room t time with ⟨e, h⟩ | ⟨c, s', h, hroom⟩
  · left
    rw [serve, h]
    exact ⟨e, rfl, quiet_called unread fun _ _ => rfl⟩
  · right
    rw [serve, h]
    exact ⟨c, rfl, quiet_called unread fun room' hne => hroom room' fun heq => hne (heq ▸ rfl)⟩

/-- An assignment as the service runs it commits for its room only. -/
theorem run_assign (x : Circumstances) (room : RoomId) (customer : Option Word) (duration : Word)
    (d : Desk) : Commits room d ((Operation.assign room customer duration).run (serve x) d) := by
  have hnow := quiet_now x d
  have hcommit := commits_assign x room customer duration (d.serve x .now).1 (d.serve x .now).2
  simp only [Operation.assign, Program.run]
  -- the clock's reading and the store's reply are all that the rest depends on
  generalize d.serve x .now = a at hnow hcommit ⊢
  generalize a.2.serve x (.assign room customer duration a.1) = b at hcommit ⊢
  obtain ⟨r, d'⟩ := b
  rcases hcommit with ⟨e, rfl, hquiet⟩ | ⟨c, rfl, hquiet⟩
  · exact .inl ⟨e, rfl, hnow.trans hquiet⟩
  · -- what follows a commit cannot undo it
    right
    rw [Program.run_bind]
    exact ⟨c.session.id, rfl,
      (hnow.weaken.trans hquiet).trans (quiet_syncDevice x c.device true d').weaken⟩

theorem run_transition (x : Circumstances) (room : RoomId) (t : Transition) (d : Desk) :
    Commits room d ((Operation.transition room t).run (serve x) d) := by
  have hnow := quiet_now x d
  have hcommit := commits_apply x room t (d.serve x .now).1 (d.serve x .now).2
  simp only [Operation.transition, Program.run]
  generalize d.serve x .now = a at hnow hcommit ⊢
  generalize a.2.serve x (.apply room t a.1) = b at hcommit ⊢
  obtain ⟨r, d'⟩ := b
  rcases hcommit with ⟨e, rfl, hquiet⟩ | ⟨c, rfl, hquiet⟩
  · exact .inl ⟨e, rfl, hnow.trans hquiet⟩
  · right
    -- a change that concerns a device settles it after the commit
    have hmade := hnow.weaken.trans hquiet
    dsimp only
    cases t.deviceEffect with
    | none => exact ⟨c, rfl, hmade⟩
    | some active =>
      dsimp only
      rw [Program.run_bind]
      exact ⟨c, rfl, hmade.trans (quiet_syncDevice x c.device active d').weaken⟩

theorem run_ofAction {α : Type} (x : Circumstances) (p : Operation.Action α) (d : Desk) :
    (ofAction p).run (answer x) d = p.run (serve x) d := by
  rw [ofAction, Program.run_lift]
  rfl

/-! ## Whole routes -/

/-- How a request about a room ends: no sessions changed, or the fresh view was handed to the publisher
and the request succeeds, or it fails because the view could not be read. -/
inductive Ends (room : RoomId) (before : Store) : Response × Desk → Prop where
  | idle {a : Response × Desk} (same : ∀ room, a.2.store.history room = before.history room) :
      Ends room before a
  | announced {a : Response × Desk} {v : RoomView} {now : Instant}
      (others : ∀ room', room' ≠ room → a.2.store.history room' = before.history room')
      (fresh : a.2.store.view room now = .ok v) (handed : a.2.broadcasts = [v])
      (succeeds : a.1.status = 200) (read : ∀ now e, ⟨.view room now, .error e⟩ ∉ a.2.calls) :
      Ends room before a
  | unread {a : Response × Desk} {e : ViewError} {now : Instant}
      (others : ∀ room', room' ≠ room → a.2.store.history room' = before.history room')
      (failed : ⟨.view room now, .error e⟩ ∈ a.2.calls) (fails : a.1.status ≠ 200) :
      Ends room before a

theorem status_ofError (e : RoomError) : (Response.ofError e).status ≠ 200 := by
  cases e <;> simp [Response.ofError, errorStatus]

theorem status_ofViewError (e : ViewError) : (Response.ofViewError e).status ≠ 200 := by
  cases e with
  | refused e => exact status_ofError e
  | overflow => simp [Response.ofViewError, Response.bare]

/-- After a commit a route ends with the fresh view, or with the failure to read it. -/
theorem ends_publishRoom (x : Circumstances) (body : RoomView → Json.Value) {s : Store}
    (h : Quiet (some room) ⟨s, [], []⟩ d) : Ends room s ((publishRoom room body).run (answer x) d) := by
  have hquiet := h.trans (quiet_now x d).weaken
  rw [publishRoom, Program.run_bind, run_ofAction, Operation.view]
  simp only [Program.run]
  generalize d.serve x .now = a at hquiet ⊢
  obtain ⟨now, d'⟩ := a
  dsimp only at hquiet ⊢
  -- the room's own history may differ, the others' may not
  have others : ∀ room', room' ≠ room → d'.store.history room' = s.history room' :=
    fun room' hne => hquiet.history room' fun heq => hne (Option.some.inj heq)
  rw [serve]
  rcases Store.answerWith_view (x.fault d'.calls.length) (x.now d'.calls.length)
    (x.id d'.calls.length) d'.store room now with ⟨e, hread⟩ | ⟨v, hread, hview⟩
  -- committed, and the view of it could not be read
  · rw [hread]
    exact .unread others (List.mem_append_right _ (List.mem_singleton_self _)) (status_ofViewError e)
  · rw [hread]
    refine .announced others hview ?_ rfl fun now' e hmem => ?_
    · exact congrArg (· ++ [v]) hquiet.broadcasts
    · -- the only view that was read is this one
      rcases List.mem_append.mp hmem with hmem | hmem
      · exact List.not_mem_nil (hquiet.unread room now' _ hmem)
      · cases List.mem_singleton.mp hmem

/-- A route that commits ends as its commit does: nothing was changed, or the room is announced. -/
theorem ends_commit {α : Type} (x : Circumstances) {s : Store} {p : Operation.Action (Except RoomError α)}
    {next : Except RoomError α → Handler}
    (commits : Commits room ⟨s, [], []⟩ (p.run (serve x) ⟨s, [], []⟩))
    (refused : ∀ e, next (.error e) = .done (.ofError e))
    (made : ∀ c, ∃ body, next (.ok c) = publishRoom room body) :
    Ends room s (((ofAction p).bind next).run (answer x) ⟨s, [], []⟩) := by
  -- without a commit nothing has happened, with one the room's view is read and published
  rw [Program.run_bind, run_ofAction]
  generalize p.run (serve x) ⟨s, [], []⟩ = a at commits ⊢
  obtain ⟨r, d'⟩ := a
  rcases commits with ⟨e, rfl, hquiet⟩ | ⟨c, rfl, hquiet⟩
  · rw [refused]
    exact .idle fun room' => hquiet.history room' (Option.some_ne_none room')
  · obtain ⟨body, hbody⟩ := made c
    rw [hbody]
    exact ends_publishRoom x body hquiet

theorem ends_assign (x : Circumstances) (q : AssignRequest) (s : Store) :
    Ends q.room s ((Http.assign q).run (answer x) ⟨s, [], []⟩) :=
  ends_commit x (run_assign x q.room q.customer q.duration _) (fun _ => rfl) fun _ => ⟨_, rfl⟩

theorem ends_transition (x : Circumstances) (room : RoomId) (t : Transition) (s : Store) :
    Ends room s ((Http.transition room t).run (answer x) ⟨s, [], []⟩) :=
  ends_commit x (run_transition x room t _) (fun _ => rfl) fun _ => ⟨_, rfl⟩

theorem ends_showRoom (x : Circumstances) (room : RoomId) (s : Store) :
    Ends room s ((showRoom room).run (answer x) ⟨s, [], []⟩) := by
  refine .idle fun room' => ?_
  have hnow := quiet_now x ⟨s, [], []⟩
  rw [showRoom, Program.run_bind, run_ofAction, Operation.view]
  simp only [Program.run]
  generalize serve x .now ⟨s, [], []⟩ = a at hnow ⊢
  -- reading changes nothing, whatever comes of it
  obtain ⟨now, d'⟩ := a
  dsimp only at hnow ⊢
  have hsame := hnow.history room' (Option.some_ne_none room')
  rw [serve]
  rcases Store.answerWith_view (x.fault d'.calls.length) (x.now d'.calls.length)
    (x.id d'.calls.length) d'.store room now with ⟨e, hread⟩ | ⟨v, hread, -⟩
  · rw [hread]; exact hsame
  · rw [hread]; exact hsame

theorem ends_done (x : Circumstances) (s : Store) (response : Response) :
    ∃ room, Ends room s (Program.run (S := RouteCalls) (answer x) (.done response) ⟨s, [], []⟩) :=
  ⟨0, .idle fun _ => rfl⟩

theorem ends_withRoom (x : Circumstances) (text : List Char) {handler : RoomId → Handler} {s : Store}
    (ends : ∀ room, ∃ key, Ends key s ((handler room).run (answer x) ⟨s, [], []⟩)) :
    ∃ key, Ends key s ((withRoom text handler).run (answer x) ⟨s, [], []⟩) := by
  unfold withRoom
  cases Target.readId? text with
  | some room => exact ends room
  | none => exact ends_done x s _

/-- Every route ends in one of the three ways. -/
theorem ends_route (x : Circumstances) (route : Route) (r : Request) (s : Store) :
    ∃ room, Ends room s ((route.handle r).run (answer x) ⟨s, [], []⟩) := by
  -- the four ways to change a session are handled alike
  have move : ∀ t room, ∃ key, Ends key s ((Http.transition room t).run (answer x) ⟨s, [], []⟩) :=
    fun t room => ⟨room, ends_transition x room t s⟩
  cases route with
  | viewers => exact ends_done x s _
  | health => exact ⟨0, .idle fun _ => rfl⟩
  | assign =>
    rw [Route.handle]
    cases takeBody AssignRequest.read r with
    | ok q => exact ⟨q.room, ends_assign x q s⟩
    | error response => exact ends_done x s response
  | pause text => exact ends_withRoom x text (move .pause)
  | resume text => exact ends_withRoom x text (move .resume)
  | cancel text => exact ends_withRoom x text (move .cancel)
  | finalize text => exact ends_withRoom x text (move .finalize)
  | extend text =>
    refine ends_withRoom x text fun room => ?_
    cases takeBody readDelta r with
    | ok delta => exact move (.extend delta) room
    | error response => exact ends_done x s response
  | view text => exact ends_withRoom x text fun room => ⟨room, ends_showRoom x room s⟩

/-- The end of a request does not depend on the body of its answer. -/
theorem Ends.of_status {s : Store} {a b : Response × Desk} (h : Ends room s a)
    (status : b.1.status = a.1.status) (same : b.2 = a.2) : Ends room s b := by
  cases h with
  | idle h => exact .idle (same ▸ h)
  | announced others fresh handed succeeds read =>
    exact .announced (same ▸ others) (same ▸ fresh) (same ▸ handed) (status.trans succeeds) (same ▸ read)
  | unread others failed fails =>
    exact .unread (same ▸ others) (same ▸ failed) (status ▸ fails)

/-- Every request does. -/
theorem exists_ends (x : Circumstances) (r : Request) (s : Store) :
    -- the handler is the one that touches a room, and everything before it answers at once
    ∃ room, Ends room s ((handle r).run (answer x) ⟨s, [], []⟩) := by
  unfold handle
  split
  · exact ends_done x s _
  · cases Route.ofPath? r.target with
    | none => exact ends_done x s _
    | some route =>
      dsimp only
      split
      · exact ends_done x s _
      · obtain ⟨room, hends⟩ := ends_route x route r s
        split
        · -- an answer without its body says the same
          refine ⟨room, hends.of_status ?_ ?_⟩ <;> rw [Program.run_bind] <;> rfl
        · exact ⟨room, hends⟩

end Desk

/-! ## Honesty -/

/-- **Answers and changes.** Whatever fails on the way, the answer to a request is honest about a room
unless the room's sessions were changed and its view could not be read afterwards. -/
theorem honest_iff (r : Request) (s : Store) (x : Circumstances) (room : RoomId) :
    let a := (handle r).run (Desk.answer x) ⟨s, [], []⟩
    Honest room s a.1 a.2 ↔
      a.2.store.history room = s.history room ∨
        ∀ now e, ⟨.view room now, .error e⟩ ∉ a.2.calls := by
  intro a
  obtain ⟨key, hends⟩ := Desk.exists_ends x r s
  have of_same : a.2.store.history room = s.history room → Honest room s a.1 a.2 :=
    fun same => ⟨fun _ => same, fun changed => (changed same).elim⟩
  -- the room the request was for, or another one
  by_cases hkey : room = key
  · subst hkey
    cases hends with
    | idle same => exact ⟨fun _ => .inl (same room), fun _ => of_same (same room)⟩
    | announced others fresh handed succeeds read =>
      refine ⟨fun _ => .inr read, fun _ => ⟨fun fails => (fails succeeds).elim, fun _ => ?_⟩⟩
      exact ⟨_, _, fresh, handed⟩
    | unread others failed fails =>
      refine ⟨fun honest => .inl (honest.unchanged fails), fun h => ?_⟩
      exact of_same (h.resolve_right fun read => read _ _ failed)
  · -- a request leaves all rooms but its own
    have same : a.2.store.history room = s.history room := by
      cases hends with
      | idle same => exact same room
      | announced others => exact others room hkey
      | unread others => exact others room hkey
    exact ⟨fun _ => .inl same, fun _ => of_same same⟩

/-! ### A pause that is kept quiet -/

/-- Room 7 in use, without a device. -/
def studioInUse : Store :=
  (Store.ofSeed ⟨[⟨7, 1, "studio", .active, none⟩], []⟩).after [.assign ⟨1⟩ 7 none 3600 .epoch]

def pauseStudio : Request :=
  ⟨"PATCH", ⟨['/', 'p', 'a', 'u', 's', 'e', '/', '7'], none⟩, none, ""⟩

/-- The store fails at its fourth call, which is the reading of the view. -/
def viewFails : Circumstances where
  now _ := .epoch
  id _ := ⟨2⟩
  fault n := if n = 3 then some (.internal "connection reset") else none
  health := ⟨.up, 0, 0⟩

/-- **A change reported as failed.** The pause is committed, its view cannot be read, and the request is
answered with status 500. -/
theorem not_honest_pause :
    let a := (handle pauseStudio).run (Desk.answer viewFails) ⟨studioInUse, [], []⟩
    ¬ Honest 7 studioInUse a.1 a.2 := by
  intro a honest
  have fails : a.1.status ≠ 200 := by decide +kernel
  have changed : a.2.store.history 7 ≠ studioInUse.history 7 := by decide +kernel
  exact changed (honest.unchanged fails)

end Http

end Occupancy
