import Occupancy.Proofs.Store.Machine

/-!
# Exactly one caller wins

Of several pauses of a session in use, or of several ways to close an open session, exactly one takes
effect. This follows from the rules of the machine alone: `Machine.TakesOne` says what the rules give
for one step, and `TakesOne.countP_of_ready` counts along a run. `Store.refines_machine` puts it
together with the refinement.
-/

namespace Occupancy

/-! ## Exactly one -/

namespace Command

def IsPause (room : RoomId) (c : Command) : Prop :=
  ∃ now, c = .apply room .pause now

/-- A call that closes the session of a room. -/
def IsClose (room : RoomId) (c : Command) : Prop :=
  ∃ now, c = .apply room .cancel now ∨ c = .apply room .finalize now

def IsExpiry (c : Command) : Prop :=
  ∃ now, c = .finalizeExpired now

end Command

namespace Machine

variable {room : RoomId} {x : Situation} {c : Command} {o : Outcome} {y : Option Situation}

/-- Did a command take effect on the machine of a room? -/
def accepted (room : RoomId) : Command × Outcome → Bool
  | (.assign _ key _ _ _, .committed _) => key = room
  | (.apply key _ _, .committed _) => key = room
  | (.finalizeExpired _, .finalized cs) => room ∈ Commit.rooms cs
  | _ => false

theorem accepted_of_undriven (undriven : ¬ c.Drives room) (o : Outcome) :
    accepted room (c, o) = false := by
  cases c with
  | assign _ key => cases o <;> simp_all [accepted, Command.Drives]
  | apply key => cases o <;> simp_all [accepted, Command.Drives]
  | finalizeExpired => exact absurd trivial undriven
  | bill | insertRoom | insertDevice | setActive => rfl

/-- A command for something else keeps the phase of a room. -/
theorem Step.phase_of_undriven (h : Step room (some x) c o y) (undriven : ¬ c.Drives room) :
    ∃ x', y = some x' ∧ x'.phase = x.phase := by
  cases h with
  | describe here => exact ⟨_, rfl, rfl⟩
  | elsewhere => exact ⟨x, rfl, rfl⟩
  | assignDeleted | assignTaken | assignInvalid | assigned => exact absurd rfl undriven
  | applied | overbooked | rejected => exact absurd rfl undriven
  | expired | unexpired => exact absurd trivial undriven

/-- Commands of which a machine takes up exactly one. While it is ready, a command of the kind leaves
it ready without effect or spends it, and a command that `insists` does the latter; once spent, it
refuses all of them. -/
structure TakesOne (room : RoomId) (kind insists : Command → Prop) (ready spent : Phase → Prop) :
    Prop where
  step_ready : ∀ {x c o y}, Step room (some x) c o y → kind c → ready x.phase → ∃ x', y = some x' ∧
    (accepted room (c, o) = true ∧ spent x'.phase ∨
      accepted room (c, o) = false ∧ ready x'.phase ∧ ¬ insists c)
  step_spent : ∀ {x c o y}, Step room (some x) c o y → kind c → spent x.phase → ∃ x', y = some x' ∧
    accepted room (c, o) = false ∧ spent x'.phase
  drives : ∀ {c}, insists c → c.Drives room

namespace TakesOne

variable {kind insists : Command → Prop} {ready spent : Phase → Prop} {z : Option Situation}
  {log : List (Command × Outcome)}

theorem countP_of_spent (h : TakesOne room kind insists ready spent) (run : Run room (some x) log z)
    (hkind : ∀ e ∈ log, e.1.Drives room → kind e.1) (hx : spent x.phase) :
    log.countP (accepted room) = 0 := by
  induction log generalizing x with
  | nil => rfl
  | cons e rest ih =>
    cases run with
    | @cons _ y _ c o _ first run =>
      have hrest : ∀ e ∈ rest, e.1.Drives room → kind e.1 :=
        fun e he => hkind e (List.mem_cons_of_mem _ he)
      -- a command of the kind is refused, and any other passes the room by
      obtain ⟨x', rfl, hrefused, hx'⟩ :
          ∃ x', y = some x' ∧ accepted room (c, o) = false ∧ spent x'.phase := by
        by_cases drives : c.Drives room
        · exact h.step_spent first (hkind (c, o) List.mem_cons_self drives) hx
        · obtain ⟨x', hy, hphase⟩ := first.phase_of_undriven drives
          exact ⟨x', hy, accepted_of_undriven drives o, hphase ▸ hx⟩
      rw [List.countP_cons_of_neg (by simp [hrefused])]
      exact ih run hrest hx'

theorem countP_of_ready (h : TakesOne room kind insists ready spent) (run : Run room (some x) log z)
    (hkind : ∀ e ∈ log, e.1.Drives room → kind e.1) (hx : ready x.phase)
    (hinsists : ∃ e ∈ log, insists e.1) : log.countP (accepted room) = 1 := by
  induction log generalizing x with
  | nil =>
    obtain ⟨e, he, -⟩ := hinsists
    cases he
  | cons e rest ih =>
    cases run with
    | @cons _ y _ c o _ first run =>
      have hrest : ∀ e ∈ rest, e.1.Drives room → kind e.1 :=
        fun e he => hkind e (List.mem_cons_of_mem _ he)
      obtain ⟨x', rfl, ⟨haccepted, hx'⟩ | ⟨hrefused, hx', hidle⟩⟩ : ∃ x', y = some x' ∧
          (accepted room (c, o) = true ∧ spent x'.phase ∨
            accepted room (c, o) = false ∧ ready x'.phase ∧ ¬ insists c) := by
        -- whatever does not drive the room leaves its phase
        by_cases drives : c.Drives room
        · exact h.step_ready first (hkind (c, o) List.mem_cons_self drives) hx
        · obtain ⟨x', hy, hphase⟩ := first.phase_of_undriven drives
          exact ⟨x', hy, .inr ⟨accepted_of_undriven drives o, hphase ▸ hx,
            fun hc => drives (h.drives hc)⟩⟩
      · -- the machine is spent from here on
        rw [List.countP_cons_of_pos haccepted, h.countP_of_spent run hrest hx']
      · -- still ready, so the command that insists is yet to come
        rw [List.countP_cons_of_neg (by simp [hrefused])]
        obtain ⟨e, he, hc⟩ := hinsists
        rcases List.mem_cons.mp he with rfl | he
        · exact absurd hc hidle
        · exact ih run hrest hx' ⟨e, he, hc⟩

end TakesOne

/-- Of several pauses of a session in use, exactly one takes effect. -/
theorem takesOne_pause (room : RoomId) :
    TakesOne room (Command.IsPause room) (Command.IsPause room) (· = .inUse) (· = .paused) where
  step_ready := by
    rintro x _ o y h ⟨now, rfl⟩ running
    cases h with
    | applied allowed leads =>
      rw [running] at allowed
      cases allowed
      exact ⟨_, rfl, .inl ⟨by simp [accepted], rfl⟩⟩
    | rejected forbidden =>
      rw [running] at forbidden
      cases forbidden
    | elsewhere undriven => exact absurd rfl undriven
  step_spent := by
    rintro x _ o y h ⟨now, rfl⟩ paused
    cases h with
    | applied allowed leads =>
      rw [paused] at allowed
      cases allowed
    | rejected forbidden => exact ⟨x, rfl, rfl, paused⟩
    | elsewhere undriven => exact absurd rfl undriven
  drives := by
    rintro _ ⟨now, rfl⟩
    rfl

/-- A call that closes an open session takes effect if it finds one, and leaves the room idle. -/
theorem Step.of_close {t : Transition} {now : Instant} (h : Step room (some x) (.apply room t now) o y)
    (closes : ∀ phase : Phase, phase.next? t = if phase = .idle then none else some .idle) :
    ∃ x', y = some x' ∧ x'.phase = .idle ∧
      accepted room (.apply room t now, o) = decide (x.phase ≠ .idle) := by
  cases h with
  | applied allowed leads =>
    -- a closing is allowed in every phase but the idle one
    rw [closes] at allowed
    split at allowed
    · cases allowed
    · rename_i isOpen
      cases allowed
      exact ⟨_, rfl, rfl, by simp [accepted, isOpen]⟩
  | overbooked running =>
    -- no extension leads to an idle room
    cases closes .inUse
  | rejected forbidden =>
    rw [closes] at forbidden
    split at forbidden
    · rename_i idle
      exact ⟨x, rfl, idle, by simp [accepted, idle]⟩
    · cases forbidden
  | elsewhere undriven => exact absurd rfl undriven

/-- A batch closes the session in use if that has expired, or leaves the room alone. -/
theorem Step.of_expiry {now : Instant} (h : Step room (some x) (.finalizeExpired now) o y) :
    ∃ x', y = some x' ∧
      (accepted room (.finalizeExpired now, o) = true ∧ x.phase ≠ .idle ∧ x'.phase = .idle ∨
        accepted room (.finalizeExpired now, o) = false ∧ x' = x) := by
  cases h with
  | expired running ends due listed =>
    exact ⟨_, rfl, .inl ⟨by simp [accepted, listed], by rw [running]; decide, rfl⟩⟩
  | unexpired early unlisted => exact ⟨x, rfl, .inr ⟨by simp [accepted, unlisted], rfl⟩⟩
  | elsewhere undriven => exact absurd trivial undriven

theorem next?_cancel (phase : Phase) :
    phase.next? .cancel = if phase = .idle then none else some .idle := by
  cases phase <;> rfl

theorem next?_finalize (phase : Phase) :
    phase.next? .finalize = if phase = .idle then none else some .idle := by
  cases phase <;> rfl

/-- Of several calls that close an open session, batches among them, exactly one takes effect. -/
theorem takesOne_close (room : RoomId) :
    TakesOne room (fun c => c.IsClose room ∨ c.IsExpiry) (Command.IsClose room) (· ≠ .idle)
      (· = .idle) where
  step_ready := by
    rintro x _ o y h (⟨now, rfl | rfl⟩ | ⟨now, rfl⟩) isOpen
    · obtain ⟨x', hy, idle, haccepted⟩ := h.of_close next?_cancel
      exact ⟨x', hy, .inl ⟨by simpa [isOpen] using haccepted, idle⟩⟩
    · obtain ⟨x', hy, idle, haccepted⟩ := h.of_close next?_finalize
      exact ⟨x', hy, .inl ⟨by simpa [isOpen] using haccepted, idle⟩⟩
    · -- a batch spends the machine or, before the end is due, leaves it ready
      obtain ⟨x', hy, ⟨haccepted, -, idle⟩ | ⟨hrefused, rfl⟩⟩ := h.of_expiry
      · exact ⟨x', hy, .inl ⟨haccepted, idle⟩⟩
      · refine ⟨x', hy, .inr ⟨hrefused, isOpen, ?_⟩⟩
        rintro ⟨_, hclose | hclose⟩
        · cases hclose
        · cases hclose
  step_spent := by
    rintro x _ o y h (⟨now, rfl | rfl⟩ | ⟨now, rfl⟩) idle
    · obtain ⟨x', hy, idle', haccepted⟩ := h.of_close next?_cancel
      exact ⟨x', hy, by simpa [idle] using haccepted, idle'⟩
    · obtain ⟨x', hy, idle', haccepted⟩ := h.of_close next?_finalize
      exact ⟨x', hy, by simpa [idle] using haccepted, idle'⟩
    · -- a batch finds nothing that is due in an idle room
      obtain ⟨x', hy, ⟨-, isOpen, -⟩ | ⟨hrefused, rfl⟩⟩ := h.of_expiry
      · exact absurd idle isOpen
      · exact ⟨x', hy, hrefused, idle⟩
  drives := by
    rintro _ ⟨now, rfl | rfl⟩
    · rfl
    · rfl

end Machine

namespace Store

theorem map_fst_transcript (s : Store) (commands : List Command) :
    (s.transcript commands).map Prod.fst = commands := by
  induction commands generalizing s with
  | nil => rfl
  | cons c rest ih => rw [transcript, List.map_cons, ih]

/-- Of the commands of a run, a machine that is ready takes up exactly one. -/
theorem countP_transcript {s : Store} {room : RoomId} {kind insists : Command → Prop}
    {ready spent : Phase → Prop} (h : Machine.TakesOne room kind insists ready spent)
    (wf : s.EachRecord RoomRecord.WellFormed) {x : Situation} (hs : s.situation? room = some x)
    (hx : ready x.phase) {commands : List Command} (hkind : ∀ c ∈ commands, c.Drives room → kind c)
    (hinsists : ∃ c ∈ commands, insists c) :
    (s.transcript commands).countP (Machine.accepted room) = 1 := by
  have run := run_transcript wf commands room
  rw [hs] at run
  -- the machine sees the commands with their answers
  rw [← s.map_fst_transcript commands] at hkind hinsists
  refine h.countP_of_ready run (fun e he => hkind e.1 (List.mem_map_of_mem he)) hx ?_
  obtain ⟨c, hc, h⟩ := hinsists
  obtain ⟨e, he, rfl⟩ := List.mem_map.mp hc
  exact ⟨e, he, h⟩

/-- **A store refines the machine of each of its rooms.** From every state that a run from a seed
reaches, every further run answers as the machine does; of any number of pauses of a session in use,
and of any number of calls that close an open session, exactly one takes effect, whatever happens in
other rooms meanwhile. -/
theorem refines_machine (seed : Seed) (earlier commands : List Command) (room : RoomId) :
    let s := (ofSeed seed).after earlier
    let log := s.transcript commands
    Machine.Run room (s.situation? room) log ((s.after commands).situation? room) ∧
    (∀ x, s.situation? room = some x → x.phase = .inUse →
      (∀ c ∈ commands, c.Drives room → c.IsPause room) → (∃ c ∈ commands, c.IsPause room) →
      log.countP (Machine.accepted room) = 1) ∧
    (∀ x, s.situation? room = some x → x.phase ≠ .idle →
      (∀ c ∈ commands, c.Drives room → c.IsClose room ∨ c.IsExpiry) →
      (∃ c ∈ commands, c.IsClose room) →
      log.countP (Machine.accepted room) = 1) := by
  intro s log
  have wf : s.EachRecord RoomRecord.WellFormed := wellFormed_after seed earlier
  refine ⟨run_transcript wf commands room, ?_, ?_⟩
  · intro x hs running hkind hpause
    exact countP_transcript (Machine.takesOne_pause room) wf hs running hkind hpause
  · intro x hs isOpen hkind hclose
    exact countP_transcript (Machine.takesOne_close room) wf hs isOpen hkind hclose

/-- Two callers pause the session of a room after it has been booked for an hour, and one wins. -/
theorem refines_machine_two_pauses :
    let booking : Command := .assign ⟨1⟩ 7 none 3600 .epoch
    let s := (ofSeed ⟨[⟨7, 1, "studio", .active, none⟩], []⟩).after [booking]
    let pauses : List Command := [.apply 7 .pause .epoch, .apply 7 .pause .epoch]
    s.situation? 7 = some ⟨.active, .inUse, some ⟨3600000000000, by decide⟩⟩ ∧
      (s.transcript pauses).countP (Machine.accepted 7) = 1 := by
  intro booking s pauses
  have running : s.situation? 7 = some ⟨.active, .inUse, some ⟨3600000000000, by decide⟩⟩ := rfl
  refine ⟨running, (refines_machine _ [booking] pauses 7).2.1 _ running rfl ?_ ?_⟩
  · intro c hc _
    exact ⟨.epoch, by simpa [pauses] using hc⟩
  · exact ⟨_, List.mem_cons_self, .epoch, rfl⟩

end Store

end Occupancy
