import Occupancy.Proofs.Store.Histories

/-!
# The machine of a room

A room is idle, in use or paused, and the calls of any number of callers drive it from one phase to
another in the order in which they reach it. `Machine.Step` gives the rules of that machine, call by
call with what each answers; `step_execute` says that a store obeys them at every room, and
`run_transcript` that it does so along every run.
-/

namespace Occupancy

/-! ## Phases -/

/-- The state of a room's machine. -/
inductive Phase where
  | idle
  | inUse
  | paused
deriving DecidableEq

/-- The phase of a room whose most recent session has a status. -/
def SessionStatus.phase : SessionStatus → Phase
  | .inUse => .inUse
  | .paused => .paused
  | .finalized => .idle
  | .cancelled => .idle

/-- Where a transition leads from a phase, if it is allowed there. -/
def Phase.next? : Phase → Transition → Option Phase
  | .inUse, .pause => some .paused
  | .paused, .resume => some .inUse
  | .inUse, .extend _ => some .inUse
  | .inUse, .cancel => some .idle
  | .paused, .cancel => some .idle
  | .inUse, .finalize => some .idle
  | .paused, .finalize => some .idle
  | _, _ => none

theorem SessionStatus.phase_eq_idle_iff {status : SessionStatus} :
    status.phase = .idle ↔ status.isOpen = false := by
  cases status <;> decide

theorem SessionStatus.phase_eq_inUse_iff {status : SessionStatus} :
    status.phase = .inUse ↔ status = .inUse := by
  cases status <;> decide

/-- What the machine of a room depends on: whether the room can be let, its phase, and the scheduled
end of its most recent session. -/
structure Situation where
  state : RoomState
  phase : Phase
  ending : Option Instant

def RoomRecord.situation (r : RoomRecord) : Situation where
  state := r.room.state
  phase := (r.current?.map (·.status.phase)).getD .idle
  ending := r.current?.map (·.scheduledEndAt)

/-- The situation of a room, if there is such a room. -/
def Store.situation? (s : Store) (room : RoomId) : Option Situation :=
  (s.rooms.get? room).map (·.situation)

/-! ## The rules -/

/-- Can a session of `duration` seconds start at `now`? -/
def Bookable (duration : Word) (now : Instant) : Prop :=
  0 < duration.toInt ∧ duration.toInt ≤ maxBookedSeconds ∧
    now.nanos + duration.toInt * 1000000000 ≤ Instant.last.nanos

/-- Can a command move the machine of a room? -/
def Command.Drives (room : RoomId) : Command → Prop
  | .assign _ key _ _ _ => key = room
  | .apply key _ _ => key = room
  | .finalizeExpired _ => True
  | .bill _ _ => False
  | .insertRoom _ => False
  | .insertDevice _ => False
  | .setActive _ _ => False

def Commit.rooms (cs : List Commit) : List RoomId :=
  cs.map (·.session.room)

namespace Machine

/-- One step of the machine of a room: the situation before, the command with what it answers, and the
situation after, which the answer settles. There is no situation where there is no such room. -/
inductive Step (room : RoomId) : Option Situation → Command → Outcome → Option Situation → Prop where
  | assignNowhere {id customer duration now} :
      Step room none (.assign id room customer duration now) (.refused (.noRoom room)) none
  | assignDeleted {x id customer duration now} (deleted : x.state = .deleted) :
      Step room (some x) (.assign id room customer duration now) (.refused (.noRoom room)) (some x)
  | assignTaken {x id customer duration now} (listed : x.state ≠ .deleted) (taken : x.phase ≠ .idle) :
      Step room (some x) (.assign id room customer duration now) (.refused (.conflict room)) (some x)
  | assignInvalid {x id customer duration now detail} (listed : x.state ≠ .deleted)
      (free : x.phase = .idle) (unbookable : ¬ Bookable duration now) :
      Step room (some x) (.assign id room customer duration now) (.refused (.invalidInput detail))
        (some x)
  | assigned {x id customer duration now c} (listed : x.state ≠ .deleted)
      (free : x.phase = .idle) (bookable : Bookable duration now)
      (starts : c.session.status.phase = .inUse)
      (ends : c.session.scheduledEndAt.nanos = now.nanos + duration.toInt * 1000000000) :
      Step room (some x) (.assign id room customer duration now) (.committed c)
        (some ⟨x.state, .inUse, some c.session.scheduledEndAt⟩)
  | applyNowhere {t now} : Step room none (.apply room t now) (.refused (.noRoom room)) none
  | applied {x t now c phase} (allowed : x.phase.next? t = some phase)
      (leads : c.session.status.phase = phase) :
      Step room (some x) (.apply room t now) (.committed c)
        (some ⟨x.state, phase, some c.session.scheduledEndAt⟩)
  | overbooked {x delta now detail} (running : x.phase = .inUse) :
      Step room (some x) (.apply room (.extend delta) now) (.refused (.invalidInput detail)) (some x)
  | rejected {x t now reason} (forbidden : x.phase.next? t = none) :
      Step room (some x) (.apply room t now) (.refused (.invalidState room t.verb reason)) (some x)
  | expired {x now cs ending} (running : x.phase = .inUse) (ends : x.ending = some ending)
      (due : ending ≤ now) (listed : room ∈ Commit.rooms cs) :
      Step room (some x) (.finalizeExpired now) (.finalized cs) (some ⟨x.state, .idle, x.ending⟩)
  | unexpired {x now cs} (early : x.phase = .inUse → ∀ ending, x.ending = some ending → ¬ ending ≤ now)
      (unlisted : room ∉ Commit.rooms cs) :
      Step room (some x) (.finalizeExpired now) (.finalized cs) (some x)
  | expireNowhere {now cs} (unlisted : room ∉ Commit.rooms cs) :
      Step room none (.finalizeExpired now) (.finalized cs) none
  | describe {x description} (here : description.id = room) :
      Step room x (.insertRoom description) .done
        (some ⟨description.state, (x.map (·.phase)).getD .idle, x.bind (·.ending)⟩)
  | elsewhere {x c o} (undriven : ¬ c.Drives room) (kept : ∀ d, c = .insertRoom d → d.id ≠ room) :
      Step room x c o x

/-- Steps one after the other, with the commands and their answers. -/
inductive Run (room : RoomId) : Option Situation → List (Command × Outcome) → Option Situation → Prop where
  | nil {x} : Run room x [] x
  | cons {x y z c o log} (first : Step room x c o y) (rest : Run room y log z) :
      Run room x ((c, o) :: log) z

/-- The answer to a command settles where the machine goes. -/
theorem Step.right_unique {room : RoomId} {x y y' : Option Situation} {c : Command} {o : Outcome}
    (h : Step room x c o y) (h' : Step room x c o y') : y = y' := by
  cases h <;> cases h'
  -- different rules for one command exclude each other
  all_goals simp_all [Command.Drives]

theorem Run.right_unique {room : RoomId} {x y y' : Option Situation}
    {log : List (Command × Outcome)} (h : Run room x log y) (h' : Run room x log y') : y = y' := by
  -- the machine is deterministic, so both runs take the same steps
  induction h with
  | nil =>
    cases h'
    rfl
  | cons first _ ih =>
    cases h' with
    | cons first' rest' =>
      obtain rfl := first.right_unique first'
      exact ih rest'

end Machine

/-! ## The rules hold of sessions -/

namespace Session

theorem bookable_iff_exists_book (id : SessionId) (room : RoomId) (customer : Option Word)
    {duration : Word} {now : Instant} :
    Bookable duration now ↔ ∃ s, book id room customer duration now = .ok s := by
  constructor
  · rintro ⟨positive, bounded, inRange⟩
    -- the conditions keep the end within the calendar
    have hlast : Instant.last.nanos = 8210266876800 * 1000000000 - 1 := rfl
    have hlower := now.inRange.1
    let ending : Instant := ⟨now.nanos + duration.toInt * 1000000000, by omega⟩
    have hending : (Span.ofSeconds? duration.toInt).bind now.add? = some ending :=
      Instant.bind_add?_eq_some_iff.mpr rfl
    refine ⟨⟨id, room, customer, now, ending, none, .zero, .inUse, 0, none⟩, ?_⟩
    unfold book
    rw [if_neg (by omega), if_neg (by omega), hending]
  · rintro ⟨s, hbook⟩
    obtain ⟨positive, bounded, ending, hending, -⟩ := book_eq_ok hbook
    have hle := Instant.le_iff.mp ending.le_last
    exact ⟨positive, bounded, by omega⟩

/-- A booking fails only for its duration. -/
theorem book_error {id : SessionId} {room : RoomId} {customer : Option Word} {duration : Word}
    {now : Instant} {e : RoomError} (h : book id room customer duration now = .error e) :
    ∃ detail, e = .invalidInput detail := by
  unfold book at h
  -- each of the three checks fails with invalid input
  split at h
  · cases h
    exact ⟨_, rfl⟩
  · split at h
    · cases h
      exact ⟨_, rfl⟩
    · split at h
      · cases h
        exact ⟨_, rfl⟩
      · cases h

/-- A transition fails for the status of the session, or it is an extension and fails for its length. -/
theorem apply_error {s : Session} {t : Transition} {now : Instant} {e : RoomError}
    (h : s.apply t now = .error e) :
    e = s.rejected t ∨ ∃ delta detail, t = .extend delta ∧ e = .invalidInput detail := by
  unfold apply at h
  split at h
  · split at h <;> cases h
    exact .inl rfl
  · cases h
  · rename_i delta _
    -- a shift that fails has an error of its own
    cases hshift : s.shiftedEnd delta with
    | error e' =>
      rw [hshift] at h
      cases h
      obtain rfl := shiftedEnd_error hshift
      exact .inr ⟨delta, _, rfl, rfl⟩
    | ok ending =>
      rw [hshift] at h
      cases h
  · split at h <;> cases h
    exact .inl rfl
  · split at h <;> cases h
    exact .inl rfl
  · cases h
    exact .inl rfl

/-- A transition that the phase does not allow is rejected. -/
theorem apply_of_forbidden {s : Session} {t : Transition} (now : Instant)
    (forbidden : s.status.phase.next? t = none) : s.apply t now = .error (s.rejected t) := by
  -- a closed session cannot be closed again
  have hclosed : (t = .cancel ∨ t = .finalize) → ¬ s.status.isOpen = true := by
    rintro (rfl | rfl) isOpen
    all_goals
      rcases SessionStatus.isOpen_iff.mp isOpen with running | paused
      · rw [running] at forbidden
        cases forbidden
      · rw [paused] at forbidden
        cases forbidden
  unfold apply
  split
  · rename_i running
    rw [running] at forbidden
    cases forbidden
  · rename_i paused
    rw [paused] at forbidden
    cases forbidden
  · rename_i running
    rw [running] at forbidden
    cases forbidden
  · exact if_neg (hclosed (.inl rfl))
  · exact if_neg (hclosed (.inr rfl))
  · rfl

/-- A transition that the phase allows leads where the machine says, unless it is an extension that
does not fit. -/
theorem apply_of_allowed {s : Session} {t : Transition} {phase : Phase} (now : Instant)
    (hs : s.WellFormed) (allowed : s.status.phase.next? t = some phase) :
    (∃ next, s.apply t now = .ok next ∧ next.status.phase = phase) ∨
    ∃ delta detail, t = .extend delta ∧ s.status.phase = .inUse ∧
      s.apply t now = .error (.invalidInput detail) := by
  cases t with
  | pause =>
    -- a running session has no mark of a pause, which is the other condition
    cases hstatus : s.status <;> rw [hstatus] at allowed <;> cases allowed
    left
    exact ⟨{ s with pausedAt := some now, status := .paused },
      by simp [apply, hstatus, hs.unpaused (by simp [hstatus])], rfl⟩
  | resume =>
    cases hstatus : s.status <;> rw [hstatus] at allowed <;> cases allowed
    left
    exact ⟨s.resumed now, by simp [apply, hstatus], rfl⟩
  | extend delta =>
    cases hstatus : s.status <;> rw [hstatus] at allowed <;> cases allowed
    cases hshift : s.shiftedEnd delta with
    | error e =>
      obtain rfl := shiftedEnd_error hshift
      right
      exact ⟨delta, _, rfl, rfl, by simp only [apply, hstatus, hshift]; rfl⟩
    | ok ending =>
      left
      refine ⟨{ s with scheduledEndAt := ending }, by simp [apply, hstatus, hshift, Except.map], ?_⟩
      show s.status.phase = .inUse
      rw [hstatus]
      rfl
  | cancel =>
    left
    cases hstatus : s.status <;> rw [hstatus] at allowed <;> cases allowed <;>
      exact ⟨s.close .cancelled now, by simp [apply, hstatus, SessionStatus.isOpen], rfl⟩
  | finalize =>
    left
    cases hstatus : s.status <;> rw [hstatus] at allowed <;> cases allowed <;>
      exact ⟨s.close .finalized now, by simp [apply, hstatus, SessionStatus.isOpen], rfl⟩

end Session

/-! ## The rules hold of a store -/

namespace RoomRecord

theorem situation_of_current? {r : RoomRecord} {current : Session} (h : r.current? = some current) :
    r.situation = ⟨r.room.state, current.status.phase, some current.scheduledEndAt⟩ := by
  simp [situation, h]

@[simp] theorem situation_append (r : RoomRecord) (session : Session) :
    (r.append session).situation =
      ⟨r.room.state, session.status.phase, some session.scheduledEndAt⟩ :=
  situation_of_current? (r.current?_append session)

@[simp] theorem situation_replaceCurrent (r : RoomRecord) (session : Session) :
    (r.replaceCurrent session).situation =
      ⟨r.room.state, session.status.phase, some session.scheduledEndAt⟩ :=
  situation_of_current? (r.current?_replaceCurrent session)

/-- A room is idle when it has no open session. -/
theorem phase_eq_idle_iff {r : RoomRecord} : r.situation.phase = .idle ↔ r.open? = none := by
  rw [open?_eq_none_iff]
  cases h : r.current? with
  | none => simp [situation, h]
  | some current => simp [situation, h, SessionStatus.phase_eq_idle_iff]

/-- A room is settled when its session is in use and its scheduled end has come. -/
theorem expired?_eq_some_iff {r : RoomRecord} {now : Instant} {session : Session} :
    r.expired? now = some session ↔
      ∃ current, r.current? = some current ∧ current.status = .inUse ∧
        current.scheduledEndAt ≤ now ∧ session = current.close .finalized now := by
  simp only [expired?, Option.bind_eq_some_iff, Session.expire?, Option.ite_none_right_eq_some,
    Session.isExpired_iff, and_assoc, Option.some.injEq, eq_comm (a := session)]

/-- A session that expires stays with its room. -/
theorem WellFormed.room_of_expired? {room : RoomId} {r : RoomRecord} (h : r.WellFormed room)
    {now : Instant} {session : Session} (hexpired : r.expired? now = some session) :
    session.room = room := by
  obtain ⟨current, hcurrent, -, -, hsession⟩ := expired?_eq_some_iff.mp hexpired
  rw [hsession]
  exact (h.current hcurrent).1

end RoomRecord

namespace Store

open Machine (Step Run)

variable {s : Store} {room : RoomId}

theorem situation?_of_get? {r : RoomRecord} (h : s.rooms.get? room = some r) :
    s.situation? room = some r.situation := by
  rw [situation?, h, Option.map_some]

theorem situation?_of_none (h : s.rooms.get? room = none) : s.situation? room = none := by
  rw [situation?, h, Option.map_none]

/-- Setting the record of a room changes the situation of that room only. -/
theorem situation?_set (s : Store) (room key : RoomId) (r : RoomRecord) :
    situation? { s with rooms := s.rooms.set key r } room =
      if room = key then some r.situation else s.situation? room := by
  rw [situation?, Table.get?_set]
  split
  · rfl
  · rfl

/-- A batch commits the finalized session of every room whose session has expired. -/
theorem mem_finalizeExpired_iff (wf : s.EachRecord RoomRecord.WellFormed) {now : Instant}
    {c : Commit} :
    c ∈ (s.finalizeExpired now).1 ↔ ∃ r, s.rooms.get? c.session.room = some r ∧
      r.expired? now = some c.session ∧ c.device = r.room.device := by
  simp only [finalizeExpired, List.mem_mergeSort, List.mem_filterMap, Option.map_eq_some_iff,
    Table.mem_values_iff]
  constructor
  · rintro ⟨r, ⟨key, hr⟩, session, hexpired, rfl⟩
    obtain rfl : session.room = key := (wf key r hr).room_of_expired? hexpired
    exact ⟨r, hr, hexpired, rfl⟩
  · rintro ⟨r, hr, hexpired, hdevice⟩
    exact ⟨r, ⟨_, hr⟩, c.session, hexpired, by rw [← hdevice]⟩

/-- A batch lists exactly the rooms whose session has expired. -/
theorem mem_rooms_finalizeExpired (wf : s.EachRecord RoomRecord.WellFormed) (room : RoomId)
    (now : Instant) :
    room ∈ Commit.rooms (s.finalizeExpired now).1 ↔
      ∃ r session, s.rooms.get? room = some r ∧ r.expired? now = some session := by
  rw [Commit.rooms, List.mem_map]
  constructor
  · -- the room of a commit is the room of its record
    rintro ⟨c, hc, rfl⟩
    obtain ⟨r, hr, hexpired, -⟩ := (mem_finalizeExpired_iff wf).mp hc
    exact ⟨r, c.session, hr, hexpired⟩
  · rintro ⟨r, session, hr, hexpired⟩
    obtain rfl : session.room = room := (wf room r hr).room_of_expired? hexpired
    exact ⟨⟨session, r.room.device⟩, (mem_finalizeExpired_iff wf).mpr ⟨r, hr, hexpired, rfl⟩, rfl⟩

/-- A batch lists no room twice. -/
theorem nodup_rooms_finalizeExpired (wf : s.EachRecord RoomRecord.WellFormed) (now : Instant) :
    (Commit.rooms (s.finalizeExpired now).1).Nodup := by
  have hperm := (List.mergeSort_perm (s.rooms.values.filterMap fun record =>
    (record.expired? now).map fun session => Commit.mk session record.room.device)
    fun a b => a.session.room.toInt ≤ b.session.room.toInt).map (·.session.room)
  refine hperm.nodup_iff.mpr (Table.nodup_filterMap_values ?_)
  intro key r c hr hc
  obtain ⟨session, hexpired, rfl⟩ := Option.map_eq_some_iff.mp hc
  exact (wf key r hr).room_of_expired? hexpired

/-! ### One command -/

theorem step_assign (s : Store) (id : SessionId) (room : RoomId) (customer : Option Word)
    (duration : Word) (now : Instant) :
    Step room (s.situation? room) (.assign id room customer duration now)
      (s.execute (.assign id room customer duration now)).1
      ((s.execute (.assign id room customer duration now)).2.situation? room) := by
  rcases s.assign_cases id room customer duration now with
    ⟨hdeleted, h⟩ | ⟨r, hr, hlisted, ⟨hopen, h⟩ | ⟨hfree, e, hbook, h⟩ | ⟨hfree, session, hbook, h⟩⟩
  · -- no such room, or one that was deleted
    simp only [execute, h]
    cases hr : s.rooms.get? room with
    | none =>
      rw [situation?_of_none hr]
      exact .assignNowhere
    | some r =>
      rw [situation?_of_get? hr]
      exact .assignDeleted (hdeleted r hr)
  · -- the open session comes before any fault of the duration
    simp only [execute, h, situation?_of_get? hr]
    refine .assignTaken hlisted ?_
    rw [ne_eq, RoomRecord.phase_eq_idle_iff]
    exact Option.isSome_iff_ne_none.mp hopen
  · -- the room is free, so the duration decides
    simp only [execute, h, situation?_of_get? hr]
    obtain ⟨detail, rfl⟩ := Session.book_error hbook
    refine .assignInvalid hlisted (RoomRecord.phase_eq_idle_iff.mpr hfree) ?_
    rw [Session.bookable_iff_exists_book id room customer, hbook]
    simp
  · -- the booking goes through, and the room is in use until its end
    simp only [execute, h, situation?_set, situation?_of_get? hr, if_pos, RoomRecord.situation_append]
    have bookable : Bookable duration now :=
      (Session.bookable_iff_exists_book id room customer).mpr ⟨session, hbook⟩
    obtain ⟨-, -, ending, hending, rfl⟩ := Session.book_eq_ok hbook
    exact .assigned hlisted (RoomRecord.phase_eq_idle_iff.mpr hfree) bookable rfl hending

theorem step_apply (wf : s.EachRecord RoomRecord.WellFormed) (room : RoomId) (t : Transition)
    (now : Instant) :
    Step room (s.situation? room) (.apply room t now) (s.execute (.apply room t now)).1
      ((s.execute (.apply room t now)).2.situation? room) := by
  cases hr : s.rooms.get? room with
  | none =>
    have h : s.apply room t now = .error (.noRoom room) := by simp only [apply, hr]
    simp only [execute, h, situation?_of_none hr]
    exact .applyNowhere
  | some r =>
    cases hcurrent : r.current? with
    | none =>
      have h : s.apply room t now = .error (.invalidState room t.verb "room has no session") := by
        simp only [apply, hr, hcurrent]
      simp only [execute, h, situation?_of_get? hr]
      refine .rejected ?_
      -- nothing leads out of an idle room
      simp only [RoomRecord.situation, hcurrent]
      cases t <;> rfl
    | some current =>
      have hsituation := RoomRecord.situation_of_current? hcurrent
      obtain ⟨hroom, hs⟩ := (wf room r hr).current hcurrent
      -- the phase decides; only an extension can still fail where it is allowed
      cases allowed : current.status.phase.next? t with
      | none =>
        have h : s.apply room t now = .error (current.rejected t) := by
          simp only [apply, hr, hcurrent, Session.apply_of_forbidden now allowed]
        simp only [execute, h, situation?_of_get? hr, Session.rejected, hroom]
        exact .rejected (by rw [hsituation, allowed])
      | some phase =>
        have hx : r.situation.phase.next? t = some phase := by rw [hsituation, allowed]
        rcases Session.apply_of_allowed now hs allowed with
          ⟨next, hok, hphase⟩ | ⟨delta, detail, rfl, running, herror⟩
        · have h : s.apply room t now = .ok (⟨next, r.room.device⟩,
              { s with rooms := s.rooms.set room (r.replaceCurrent next) }) := by
            simp only [apply, hr, hcurrent, hok]
          simp only [execute, h, situation?_set, situation?_of_get? hr, if_pos,
            RoomRecord.situation_replaceCurrent, hphase]
          exact .applied hx hphase
        · have h : s.apply room (.extend delta) now = .error (.invalidInput detail) := by
            simp only [apply, hr, hcurrent, herror]
          simp only [execute, h, situation?_of_get? hr]
          exact .overbooked (by rw [hsituation, running])

theorem step_finalizeExpired (wf : s.EachRecord RoomRecord.WellFormed) (room : RoomId)
    (now : Instant) :
    Step room (s.situation? room) (.finalizeExpired now) (s.execute (.finalizeExpired now)).1
      ((s.execute (.finalizeExpired now)).2.situation? room) := by
  -- the batch reads and settles every room by itself
  have hlisted := mem_rooms_finalizeExpired wf room now
  have hafter : (s.finalizeExpired now).2.situation? room =
      (s.rooms.get? room).map fun r => (r.settle now).situation := by
    rw [situation?, get?_finalizeExpired, Option.map_map]
    rfl
  simp only [execute, hafter]
  cases hr : s.rooms.get? room with
  | none =>
    rw [situation?_of_none hr]
    exact .expireNowhere (by simp [hlisted, hr])
  | some r =>
    rw [situation?_of_get? hr, Option.map_some]
    cases hexpired : r.expired? now with
    | some session =>
      rw [RoomRecord.settle_of_expired hexpired, RoomRecord.situation_replaceCurrent]
      obtain ⟨current, hcurrent, running, due, rfl⟩ := RoomRecord.expired?_eq_some_iff.mp hexpired
      rw [RoomRecord.situation_of_current? hcurrent]
      refine .expired (by rw [running]; rfl) rfl due (hlisted.mpr ⟨r, _, hr, hexpired⟩)
    | none =>
      rw [RoomRecord.settle_of_unexpired hexpired]
      refine .unexpired ?_ (by simp [hlisted, hr, hexpired])
      -- a session in use that is due would have expired
      intro running ending hending due
      obtain ⟨current, hcurrent, rfl⟩ := Option.map_eq_some_iff.mp hending
      rw [RoomRecord.situation_of_current? hcurrent, SessionStatus.phase_eq_inUse_iff] at running
      have hsome := RoomRecord.expired?_eq_some_iff.mpr ⟨current, hcurrent, running, due, rfl⟩
      rw [hexpired] at hsome
      cases hsome

/-- A new description of a room changes its state only. -/
theorem situation?_insertRoom (s : Store) (description : Room) (room : RoomId) :
    (s.insertRoom description).situation? room =
      if room = description.id then
        some ⟨description.state, ((s.situation? room).map (·.phase)).getD .idle,
          (s.situation? room).bind (·.ending)⟩
      else s.situation? room := by
  rw [insertRoom, Table.alter, situation?_set]
  by_cases hid : room = description.id
  · subst hid
    rw [if_pos rfl, if_pos rfl]
    -- a room that is new is idle
    cases hr : s.rooms.get? description.id with
    | none => simp [situation?_of_none hr, RoomRecord.situation, RoomRecord.current?]
    | some r => simp [situation?_of_get? hr, RoomRecord.situation, RoomRecord.current?]
  · rw [if_neg hid, if_neg hid]

/-- A command for something else leaves the situation of a room. -/
theorem situation?_of_undriven {c : Command} (undriven : ¬ c.Drives room)
    (kept : ∀ description, c = .insertRoom description → description.id ≠ room) :
    (s.execute c).2.situation? room = s.situation? room := by
  obtain ⟨o, s', hexecute, h⟩ := s.exists_executes c
  rw [hexecute]
  cases h with
  | refused => rfl
  | assigned => exact (s.situation?_set _ _ _).trans (if_neg fun h => undriven h.symm)
  | applied => exact (s.situation?_set _ _ _).trans (if_neg fun h => undriven h.symm)
  | finalized => exact absurd trivial undriven
  | @billed key cost r session found open_eq =>
    rw [situation?_set]
    split
    · -- a bill changes neither the status nor the scheduled end
      rename_i hkey
      obtain ⟨hcurrent, -⟩ := RoomRecord.open?_eq_some_iff.mp open_eq
      rw [hkey, situation?_of_get? found, RoomRecord.situation_of_current? hcurrent]
      simp
    · rfl
  | described description =>
    have hne : room ≠ description.id := fun h => kept description rfl h.symm
    exact (s.situation?_insertRoom description room).trans (if_neg hne)
  | installed => rfl
  | switched => rfl

/-- Every command is a step of the machine of every room. -/
theorem step_execute (wf : s.EachRecord RoomRecord.WellFormed) (c : Command) (room : RoomId) :
    Step room (s.situation? room) c (s.execute c).1 ((s.execute c).2.situation? room) := by
  by_cases drives : c.Drives room
  · cases c with
    | assign id key customer duration now =>
      -- the command drives this room, which is its own
      obtain rfl : key = room := drives
      exact s.step_assign id key customer duration now
    | apply key t now =>
      obtain rfl : key = room := drives
      exact step_apply wf key t now
    | finalizeExpired now => exact step_finalizeExpired wf room now
    | bill => exact drives.elim
    | insertRoom => exact drives.elim
    | insertDevice => exact drives.elim
    | setActive => exact drives.elim
  · -- of the other commands, only a new description of the room shows at all
    by_cases kept : ∀ description, c = .insertRoom description → description.id ≠ room
    · rw [situation?_of_undriven drives kept]
      exact .elsewhere drives kept
    · push Not at kept
      obtain ⟨description, rfl, hid⟩ := kept
      show Step room _ _ .done ((s.insertRoom description).situation? room)
      rw [situation?_insertRoom, if_pos hid.symm]
      exact .describe hid

/-- A run of a store is a run of the machine of every room. -/
theorem run_transcript (wf : s.EachRecord RoomRecord.WellFormed) (commands : List Command)
    (room : RoomId) :
    Run room (s.situation? room) (s.transcript commands) ((s.after commands).situation? room) := by
  induction commands generalizing s with
  | nil => exact .nil
  | cons c rest ih =>
    exact .cons (step_execute wf c room) (ih (wellFormed_execute wf c))

end Store

end Occupancy
