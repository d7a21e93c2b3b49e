import Occupancy.Proofs.Store.Histories

/-!
# What is stored stays

A command that is refused changes nothing, and one that is done changes no more than it must: `Effect`
says so, command by command, in terms of what can be read from a store. Two things follow for whole
runs. Histories grow row by row, where a row keeps its identity and a terminal row keeps everything;
and the billed cost of a row is changed by bills alone.

Main statements: `execute_effect` is the one place where the commands are looked at, and
`history_permanent` collects what follows from it.
-/

namespace Occupancy

/-! ## Rows -/

namespace Session

/-- What a change of a stored session keeps, whatever it changes. -/
structure Continues (s next : Session) : Prop where
  id : next.id = s.id
  room : next.room = s.room
  customer : next.customer = s.customer
  startedAt : next.startedAt = s.startedAt
  ended : s.status.isTerminal = true → next = s

variable {s next last : Session} {now : Instant}

theorem Continues.refl (s : Session) : s.Continues s :=
  ⟨rfl, rfl, rfl, rfl, fun _ => rfl⟩

theorem Continues.trans (h : s.Continues next) (h' : next.Continues last) : s.Continues last := by
  refine ⟨h'.id.trans h.id, h'.room.trans h.room, h'.customer.trans h.customer,
    h'.startedAt.trans h.startedAt, fun terminal => ?_⟩
  -- a terminal row is the next one too, which is therefore terminal
  have hnext : next = s := h.ended terminal
  rw [h'.ended (by rw [hnext]; exact terminal), hnext]

/-- An open session has no terminal row to keep. -/
theorem Continues.of_isOpen (isOpen : s.status.isOpen = true) (id : next.id = s.id)
    (room : next.room = s.room) (customer : next.customer = s.customer)
    (startedAt : next.startedAt = s.startedAt) : s.Continues next := by
  refine ⟨id, room, customer, startedAt, fun terminal => ?_⟩
  rw [SessionStatus.isTerminal_eq_true_iff, isOpen] at terminal
  cases terminal

theorem Move.continues (h : s.Move now next) : s.Continues next := by
  have isOpen := h.isOpen
  cases h <;> exact .of_isOpen isOpen rfl rfl rfl rfl

theorem Move.billedTimeCost_eq (h : s.Move now next) : next.billedTimeCost = s.billedTimeCost := by
  cases h <;> rfl

end Session

/-! ## Histories -/

/-- The later history has every row of the earlier one in its place, as it continued. -/
def Grows (earlier later : List Session) : Prop :=
  ∀ (i : Nat) (row : Session), earlier[i]? = some row →
    ∃ row' : Session, later[i]? = some row' ∧ row.Continues row'

/-- The two histories differ in their last row at most, which was `row` and is `next`. -/
def LastReplaced (row next : Session) (earlier later : List Session) : Prop :=
  ∃ inner, earlier = inner ++ [row] ∧ later = inner ++ [next]

variable {earlier later last : List Session} {row next : Session}

namespace Grows

theorem refl (history : List Session) : Grows history history :=
  fun _ row h => ⟨row, h, .refl row⟩

theorem trans (h : Grows earlier later) (h' : Grows later last) : Grows earlier last := by
  intro i row hi
  obtain ⟨row', hi', continues⟩ := h i row hi
  obtain ⟨row'', hi'', continues'⟩ := h' i row' hi'
  exact ⟨row'', hi'', continues.trans continues'⟩

theorem concat (history : List Session) (s : Session) : Grows history (history ++ [s]) := by
  intro i row hi
  obtain ⟨hlt, -⟩ := List.getElem?_eq_some_iff.mp hi
  exact ⟨row, by rw [List.getElem?_append_left hlt, hi], .refl row⟩

/-- Histories do not become shorter. -/
theorem length_le (h : Grows earlier later) : earlier.length ≤ later.length := by
  cases hlength : earlier.length with
  | zero => exact Nat.zero_le _
  | succ n =>
    -- the last row of the earlier history has its place in the later one
    obtain ⟨row', hrow', -⟩ := h n earlier[n] (List.getElem?_eq_getElem (by omega))
    obtain ⟨hlt, -⟩ := List.getElem?_eq_some_iff.mp hrow'
    exact hlt

/-- A terminal row stays as it is. -/
theorem terminal (h : Grows earlier later) {i : Nat} (hi : earlier[i]? = some row)
    (ended : row.status.isTerminal = true) : later[i]? = some row := by
  obtain ⟨row', hi', continues⟩ := h i row hi
  rw [hi', continues.ended ended]

end Grows

namespace LastReplaced

/-- A row is an inner one, which stays, or the one that is replaced. -/
theorem getElem?_cases (h : LastReplaced row next earlier later) {i : Nat} {old : Session}
    (hi : earlier[i]? = some old) :
    later[i]? = some old ∨ old = row ∧ later[i]? = some next := by
  obtain ⟨inner, rfl, rfl⟩ := h
  rcases Nat.lt_or_ge i inner.length with hlt | hge
  · -- a row before the last is where it was
    left
    rw [List.getElem?_append_left hlt] at hi ⊢
    exact hi
  · -- the last row is the one that was replaced
    right
    rw [List.getElem?_append_right hge, List.getElem?_singleton] at hi
    rw [List.getElem?_append_right hge, List.getElem?_singleton]
    split at hi
    · rename_i hlast
      rw [if_pos hlast]
      cases hi
      exact ⟨rfl, rfl⟩
    · cases hi

theorem grows (h : LastReplaced row next earlier later) (continues : row.Continues next) :
    Grows earlier later := by
  intro i old hi
  rcases h.getElem?_cases hi with same | ⟨rfl, replaced⟩
  · exact ⟨old, same, .refl old⟩
  · exact ⟨next, replaced, continues⟩

end LastReplaced

theorem RoomRecord.lastReplaced {r : RoomRecord} (h : r.current? = some row) :
    LastReplaced row next r.history (r.replaceCurrent next).history :=
  ⟨r.history.dropLast, history_eq_of_current? h, rfl⟩

namespace Store

variable {s s' : Store} {room : RoomId} {r r' : RoomRecord}

/-! ## What commands leave alone -/

/-- The stores have the same devices, and have logged the same changes of activity. -/
def SameDevices (s s' : Store) : Prop :=
  s'.devices = s.devices ∧ s'.toggles = s.toggles

/-- The stores have the same rooms, whatever their sessions. -/
def SameRooms (s s' : Store) : Prop :=
  ∀ key, (s'.rooms.get? key).map (·.room) = (s.rooms.get? key).map (·.room)

/-- The stores differ in the sessions of one room at most. -/
structure SameOutside (room : RoomId) (s s' : Store) : Prop where
  devices : s.SameDevices s'
  rooms : s.SameRooms s'
  others : ∀ key, key ≠ room → s'.rooms.get? key = s.rooms.get? key

/-- What a command may have done when it gives its answer. -/
def Effect (s : Store) : Command → Outcome → Store → Prop
  | _, .refused _, s' => s' = s
  | .assign _ room _ _ _, .committed c, s' =>
    s.SameOutside room s' ∧ s'.history room = s.history room ++ [c.session]
  | .apply room _ _, .committed c, s' =>
    s.SameOutside room s' ∧ ∃ row : Session, row.status.isOpen = true ∧
      row.Continues c.session ∧ c.session.billedTimeCost = row.billedTimeCost ∧
      LastReplaced row c.session (s.history room) (s'.history room)
  | .finalizeExpired _, .finalized _, s' =>
    s.SameDevices s' ∧ s.SameRooms s' ∧ ∀ room, s'.rooms.get? room = s.rooms.get? room ∨
      ∃ row next : Session, row.status = .inUse ∧
        row.Continues next ∧ next.billedTimeCost = row.billedTimeCost ∧
        LastReplaced row next (s.history room) (s'.history room)
  | .bill room cost, .done, s' =>
    s.SameOutside room s' ∧ ∃ row : Session, row.status.isOpen = true ∧
      LastReplaced row { row with billedTimeCost := cost } (s.history room) (s'.history room)
  | .insertRoom room, .done, s' =>
    s.SameDevices s' ∧ (∀ key, s'.history key = s.history key) ∧
      ∀ key, key ≠ room.id → s'.rooms.get? key = s.rooms.get? key
  | .insertDevice device, .done, s' =>
    s'.rooms = s.rooms ∧ s'.toggles = s.toggles ∧
      ∀ key, key ≠ device.id → s'.devices.get? key = s.devices.get? key
  | .setActive device active, .done, s' =>
    s'.rooms = s.rooms ∧ s'.toggles = s.toggles ++ [(device, active)] ∧
      ∀ key, key ≠ device → s'.devices.get? key = s.devices.get? key
  | _, _, _ => False

/-! ## One command -/

theorem history_of_get? (found : s.rooms.get? room = some r) : s.history room = r.history := by
  simp [history, found]

theorem history_congr (h : s'.rooms.get? room = s.rooms.get? room) :
    s'.history room = s.history room := by
  simp [history, h]

theorem history_set (s : Store) (room : RoomId) (r : RoomRecord) :
    Store.history { s with rooms := s.rooms.set room r } room = r.history :=
  history_of_get? (by simp)

/-- Other sessions of one room. -/
theorem sameOutside_set (found : s.rooms.get? room = some r) (description : r'.room = r.room) :
    s.SameOutside room { s with rooms := s.rooms.set room r' } := by
  refine ⟨⟨rfl, rfl⟩, ?_, ?_⟩
  · -- the description of the room itself is kept
    intro key
    rw [Table.get?_set]
    split
    · rename_i hkey
      rw [hkey, found, Option.map_some, Option.map_some, description]
    · rfl
  · intro key hkey
    rw [Table.get?_set, if_neg hkey]

/-- Replacing the most recent session of a room. -/
theorem lastReplaced_set (found : s.rooms.get? room = some r) (current : r.current? = some row) :
    LastReplaced row next (s.history room)
      (Store.history { s with rooms := s.rooms.set room (r.replaceCurrent next) } room) := by
  rw [history_set, history_of_get? found]
  exact RoomRecord.lastReplaced current

/-- Finalizing leaves a room alone or closes its session in use. -/
theorem get?_finalizeExpired_cases (s : Store) (now : Instant) (room : RoomId) :
    (s.finalizeExpired now).2.rooms.get? room = s.rooms.get? room ∨
    ∃ r row next, s.rooms.get? room = some r ∧ r.current? = some row ∧ row.expire? now = some next ∧
      (s.finalizeExpired now).2.rooms.get? room = some (r.replaceCurrent next) := by
  rw [get?_finalizeExpired]
  cases found : s.rooms.get? room with
  | none => exact .inl rfl
  | some r =>
    cases expired : r.expired? now with
    | none =>
      left
      rw [Option.map_some, RoomRecord.settle_of_unexpired expired]
    | some next =>
      right
      obtain ⟨row, current, expire⟩ := Option.bind_eq_some_iff.mp expired
      refine ⟨r, row, next, rfl, current, expire, ?_⟩
      rw [Option.map_some, RoomRecord.settle_of_expired expired]

/-- Finalizing changes the last rows that were in use, and nothing else. -/
theorem finalizeExpired_effect (s : Store) (now : Instant) :
    s.Effect (.finalizeExpired now) (.finalized (s.finalizeExpired now).1)
      (s.finalizeExpired now).2 := by
  refine ⟨⟨rfl, rfl⟩, ?_, ?_⟩
  · intro key
    rcases s.get?_finalizeExpired_cases now key with same | ⟨r, row, next, found, -, -, settled⟩
    · rw [same]
    · rw [settled, found]
      rfl
  · -- at most the last row of a room has moved
    intro room
    rcases s.get?_finalizeExpired_cases now room with
      same | ⟨r, row, next, found, current, expire, settled⟩
    · exact .inl same
    · right
      have inUse : row.status = .inUse := by
        unfold Session.expire? at expire
        split at expire
        · rename_i expired
          exact (Session.isExpired_iff.mp expired).1
        · cases expire
      have move := Session.move_of_expire? expire
      refine ⟨row, next, inUse, move.continues, move.billedTimeCost_eq, ?_⟩
      rw [history_of_get? found, history_of_get? settled]
      exact RoomRecord.lastReplaced current

/-- Describing a room keeps all sessions. -/
theorem history_insertRoom (s : Store) (description : Room) (key : RoomId) :
    (s.insertRoom description).history key = s.history key := by
  rw [history, insertRoom, Table.alter, Table.get?_set]
  split
  · rename_i hkey
    rw [hkey, history]
    cases s.rooms.get? description.id <;> rfl
  · rfl

/-- Every command has its effect, and no other. -/
theorem execute_effect (s : Store) (c : Command) :
    s.Effect c (s.execute c).1 (s.execute c).2 := by
  obtain ⟨o, s', hexecute, h⟩ := s.exists_executes c
  rw [hexecute]
  cases h with
  | refused => cases c <;> rfl
  | assigned found free booked =>
    refine ⟨sameOutside_set found rfl, ?_⟩
    rw [history_set, history_of_get? found]
    rfl
  | @applied room t now r current next found current_eq moved =>
    have move := Session.move_of_apply moved
    exact ⟨sameOutside_set found rfl, current, move.isOpen, move.continues,
      move.billedTimeCost_eq, lastReplaced_set found current_eq⟩
  | finalized now => exact s.finalizeExpired_effect now
  | @billed room cost r session found open_eq =>
    obtain ⟨current_eq, isOpen⟩ := RoomRecord.open?_eq_some_iff.mp open_eq
    exact ⟨sameOutside_set found rfl, session, isOpen, lastReplaced_set found current_eq⟩
  | described description =>
    refine ⟨⟨rfl, rfl⟩, s.history_insertRoom description, ?_⟩
    intro key hkey
    rw [insertRoom, Table.alter, Table.get?_set, if_neg hkey]
  | installed device =>
    refine ⟨rfl, rfl, ?_⟩
    intro key hkey
    rw [insertDevice, Table.get?_set, if_neg hkey]
  | switched found =>
    refine ⟨rfl, rfl, ?_⟩
    intro key hkey
    rw [Table.get?_set, if_neg hkey]

/-- What a command makes of one history: it leaves it alone, adds a row, carries the last row on, or
bills it. -/
theorem execute_history (s : Store) (c : Command) (room : RoomId) :
    (s.execute c).2.history room = s.history room ∨
    (∃ session, (s.execute c).2.history room = s.history room ++ [session]) ∨
    (∃ row next : Session, row.Continues next ∧ next.billedTimeCost = row.billedTimeCost ∧
      LastReplaced row next (s.history room) ((s.execute c).2.history room)) ∨
    ∃ (cost : Word) (row : Session), c = .bill room cost ∧ row.status.isOpen = true ∧
      LastReplaced row { row with billedTimeCost := cost } (s.history room)
        ((s.execute c).2.history room) := by
  have heffect := s.execute_effect c
  -- where the command is about one room, any other has its history
  have hothers : ∀ {key}, s.SameOutside key (s.execute c).2 → room ≠ key →
      (s.execute c).2.history room = s.history room :=
    fun outside hne => history_congr (outside.others room hne)
  generalize ho : (s.execute c).1 = o at heffect
  generalize (s.execute c).2 = s' at heffect hothers ⊢
  unfold Effect at heffect
  split at heffect
  · left
    rw [heffect]
  · -- an assignment appends a row to its own room
    rename_i key _ _ _ c'
    obtain ⟨outside, appended⟩ := heffect
    by_cases hkey : room = key
    · subst hkey
      exact .inr (.inl ⟨c'.session, appended⟩)
    · exact .inl (hothers outside hkey)
  · rename_i key _ _ c'
    obtain ⟨outside, row, -, continues, cost_eq, replaced⟩ := heffect
    by_cases hkey : room = key
    · subst hkey
      exact .inr (.inr (.inl ⟨row, c'.session, continues, cost_eq, replaced⟩))
    · exact .inl (hothers outside hkey)
  · -- a batch may replace the last row of any room
    obtain ⟨-, -, settled⟩ := heffect
    rcases settled room with same | ⟨row, next, -, continues, cost_eq, replaced⟩
    · exact .inl (history_congr same)
    · exact .inr (.inr (.inl ⟨row, next, continues, cost_eq, replaced⟩))
  · rename_i key cost
    obtain ⟨outside, row, isOpen, replaced⟩ := heffect
    by_cases hkey : room = key
    · subst hkey
      exact .inr (.inr (.inr ⟨cost, row, rfl, isOpen, replaced⟩))
    · exact .inl (hothers outside hkey)
  · exact .inl (heffect.2.1 room)
  · exact .inl (history_congr (by rw [heffect.1]))
  · exact .inl (history_congr (by rw [heffect.1]))
  · -- no command gives any other answer
    cases heffect

/-- A command lets a history grow. -/
theorem execute_grows (s : Store) (c : Command) (room : RoomId) :
    Grows (s.history room) ((s.execute c).2.history room) := by
  rcases s.execute_history c room with
    same | ⟨session, appended⟩ | ⟨row, next, continues, -, replaced⟩ |
      ⟨cost, row, -, isOpen, replaced⟩
  · rw [same]
    exact .refl _
  · rw [appended]
    exact .concat _ session
  · exact replaced.grows continues
  · exact replaced.grows (.of_isOpen isOpen rfl rfl rfl rfl)

/-- The billed cost of a row is changed by a bill, while the row is open. -/
theorem execute_billedTimeCost {c : Command} {i : Nat} {row next : Session}
    (before : (s.history room)[i]? = some row)
    (behind : ((s.execute c).2.history room)[i]? = some next) :
    next.billedTimeCost = row.billedTimeCost ∨
      ∃ cost, c = .bill room cost ∧ row.status.isOpen = true ∧
        next = { row with billedTimeCost := cost } := by
  rcases s.execute_history c room with
    same | ⟨session, appended⟩ | ⟨old, new, -, cost_eq, replaced⟩ | ⟨cost, old, rfl, isOpen, replaced⟩
  · rw [same, before] at behind
    cases behind
    exact .inl rfl
  · -- the rows before the appended one are where they were
    obtain ⟨hlt, -⟩ := List.getElem?_eq_some_iff.mp before
    rw [appended, List.getElem?_append_left hlt, before] at behind
    cases behind
    exact .inl rfl
  · -- a row that is replaced by a transition keeps its billed cost
    left
    rcases replaced.getElem?_cases before with kept | ⟨rfl, new_eq⟩
    · rw [kept] at behind
      cases behind
      rfl
    · rw [new_eq] at behind
      cases behind
      exact cost_eq
  · -- a bill writes into the open row
    rcases replaced.getElem?_cases before with kept | ⟨rfl, new_eq⟩
    · rw [kept] at behind
      cases behind
      exact .inl rfl
    · rw [new_eq] at behind
      cases behind
      exact .inr ⟨cost, rfl, isOpen, rfl⟩

/-! ## Whole runs -/

/-- A run lets every history grow. -/
theorem after_grows (s : Store) (commands : List Command) (room : RoomId) :
    Grows (s.history room) ((s.after commands).history room) := by
  induction commands generalizing s with
  | nil => exact .refl _
  | cons c rest ih =>
    rw [after_cons]
    exact (s.execute_grows c room).trans (ih (s.execute c).2)

/-- Without a bill for the room, a run carries every billed cost along. -/
theorem after_billedTimeCost {commands : List Command} (unbilled : ∀ cost, .bill room cost ∉ commands)
    {i : Nat} {row next : Session} (before : (s.history room)[i]? = some row)
    (behind : ((s.after commands).history room)[i]? = some next) :
    next.billedTimeCost = row.billedTimeCost := by
  induction commands generalizing s row with
  | nil =>
    rw [after_nil, before] at behind
    cases behind
    rfl
  | cons c rest ih =>
    rw [after_cons] at behind
    -- the row is followed through the first command to the rest
    obtain ⟨middle, hmiddle, -⟩ := s.execute_grows c room i row before
    have hrest := ih (fun cost hmem => unbilled cost (List.mem_cons_of_mem c hmem)) hmiddle behind
    rcases execute_billedTimeCost before hmiddle with same | ⟨cost, rfl, -, -⟩
    · rw [hrest, same]
    · exact absurd List.mem_cons_self (unbilled cost)

/-- **Histories are append-only and failures are atomic.** In every store, reachable or not: a command
has the effect that goes with its answer and no other, which for a refusal is none; only a bill changes
the billed cost of a row, and only while the row is open. Along every run the histories do not become
shorter, a row keeps its place and identity, a terminal row everything, and what is not billed keeps
its cost. -/
theorem history_permanent (s : Store) :
    (∀ c, s.Effect c (s.execute c).1 (s.execute c).2) ∧
    (∀ (c : Command) (room : RoomId) (i : Nat) (row next : Session),
      (s.history room)[i]? = some row → ((s.execute c).2.history room)[i]? = some next →
        next.billedTimeCost = row.billedTimeCost ∨
        ∃ cost, c = .bill room cost ∧ row.status.isOpen = true ∧
          next = { row with billedTimeCost := cost }) ∧
    ∀ (commands : List Command) (room : RoomId),
      (s.history room).length ≤ ((s.after commands).history room).length ∧
      (∀ (i : Nat) (row : Session), (s.history room)[i]? = some row →
        ∃ next : Session, ((s.after commands).history room)[i]? = some next ∧ row.Continues next ∧
          ((∀ cost, .bill room cost ∉ commands) → next.billedTimeCost = row.billedTimeCost)) ∧
      ∀ (i : Nat) (row : Session), (s.history room)[i]? = some row → row.status.isTerminal = true →
        ((s.after commands).history room)[i]? = some row := by
  refine ⟨s.execute_effect, fun c room i row next => execute_billedTimeCost, ?_⟩
  intro commands room
  have grows := s.after_grows commands room
  refine ⟨grows.length_le, ?_, fun i row hi ended => grows.terminal hi ended⟩
  intro i row hi
  obtain ⟨next, hnext, continues⟩ := grows i row hi
  exact ⟨next, hnext, continues, fun unbilled => after_billedTimeCost unbilled hi hnext⟩

end Store

end Occupancy
