import Occupancy.Proofs.Postgres.Conversation
import Occupancy.Proofs.Postgres.Rows
import Occupancy.Proofs.Store.Machine

/-!
# Changes on Postgres are all or nothing

`AssignAllowed` and `ApplyAllowed` say which replies of a database let a session be opened or changed,
`AssignRefused` and `ApplyRefused` which ones keep it from that and what the failure is. The statements of a
transaction come to one or the other (`Decides`), and the transaction around them is committed accordingly
(`AllOrNothing`). Main statement: `transitions_all_or_nothing`.
-/

namespace Occupancy.Postgres

/-! ## What was told in a conversation -/

abbrev Replies :=
  Statement → Except String Result → Prop

/-- A statement was replied to in the turns of a conversation. -/
def told (ts : List Turn) : Replies :=
  fun s reply => Turn.statement s reply ∈ ts

section

variable {ts ts' : List Turn} {s s' : Statement} {reply reply' : Except String Result}

@[simp] theorem told_nil : ¬ told [] s reply :=
  List.not_mem_nil

@[simp] theorem told_statement :
    told (.statement s' reply' :: ts) s reply ↔ (s = s' ∧ reply = reply') ∨ told ts s reply := by
  simp [told]

/-- What is told around the statements of a transaction adds no reply to a statement. -/
theorem told_transaction (inner : List Turn) {ends : List Turn} {ack : Except String Unit}
    (hends : ∀ s reply, Turn.statement s reply ∉ ends) :
    told (.start ack :: inner ++ ends) = told inner := by
  funext s reply
  simp [told, hends]

end

/-- A change that is either committed as a whole or not at all: `allowed` are the changes that the replies
before the commit allow, and `refused` the failures that they cause. -/
structure AllOrNothing (ts : List Turn) (r : Except Failure Commit) (allowed : Commit → Prop)
    (refused : Failure → Prop) : Prop where
  /-- The commit is sent exactly if a change is allowed. -/
  commits_iff : (∃ ack, .commit ack ∈ ts) ↔ ∃ c, allowed c
  /-- The change succeeds exactly if its commit is acknowledged. -/
  succeeds_iff : ∀ c, r = .ok c ↔ allowed c ∧ .commit (.ok ()) ∈ ts
  /-- It fails for a reason, and then no commit is sent, or with the commit. -/
  fails : ∀ e, r = .error e → ((∀ ack, .commit ack ∉ ts) ∧ refused e) ∨
    ∃ code, .commit (.error code) ∈ ts ∧ e = .database code

theorem AllOrNothing.imp {ts : List Turn} {r : Except Failure Commit} {allowed allowed' : Commit → Prop}
    {refused refused' : Failure → Prop} (h : AllOrNothing ts r allowed refused)
    (hallowed : ∀ c, allowed c ↔ allowed' c) (hrefused : ∀ e, refused e → refused' e) :
    AllOrNothing ts r allowed' refused' where
  commits_iff := h.commits_iff.trans (exists_congr hallowed)
  succeeds_iff c := (h.succeeds_iff c).trans (and_congr_left' (hallowed c))
  fails e he := (h.fails e he).imp_left (And.imp_right (hrefused e))

/-- What the statements of a transaction come to. -/
structure Decides (inner : List Turn) (r : Except Failure Commit) (allowed : Replies → Commit → Prop)
    (refused : Replies → Failure → Prop) : Prop where
  statements : ∀ t ∈ inner, ∃ s reply, t = Turn.statement s reply
  ok_iff : ∀ c, r = .ok c ↔ allowed (told inner) c
  error : ∀ e, r = .error e → refused (told inner) e

/-- A transaction around statements. -/
theorem AllOrNothing.of_transaction {body : Exchange Commit} {ts : List Turn} {r : Except Failure Commit}
    {allowed : Replies → Commit → Prop} {refused : Replies → Failure → Prop}
    (hbody : ∀ inner r, body.Tells inner r → Decides inner r allowed refused)
    (h : (transaction body).Tells ts r) :
    AllOrNothing ts r (fun c => .start (.ok ()) ∈ ts ∧ allowed (told ts) c)
      (fun e => (∃ code, .start (.error code) ∈ ts ∧ e = .database code) ∨ refused (told ts) e) := by
  -- statements decide, and none of them is a commit
  have hnone : ∀ {inner r}, Decides inner r allowed refused → ∀ ack, .commit ack ∉ inner := by
    intro inner r hdecides ack hmem
    obtain ⟨s, reply, heq⟩ := hdecides.statements _ hmem
    cases heq
  rcases h.of_transaction with ⟨code, rfl, rfl⟩ | ⟨e, inner, hinner, rfl, rfl⟩ |
    ⟨a, inner, hinner, rfl, rfl⟩ | ⟨a, inner, code, hinner, rfl, rfl⟩
  -- it was not begun
  · constructor
    · simp
    · simp
    · rintro e ⟨⟩
      exact .inl ⟨by simp, .inl ⟨code, by simp, rfl⟩⟩
  -- the body has failed, and nothing was committed
  · have hdecides := hbody inner _ hinner
    have hno := hnone hdecides
    have hallowed : ∀ c, ¬ allowed (told inner) c := fun c hc => by cases (hdecides.ok_iff c).mpr hc
    constructor <;> rw [told_transaction inner (by simp)]
    · simp [hallowed, hno]
    · simp [hallowed]
    · rintro e' ⟨⟩
      exact .inl ⟨by simp [hno], .inr (hdecides.error _ rfl)⟩
  -- committed and acknowledged
  · have hdecides := hbody inner _ hinner
    have hallowed : ∀ c, allowed (told inner) c ↔ a = c := fun c => by
      rw [← hdecides.ok_iff, Except.ok.injEq]
    constructor <;> rw [told_transaction inner (by simp)]
    · simp [hallowed]
    · simp [hallowed]
    · rintro e' ⟨⟩
  -- sent, but the database did not accept it
  · have hdecides := hbody inner _ hinner
    have hallowed : ∀ c, allowed (told inner) c ↔ a = c := fun c => by
      rw [← hdecides.ok_iff, Except.ok.injEq]
    have hno := hnone hdecides
    constructor <;> rw [told_transaction inner (by simp)]
    · simp [hallowed]
    · simp [hno]
    · rintro e' ⟨⟩
      exact .inr ⟨code, by simp, rfl⟩

/-- The first row of the reply to a statement. -/
def Finds (told : Replies) (s : Statement) (row : Row) : Prop :=
  ∃ result, told s (.ok result) ∧ result.rows.head? = some row

/-- A statement is replied to without rows. -/
def FindsNothing (told : Replies) (s : Statement) : Prop :=
  ∃ result, told s (.ok result) ∧ result.rows = []

/-- There is a first row, or there are no rows at all. -/
theorem firstRow_cases (result : Result) (failure : RoomError) :
    (result.rows = [] ∧ firstRow result failure = .error (.refused failure)) ∨
    ∃ row, result.rows.head? = some row ∧ firstRow result failure = .ok row := by
  unfold firstRow
  cases result.rows with
  | nil => exact .inl ⟨rfl, rfl⟩
  | cons row rows => exact .inr ⟨row, rfl, rfl⟩

/-- The first row of the reply to a statement is used, if the statement is answered with rows. -/
theorem Exchange.Tells.of_firstRow_bind {β : Type} {s : Statement} {failure : RoomError}
    {f : Row → Exchange β} {ts : List Turn} {r : Except Failure β}
    (h : (execute s >>= fun result => given (firstRow result failure) >>= f).Tells ts r) :
    (∃ code, ts = [.statement s (.error code)] ∧ r = .error (.database code)) ∨
    (∃ result, result.rows = [] ∧ ts = [.statement s (.ok result)] ∧ r = .error (.refused failure)) ∨
    ∃ result row rest, result.rows.head? = some row ∧ ts = .statement s (.ok result) :: rest ∧
      (f row).Tells rest r := by
  rcases of_execute_bind h with ⟨code, rfl, rfl⟩ | ⟨result, rest, rfl, hrest⟩
  · exact .inl ⟨code, rfl, rfl⟩
  · right
    rcases of_given_bind hrest with ⟨e, hfirst, rfl, rfl⟩ | ⟨row, hfirst, hrow⟩ <;>
      -- the result that was read has a first row or not
      rcases firstRow_cases result failure with ⟨hnone, heq⟩ | ⟨_, hhead, heq⟩ <;>
      cases heq.symm.trans hfirst
    · exact .inl ⟨result, hnone, rfl, rfl⟩
    · exact .inr ⟨result, row, rest, hhead, rfl, hrow⟩

/-- Statements that come to a failure which their replies cause, without allowing a change. -/
theorem Decides.of_error {inner : List Turn} {e : Failure} {allowed : Replies → Commit → Prop}
    {refused : Replies → Failure → Prop}
    (statements : ∀ t ∈ inner, ∃ s reply, t = Turn.statement s reply)
    (hrefused : refused (told inner) e) (hallowed : ∀ c, ¬ allowed (told inner) c) :
    Decides inner (.error e) allowed refused where
  statements := statements
  ok_iff c := iff_of_false (fun h => by cases h) (hallowed c)
  error e' h := by
    cases h
    exact hrefused

/-! ## Opening a session -/

/-- The insertion of a session into the table. -/
def insertStatement (room : RoomId) (session : Session) : Exchange Unit :=
  ExceptT.mk (.ask (.execute (.insert session)) fun reply => .done (inserted room reply))

/-- What an assignment does once it knows the device of its room. -/
def openStatements (room : RoomId) (session : Session) (device : Option DeviceId) : Exchange Commit := do
  let opened ← execute (.findOpen room)
  if opened.rows ≠ [] then given (.error (.refused (.conflict room)))
  else
    insertStatement room session
    given (.ok ⟨session, device⟩)

/-- What an assignment does between the start of its transaction and the commit. -/
def assignStatements (room : RoomId) (session : Session) : Exchange Commit := do
  let row ← given (firstRow (← execute (.lockRoomState room)) (.noRoom room))
  given (bookable room (← given (row.get Cell.text? "state")))
  let device ← given (row.get? Cell.integer? "device_id")
  let opened ← execute (.findOpen room)
  if opened.rows ≠ [] then given (.error (.refused (.conflict room)))
  else
    insertStatement room session
    given (.ok ⟨session, device⟩)

/-- The assignment books first, and opens its transaction only for a session that can be booked. -/
theorem assign_eq (id : SessionId) (room : RoomId) (customer : Option Word) (duration : Word) (now : Instant) :
    assign id room customer duration now =
      (given ((Session.book id room customer duration now).mapError .refused) >>= fun session =>
        transaction (assignStatements room session)) :=
  rfl

/-- The replies that let a session be opened: the room is there and not deleted, its device can be read, no
session is open, and the session is inserted. -/
structure AssignAllowed (room : RoomId) (told : Replies) (c : Commit) : Prop where
  locked : ∃ row name, Finds told (.lockRoomState room) row ∧ row.get Cell.text? "state" = .ok name ∧
    RoomState.ofText? name ≠ some .deleted ∧ row.get? Cell.integer? "device_id" = .ok c.device
  free : FindsNothing told (.findOpen room)
  written : ∃ result, told (.insert c.session) (.ok result)

/-- The replies that keep a session from being opened, with the failures. -/
inductive AssignRefused (room : RoomId) (told : Replies) : Failure → Prop where
  | noRoom (h : FindsNothing told (.lockRoomState room)) : AssignRefused room told (.refused (.noRoom room))
  | noState {row : Row} (found : Finds told (.lockRoomState room) row)
      (h : row.get Cell.text? "state" = .error (.column "state")) :
      AssignRefused room told (.column "state")
  | deleted {row : Row} {name : String} (found : Finds told (.lockRoomState room) row)
      (state : row.get Cell.text? "state" = .ok name) (h : RoomState.ofText? name = some .deleted) :
      AssignRefused room told (.refused (.noRoom room))
  | noDevice {row : Row} (found : Finds told (.lockRoomState room) row)
      (h : row.get? Cell.integer? "device_id" = .error (.column "device_id")) :
      AssignRefused room told (.column "device_id")
  | occupied {row : Row} (h : Finds told (.findOpen room) row) :
      AssignRefused room told (.refused (.conflict room))
  | taken {session : Session} (h : told (.insert session) (.error "23505")) :
      AssignRefused room told (.refused (.conflict room))
  | failed {s : Statement} {code : String} (h : told s (.error code))
      (other : (∀ session, s ≠ .insert session) ∨ code ≠ "23505") :
      AssignRefused room told (.database code)

/-- The last statement inserts the session. That its room is taken shows in the code of the error. -/
theorem Exchange.Tells.of_insert {room : RoomId} {session : Session} {c : Commit} {ts : List Turn}
    {r : Except Failure Commit}
    (h : Exchange.Tells (insertStatement room session >>= fun _ => given (.ok c)) ts r) :
    (∃ result, ts = [.statement (.insert session) (.ok result)] ∧ r = .ok c) ∨
    (ts = [.statement (.insert session) (.error "23505")] ∧ r = .error (.refused (.conflict room))) ∨
    ∃ code, code ≠ "23505" ∧ ts = [.statement (.insert session) (.error code)] ∧
      r = .error (.database code) := by
  obtain ⟨reply, rest, rfl, hinserted⟩ := Converses.of_ask h
  cases reply with
  | ok result =>
    obtain ⟨rfl, rfl⟩ := Converses.of_done hinserted
    -- the table accepted the row, or it has one for this room already, or it failed otherwise
    exact .inl ⟨result, rfl, rfl⟩
  | error code =>
    right
    by_cases htaken : code = "23505"
    · subst htaken
      obtain ⟨rfl, rfl⟩ := Converses.of_done hinserted
      exact .inl ⟨rfl, rfl⟩
    · simp only [inserted, if_neg htaken] at hinserted
      obtain ⟨rfl, rfl⟩ := Converses.of_done hinserted
      exact .inr ⟨code, htaken, rfl, rfl⟩

section

variable {room : RoomId} {session : Session} {ts : List Turn} {r : Except Failure Commit}

/-- Once the room is found, a session is opened exactly if there is no open one and the insertion goes
through. -/
theorem decides_openStatements {locked : Result} {row : Row} {name : String} {device : Option DeviceId}
    (hrow : locked.rows.head? = some row) (hstate : row.get Cell.text? "state" = .ok name)
    (hlisted : RoomState.ofText? name ≠ some .deleted)
    (hdevice : row.get? Cell.integer? "device_id" = .ok device)
    (h : (openStatements room session device).Tells ts r) :
    Decides (.statement (.lockRoomState room) (.ok locked) :: ts) r
      (fun told c => c.session = session ∧ AssignAllowed room told c) (AssignRefused room) := by
  -- the query for an open session
  rcases Exchange.Tells.of_execute_bind h with ⟨code, rfl, rfl⟩ | ⟨opened, rest, rfl, hwrite⟩
  · refine .of_error (by simp) (.failed (s := .findOpen room) (by simp) (.inl (by simp))) ?_
    rintro c ⟨-, -, ⟨opened, hopened, -⟩, -⟩
    simp at hopened
  by_cases hopened : opened.rows = []
  · rw [if_neg (not_not_intro hopened)] at hwrite
    -- a commit needs that the row was written
    have written : ∀ {c reply}, c.session = session →
        AssignAllowed room (told [.statement (.lockRoomState room) (.ok locked),
          .statement (.findOpen room) (.ok opened), .statement (.insert session) reply]) c →
        ∃ result, reply = .ok result := by
      rintro c reply hsession ⟨-, -, result, hwritten⟩
      exact ⟨result, by simpa [hsession, eq_comm] using hwritten⟩
    rcases Exchange.Tells.of_insert hwrite with ⟨result, rfl, rfl⟩ | ⟨rfl, rfl⟩ | ⟨code, hother, rfl, rfl⟩
    · refine ⟨by simp, fun c => ?_, fun e h => by cases h⟩
      constructor
      · rintro ⟨⟩
        exact ⟨rfl, ⟨row, name, ⟨locked, by simp, hrow⟩, hstate, hlisted, hdevice⟩, ⟨opened, by simp, hopened⟩,
          ⟨result, by simp⟩⟩
      · rintro ⟨hsession, ⟨row', name', found, -, -, hdevice'⟩, -, -⟩
        simp [Finds, hrow] at found
        subst found
        cases hdevice.symm.trans hdevice'
        rw [← hsession]
    · refine .of_error (by simp) (.taken (by simp : told _ (.insert session) _)) ?_
      rintro c ⟨hsession, hallowed⟩
      obtain ⟨_, heq⟩ := written hsession hallowed
      cases heq
    · refine .of_error (by simp) (.failed (s := .insert session) (by simp) (.inr hother)) ?_
      rintro c ⟨hsession, hallowed⟩
      obtain ⟨_, heq⟩ := written hsession hallowed
      cases heq
  -- there is one, and that alone refuses
  · rw [if_pos hopened] at hwrite
    obtain ⟨rfl, rfl⟩ := hwrite.of_given
    obtain ⟨occupying, others, hoccupying⟩ := List.exists_cons_of_ne_nil hopened
    refine .of_error (by simp) (.occupied ⟨opened, by simp, congrArg List.head? hoccupying⟩) ?_
    rintro c ⟨-, -, ⟨opened', hopened', hnone⟩, -⟩
    simp at hopened'
    subst hopened'
    contradiction

/-- The statements of an assignment go through exactly if the replies allow it. -/
theorem decides_assignStatements (h : (assignStatements room session).Tells ts r) :
    Decides ts r (fun told c => c.session = session ∧ AssignAllowed room told c)
      (AssignRefused room) := by
  -- the room is locked
  rcases Exchange.Tells.of_firstRow_bind h with ⟨code, rfl, rfl⟩ | ⟨locked, hnone, rfl, rfl⟩ |
    ⟨locked, row, rest, hrow, rfl, hread⟩
  · refine .of_error (by simp) (.failed (s := .lockRoomState room) (by simp) (.inl (by simp))) ?_
    rintro c ⟨-, ⟨row, name, found, -⟩, -, -⟩
    simp [Finds] at found
  · refine .of_error (by simp) (.noRoom ⟨locked, by simp, hnone⟩) ?_
    rintro c ⟨-, ⟨row, name, found, -⟩, -, -⟩
    simp [Finds, hnone] at found
  clear h
  have found : ∀ rest, Finds (told (.statement (.lockRoomState room) (.ok locked) :: rest))
      (.lockRoomState room) row :=
    fun rest => ⟨locked, by simp, hrow⟩
  -- its row is read
  rcases Exchange.Tells.of_given_bind hread with ⟨e, hstate, rfl, rfl⟩ | ⟨name, hstate, hcheck⟩
  · obtain rfl := Row.get_error hstate
    refine .of_error (by simp) (.noState (found _) hstate) ?_
    -- the row that was read is the one the failure is about
    rintro c ⟨-, ⟨row', name, found', hname, -⟩, -, -⟩
    simp [Finds, hrow] at found'
    subst found'
    cases hstate.symm.trans hname
  rcases Exchange.Tells.of_given_bind hcheck with ⟨e, hdeleted, rfl, rfl⟩ | ⟨_, hbookable, hlink⟩
  · unfold bookable at hdeleted
    split at hdeleted <;> cases hdeleted
    refine .of_error (by simp) (.deleted (found _) hstate ‹_›) ?_
    rintro c ⟨-, ⟨row', name', found', hname, hlisted, -⟩, -, -⟩
    simp [Finds, hrow] at found'
    subst found'
    cases hstate.symm.trans hname
    contradiction
  have hlisted : RoomState.ofText? name ≠ some .deleted := by
    intro hdeleted
    unfold bookable at hbookable
    rw [if_pos hdeleted] at hbookable
    cases hbookable
  rcases Exchange.Tells.of_given_bind hlink with ⟨e, hdevice, rfl, rfl⟩ | ⟨device, hdevice, hopen⟩
  · obtain rfl := Row.get?_error hdevice
    refine .of_error (by simp) (.noDevice (found _) hdevice) ?_
    rintro c ⟨-, ⟨row', name', found', -, -, hdevice'⟩, -, -⟩
    simp [Finds, hrow] at found'
    subst found'
    cases hdevice.symm.trans hdevice'
  exact decides_openStatements hrow hstate hlisted hdevice hopen

end

/-! ## Changing a session -/

/-- What a transition does once its session has made the move. -/
def writeStatements (room : RoomId) (t : Transition) (next : Session) (device : Option DeviceId) :
    Exchange Commit := do
  let updated ← execute (.update next)
  if updated.touched = 0 then
    given (.error (.refused (.invalidState room t.verb "session changed concurrently")))
  else given (.ok ⟨next, device⟩)

/-- What a transition does once it knows the device of its room. -/
def moveStatements (room : RoomId) (t : Transition) (now : Instant) (device : Option DeviceId) :
    Exchange Commit := do
  let latest ← execute (.latest room)
  let current ← given
    ((firstRow latest (.invalidState room t.verb "room has no session")).bind Row.session)
  let next ← given ((current.apply t now).mapError .refused)
  writeStatements room t next device

/-- What a transition does between the start of its transaction and the commit. -/
def applyStatements (room : RoomId) (t : Transition) (now : Instant) : Exchange Commit := do
  let row ← given (firstRow (← execute (.lockRoom room)) (.noRoom room))
  let device ← given (row.get? Cell.integer? "device_id")
  let latest ← execute (.latest room)
  let current ← given
    ((firstRow latest (.invalidState room t.verb "room has no session")).bind Row.session)
  let next ← given ((current.apply t now).mapError .refused)
  let updated ← execute (.update next)
  if updated.touched = 0 then
    given (.error (.refused (.invalidState room t.verb "session changed concurrently")))
  else given (.ok ⟨next, device⟩)

/-- The replies that let a session be changed: the room is there and its device can be read, its latest session
can be read and makes the transition, and the row of the session is written. -/
structure ApplyAllowed (room : RoomId) (t : Transition) (now : Instant) (told : Replies)
    (c : Commit) : Prop where
  locked : ∃ row, Finds told (.lockRoom room) row ∧ row.get? Cell.integer? "device_id" = .ok c.device
  moves : ∃ row current, Finds told (.latest room) row ∧ row.session = .ok current ∧
    current.apply t now = .ok c.session
  written : ∃ result, told (.update c.session) (.ok result) ∧ result.touched ≠ 0

/-- The replies that keep a session from being changed, with the failures. -/
inductive ApplyRefused (room : RoomId) (t : Transition) (now : Instant) (told : Replies) :
    Failure → Prop where
  | noRoom (h : FindsNothing told (.lockRoom room)) : ApplyRefused room t now told (.refused (.noRoom room))
  | noDevice {row : Row} (found : Finds told (.lockRoom room) row)
      (h : row.get? Cell.integer? "device_id" = .error (.column "device_id")) :
      ApplyRefused room t now told (.column "device_id")
  | noSession (h : FindsNothing told (.latest room)) :
      ApplyRefused room t now told (.refused (.invalidState room t.verb "room has no session"))
  | unreadable {row : Row} {e : Failure} (found : Finds told (.latest room) row)
      (h : row.session = .error e) (cause : row.Unreadable e) : ApplyRefused room t now told e
  | rejected {row : Row} {current : Session} (found : Finds told (.latest room) row)
      (read : row.session = .ok current) (h : current.apply t now = .error (current.rejected t)) :
      ApplyRefused room t now told (.refused (current.rejected t))
  | overbooked {row : Row} {current : Session} {delta : Word} {detail : String}
      (found : Finds told (.latest room) row) (read : row.session = .ok current) (extending : t = .extend delta)
      (h : current.apply t now = .error (.invalidInput detail)) :
      ApplyRefused room t now told (.refused (.invalidInput detail))
  | changed {session : Session} {result : Result} (h : told (.update session) (.ok result))
      (untouched : result.touched = 0) :
      ApplyRefused room t now told (.refused (.invalidState room t.verb "session changed concurrently"))
  | failed {s : Statement} {code : String} (h : told s (.error code)) :
      ApplyRefused room t now told (.database code)

section

variable {room : RoomId} {t : Transition} {now : Instant} {ts : List Turn} {r : Except Failure Commit}

/-- Once the session has made the move, the change goes through exactly if its row is written. -/
theorem decides_writeStatements {locked latest : Result} {found row : Row} {device : Option DeviceId}
    {current next : Session} (hfound : locked.rows.head? = some found)
    (hdevice : found.get? Cell.integer? "device_id" = .ok device) (hrow : latest.rows.head? = some row)
    (hsession : row.session = .ok current) (hmoved : current.apply t now = .ok next)
    (h : (writeStatements room t next device).Tells ts r) :
    Decides (.statement (.lockRoom room) (.ok locked) :: .statement (.latest room) (.ok latest) :: ts) r
      (ApplyAllowed room t now) (ApplyRefused room t now) := by
  -- the session is written
  rcases Exchange.Tells.of_execute_bind h with ⟨code, rfl, rfl⟩ | ⟨updated, rest, rfl, hend⟩
  · refine .of_error (by simp) (.failed (s := .update next) (by simp)) ?_
    rintro c ⟨-, -, result, hwritten, -⟩
    simp at hwritten
  -- nobody but another transaction could have ended it in between
  by_cases htouched : updated.touched = 0
  · rw [if_pos htouched] at hend
    obtain ⟨rfl, rfl⟩ := hend.of_given
    refine .of_error (by simp) (.changed (by simp : told _ (.update next) _) htouched) ?_
    rintro c ⟨-, -, result, hwritten, htouched'⟩
    simp at hwritten
    exact htouched' (hwritten.2 ▸ htouched)
  · rw [if_neg htouched] at hend
    obtain ⟨rfl, rfl⟩ := hend.of_given
    refine ⟨by simp, fun c => ?_, fun e h => by cases h⟩
    constructor
    · rintro ⟨⟩
      exact ⟨⟨found, ⟨locked, by simp, hfound⟩, hdevice⟩,
        ⟨row, current, ⟨latest, by simp, hrow⟩, hsession, hmoved⟩, ⟨updated, by simp, htouched⟩⟩
    -- replies are read once, so both ways the commit is of the same row and session
    · rintro ⟨⟨found', hfound', hdevice'⟩, ⟨row', current', hrow', hsession', hmoved'⟩, -⟩
      simp [Finds, hfound] at hfound'
      simp [Finds, hrow] at hrow'
      subst hfound' hrow'
      cases hdevice.symm.trans hdevice'
      cases hsession.symm.trans hsession'
      cases hmoved.symm.trans hmoved'
      rfl

/-- Once the room is found, the change goes through exactly if its latest session makes the move and is
written. -/
theorem decides_moveStatements {locked : Result} {found : Row} {device : Option DeviceId}
    (hfound : locked.rows.head? = some found) (hdevice : found.get? Cell.integer? "device_id" = .ok device)
    (h : (moveStatements room t now device).Tells ts r) :
    Decides (.statement (.lockRoom room) (.ok locked) :: ts) r (ApplyAllowed room t now)
      (ApplyRefused room t now) := by
  rcases Exchange.Tells.of_execute_bind h with ⟨code, rfl, rfl⟩ | ⟨latest, rest, rfl, hread⟩
  · refine .of_error (by simp) (.failed (s := .latest room) (by simp)) ?_
    rintro c ⟨-, ⟨row, current, found', -⟩, -⟩
    simp [Finds] at found'
  -- the latest session is read
  rcases firstRow_cases latest (.invalidState room t.verb "room has no session") with
    ⟨hnone, heq⟩ | ⟨row, hrow, heq⟩ <;> rw [heq] at hread
  · obtain ⟨rfl, rfl⟩ : rest = [] ∧ r = .error (.refused (.invalidState room t.verb "room has no session")) :=
      Exchange.Tells.of_given hread
    refine .of_error (by simp) (.noSession ⟨latest, by simp, hnone⟩) ?_
    rintro c ⟨-, ⟨row, current, found', -⟩, -⟩
    simp [Finds, hnone] at found'
  have foundSession : ∀ rest, Finds (told (.statement (.lockRoom room) (.ok locked) ::
      .statement (.latest room) (.ok latest) :: rest)) (.latest room) row :=
    fun rest => ⟨latest, by simp, hrow⟩
  rcases Exchange.Tells.of_given_bind hread with ⟨e, hsession, rfl, rfl⟩ | ⟨current, hsession, hmove⟩
  · refine .of_error (by simp) (.unreadable (foundSession _) hsession (Row.unreadable_of_session hsession)) ?_
    rintro c ⟨-, ⟨row', current, found', hsession', -⟩, -⟩
    simp [Finds, hrow] at found'
    subst found'
    cases hsession.symm.trans hsession'
  replace hsession : row.session = .ok current := hsession
  -- it makes the transition
  rcases Exchange.Tells.of_given_bind hmove with ⟨e, hfails, rfl, rfl⟩ | ⟨next, hnext, hwrite⟩
  · obtain ⟨reason, hmoved, rfl⟩ := mapError_eq_error hfails
    refine .of_error (by simp) ?_ ?_
    · rcases Session.apply_error hmoved with rfl | ⟨delta, detail, hextends, rfl⟩
      · exact .rejected (foundSession _) hsession hmoved
      · exact .overbooked (foundSession _) hsession hextends hmoved
    · rintro c ⟨-, ⟨row', current', found', hsession', hmoved'⟩, -⟩
      simp [Finds, hrow] at found'
      subst found'
      cases hsession.symm.trans hsession'
      cases hmoved.symm.trans hmoved'
  exact decides_writeStatements hfound hdevice hrow hsession (mapError_eq_ok hnext) hwrite

/-- The statements of a transition go through exactly if the replies allow it. -/
theorem decides_applyStatements (h : (applyStatements room t now).Tells ts r) :
    Decides ts r (ApplyAllowed room t now) (ApplyRefused room t now) := by
  -- the room is locked and its device read
  rcases Exchange.Tells.of_firstRow_bind h with ⟨code, rfl, rfl⟩ | ⟨locked, hnone, rfl, rfl⟩ |
    ⟨locked, found, rest, hfound, rfl, hlink⟩
  · refine .of_error (by simp) (.failed (s := .lockRoom room) (by simp)) ?_
    rintro c ⟨⟨row, found, -⟩, -, -⟩
    simp [Finds] at found
  · refine .of_error (by simp) (.noRoom ⟨locked, by simp, hnone⟩) ?_
    rintro c ⟨⟨row, found, -⟩, -, -⟩
    simp [Finds, hnone] at found
  rcases Exchange.Tells.of_given_bind hlink with ⟨e, hdevice, rfl, rfl⟩ | ⟨device, hdevice, hmove⟩
  · obtain rfl := Row.get?_error hdevice
    refine .of_error (by simp) (.noDevice ⟨locked, by simp, hfound⟩ hdevice) ?_
    rintro c ⟨⟨row, found', hdevice'⟩, -, -⟩
    simp [Finds, hfound] at found'
    subst found'
    cases hdevice.symm.trans hdevice'
  exact decides_moveStatements hfound hdevice hmove

end

/-! ## Every database -/

def Started (ts : List Turn) : Prop :=
  .start (.ok ()) ∈ ts

/-- A transaction cannot be started. -/
def Unstarted (ts : List Turn) (e : Failure) : Prop :=
  ∃ code, .start (.error code) ∈ ts ∧ e = .database code

/-- An assignment in conversation: without a session to open, nothing is sent. -/
theorem assign_tells {id : SessionId} {room : RoomId} {customer : Option Word} {duration : Word} {now : Instant}
    {ts : List Turn} {r : Except Failure Commit} (h : (assign id room customer duration now).Tells ts r) :
    AllOrNothing ts r
      (fun c => Session.book id room customer duration now = .ok c.session ∧ Started ts ∧
        AssignAllowed room (told ts) c)
      (fun e => (ts = [] ∧ ∃ detail,
          Session.book id room customer duration now = .error (.invalidInput detail) ∧
          e = .refused (.invalidInput detail)) ∨
        Unstarted ts e ∨ AssignRefused room (told ts) e) := by
  rw [assign_eq] at h
  cases hbook : Session.book id room customer duration now with
  -- without a booking nothing is sent
  | error reason =>
    obtain ⟨detail, rfl⟩ := Session.book_error hbook
    rw [hbook] at h
    obtain ⟨rfl, rfl⟩ := h.of_done
    constructor
    · simp
    · simp
    · rintro e ⟨⟩
      exact .inl ⟨by simp, .inl ⟨rfl, detail, rfl, rfl⟩⟩
  | ok session =>
    rw [hbook] at h
    refine (AllOrNothing.of_transaction (fun _ _ => decides_assignStatements) h).imp (fun c => ?_)
      (fun e => .inr)
    constructor
    · rintro ⟨hstarted, hsession, hallowed⟩
      exact ⟨by rw [hsession], hstarted, hallowed⟩
    · rintro ⟨hsession, hstarted, hallowed⟩
      cases hsession
      exact ⟨hstarted, rfl, hallowed⟩

/-- **Changes on Postgres are all or nothing**, whatever the database replies. -/
theorem transitions_all_or_nothing {σ : Type} (answer : (c : Call) → σ → c.Reply × σ) (s : σ) (room : RoomId)
    (now : Instant) :
    (∀ id customer duration,
      let p := (assign id room customer duration now).run
      let ts := turns answer p s
      AllOrNothing ts (p.run answer s).1
        (fun c => Session.book id room customer duration now = .ok c.session ∧ Started ts ∧
          AssignAllowed room (told ts) c)
        (fun e => (ts = [] ∧ ∃ detail,
            Session.book id room customer duration now = .error (.invalidInput detail) ∧
            e = .refused (.invalidInput detail)) ∨
          Unstarted ts e ∨ AssignRefused room (told ts) e)) ∧
    ∀ t,
      let p := (apply room t now).run
      let ts := turns answer p s
      AllOrNothing ts (p.run answer s).1
        (fun c => Started ts ∧ ApplyAllowed room t now (told ts) c)
        (fun e => Unstarted ts e ∨ ApplyRefused room t now (told ts) e) :=
  ⟨fun _ _ _ => assign_tells (converses_run answer _ s),
    fun _ => AllOrNothing.of_transaction (fun _ _ => decides_applyStatements) (converses_run answer _ s)⟩

end Occupancy.Postgres
