import Mathlib.Data.List.Dedup
import Occupancy.Proofs.Postgres.Tables
import Occupancy.Proofs.Store.Independence

/-!
# Requests

What every store can be asked, and what the store in memory and the store on Postgres answer. Each request
comes with the number that a new session would get; a store draws its own numbers, so that answers are compared
up to them (`Answer.Alike`).
-/

namespace Occupancy.Postgres

/-! ## Requests and answers -/

/-- What a store is asked at some instant. -/
inductive Request where
  | assign (room : RoomId) (customer : Option Word) (duration : Word)
  | apply (room : RoomId) (t : Transition)
  | finalizeExpired
  | view (room : RoomId)
  | views (rooms : List RoomId)

/-- What a store replies to a request that it carries out. -/
inductive Reply where
  | committed (c : Commit)
  | finalized (cs : List Commit)
  | shown (v : RoomView)
  | listed (vs : List RoomView)

abbrev Answer :=
  Except Failure Reply

/-- No session is committed whose end was cut off at the last instant. -/
def Answer.Uncut (a : Answer) : Prop :=
  ∀ c, a = .ok (.committed c) → c.session.scheduledEndAt ≠ .last

instance : DecidablePred Answer.Uncut
  | .ok (.committed c) =>
    decidable_of_iff (c.session.scheduledEndAt ≠ .last)
      ⟨fun h _ hc => by cases hc; exact h, fun h => h c rfl⟩
  | .ok (.finalized _) => isTrue (by rintro c ⟨⟩)
  | .ok (.shown _) => isTrue (by rintro c ⟨⟩)
  | .ok (.listed _) => isTrue (by rintro c ⟨⟩)
  | .error _ => isTrue (by rintro c ⟨⟩)

/-- A reading of the store in memory as an answer. -/
def ofReading {α : Type} (f : α → Reply) : Except ViewError α → Answer
  | .ok a => .ok (f a)
  | .error (.refused e) => .error (.refused e)
  | .error .overflow => .error .overflow

/-- The answer of an operation of the store on Postgres, and the tables after it. No transaction is under way
between operations. -/
def performed {α : Type} (choice : Choice) (f : α → Reply) (p : Exchange α) (t : Tables) :
    Answer × Tables :=
  let (result, d) := Database.run choice p ⟨t, none⟩
  (result.map f, d.tables)

namespace Request

/-- What the store in memory answers, and the store after it. -/
def inMemory (r : Request) (id : SessionId) (now : Instant) (s : Store) : Answer × Store :=
  match r with
  | .assign room customer duration =>
    match s.assign id room customer duration now with
    | .ok (c, s') => (.ok (.committed c), s')
    | .error e => (.error (.refused e), s)
  | .apply room t =>
    match s.apply room t now with
    | .ok (c, s') => (.ok (.committed c), s')
    | .error e => (.error (.refused e), s)
  | .finalizeExpired => (.ok (.finalized (s.finalizeExpired now).1), (s.finalizeExpired now).2)
  | .view room => (ofReading .shown (s.view room now), s)
  | .views rooms => (ofReading .listed (s.views rooms now), s)

/-- What the store on Postgres answers, and the tables after it. -/
def onTables (choice : Choice) (r : Request) (id : SessionId) (now : Instant) (t : Tables) :
    Answer × Tables :=
  match r with
  | .assign room customer duration =>
    performed choice .committed (Postgres.assign id room customer duration now) t
  | .apply room t' => performed choice .committed (Postgres.apply room t' now) t
  | .finalizeExpired => performed choice .finalized (Postgres.finalizeExpired now) t
  | .view room => performed choice .shown (Postgres.view room now) t
  | .views rooms => performed choice .listed (Postgres.views rooms now) t

end Request

/-! ## Runs -/

/-- Requests with the instants at which they are made. -/
abbrev Run :=
  List (Request × Instant)

/-- The answers of a run and the state after it. The numbers of new sessions come from a supply, of which each
request has its own. -/
def conduct {σ : Type} (serve : Request → SessionId → Instant → σ → Answer × σ) (ids : Nat → SessionId) :
    Nat → σ → Run → List Answer × σ
  | _, s, [] => ([], s)
  | n, s, (r, now) :: rest =>
    let (a, s) := serve r (ids n) now s
    let (answers, s) := conduct serve ids (n + 1) s rest
    (a :: answers, s)

/-! ## Answers up to the numbers of sessions -/

variable (R : SessionId → SessionId → Prop)

/-- Views that differ in nothing but the numbers of their sessions, which are related. -/
inductive Renamed (v : RoomView) : RoomView → Prop where
  | idle (free : v.session = none) : Renamed v v
  | occupied {session : SessionView} {id : SessionId} (shown : v.session = some session)
      (related : R session.id id) : Renamed v { v with session := some { session with id } }

/-- Replies that differ in nothing but the numbers of sessions. -/
inductive Reply.Alike : Reply → Reply → Prop where
  | committed {c c' : Commit} (alike : c.Alike R c') : Alike (.committed c) (.committed c')
  | finalized {cs cs' : List Commit} (alike : List.Forall₂ (Commit.Alike R) cs cs') :
      Alike (.finalized cs) (.finalized cs')
  | shown {v v' : RoomView} (alike : Renamed R v v') : Alike (.shown v) (.shown v')
  | listed {vs vs' : List RoomView} (alike : List.Forall₂ (Renamed R) vs vs') :
      Alike (.listed vs) (.listed vs')

/-- Answers that differ in nothing but the numbers of sessions: both requests are carried out, or both fail
for the same reason. -/
inductive Answer.Alike : Answer → Answer → Prop where
  | ok {r r' : Reply} (alike : r.Alike R r') : Alike (.ok r) (.ok r')
  | error (e : Failure) : Alike (.error e) (.error e)

/-! ## The order of views -/

/-- The views of a list by the numbers of their rooms, each once. -/
def byRoom (vs : List RoomView) : List RoomView :=
  vs.dedup.mergeSort fun a b => a.room.toInt ≤ b.room.toInt

/-- An answer with its views by the numbers of their rooms. -/
def Answer.byRoom : Answer → Answer
  | .ok (.listed vs) => .ok (.listed (Postgres.byRoom vs))
  | a => a

end Occupancy.Postgres
