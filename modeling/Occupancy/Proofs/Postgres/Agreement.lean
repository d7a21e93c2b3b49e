import Mathlib
import Occupancy.Proofs.Postgres.Batches
import Occupancy.Proofs.Postgres.Changes
import Occupancy.Proofs.Postgres.Readings

/-!
# The stores agree

The store in memory and the store on Postgres are asked the same, one request after another, and answer the same
up to the numbers of sessions. Tables that mirror a store before a request do so after it. Main statement:
`stores_agree`; what it leaves out are the runs of `stores_disagree` and the requests of `not_alike_of_failsTwice`.
-/

namespace Occupancy

/-! ## Seeds -/

/-- What the keys of the tables ask of a seed: no number comes twice. -/
structure Seed.Admitted (seed : Seed) : Prop where
  rooms : (seed.rooms.map (·.id)).Nodup
  devices : (seed.devices.map (·.id)).Nodup

/-- Entries with different keys that are put in one after another are all found. -/
theorem look_foldl {σ α κ : Type} [DecidableEq κ] (look : σ → κ → Option α) {put : σ → α → σ} {key : α → κ}
    (look_put : ∀ s a k, look (put s a) k = if k = key a then some a else look s k) {l : List α}
    (distinct : (l.map key).Nodup) (s : σ) (k : κ) :
    look (l.foldl put s) k = (l.find? (key · = k)).or (look s k) := by
  induction l generalizing s with
  | nil => rfl
  | cons a l ih =>
    rw [List.map_cons, List.nodup_cons] at distinct
    rw [List.foldl_cons, ih distinct.2, look_put]
    by_cases hkey : k = key a
    · -- nothing that is put in later has the key
      have hnone : l.find? (key · = k) = none := by
        refine List.find?_eq_none.mpr fun b hb hsame => distinct.1 (List.mem_map.mpr ⟨b, hb, ?_⟩)
        rw [← hkey, of_decide_eq_true hsame]
      rw [hnone, if_pos hkey, List.find?_cons_of_pos (by simp [hkey])]
      rfl
    · rw [if_neg hkey, List.find?_cons_of_neg (by simpa using Ne.symm hkey)]

namespace Store

/-- A room that is inserted is found. -/
theorem room_insertRoom (s : Store) (description : Room) (room : RoomId) :
    ((s.insertRoom description).rooms.get? room).map (·.room) =
      if room = description.id then some description else (s.rooms.get? room).map (·.room) := by
  rw [insertRoom, Table.alter, Table.get?_set]
  split
  · cases s.rooms.get? description.id <;> rfl
  · rfl

theorem device?_insertDevice (s : Store) (d : Device) (device : DeviceId) :
    (s.insertDevice d).device? device = if device = d.id then some d else s.device? device :=
  Table.get?_set _ _ _ _

theorem rooms_insertDevices (devices : List Device) (s : Store) :
    (devices.foldl insertDevice s).rooms = s.rooms := by
  induction devices generalizing s with
  | nil => rfl
  | cons d rest ih => exact ih (s.insertDevice d)

theorem device?_insertRooms (rooms : List Room) (s : Store) (device : DeviceId) :
    (rooms.foldl insertRoom s).device? device = s.device? device := by
  induction rooms generalizing s with
  | nil => rfl
  | cons r rest ih => exact ih (s.insertRoom r)

end Store

namespace Postgres

def Tables.ofSeed (seed : Seed) : Tables where
  rooms := seed.rooms
  devices := seed.devices
  sessions := []

/-- Tables and a store that have just been filled from one seed hold the same. -/
theorem mirrors_ofSeed {seed : Seed} (admitted : seed.Admitted) (R : SessionId → SessionId → Prop) :
    Mirrors R (Store.ofSeed seed) (Tables.ofSeed seed) where
  rooms room := by
    -- whatever is looked up was put in by the last entry with its key, which is the only one
    have hfound := look_foldl (fun s k => (s.rooms.get? k).map (·.room)) Store.room_insertRoom admitted.rooms
      (seed.devices.foldl Store.insertDevice .empty) room
    rw [Store.rooms_insertDevices, show Store.empty.rooms.get? room = none from rfl, Option.map_none,
      Option.or_none] at hfound
    exact hfound.symm
  devices device := by
    have hfound := look_foldl Store.device? Store.device?_insertDevice admitted.devices .empty device
    rw [show Store.empty.device? device = none from rfl, Option.or_none] at hfound
    rw [Store.ofSeed, Store.device?_insertRooms]
    exact hfound.symm
  roomIds := admitted.rooms
  rows := by
    -- nobody has hired anything yet
    refine ⟨fun room => ?_, .nil⟩
    have hnil : (Store.ofSeed seed).history room = [] := by
      cases hr : (Store.ofSeed seed).rooms.get? room with
      | none => exact history_of_none hr
      | some r => exact (history_of_get? hr).trans ((Store.ofSeed_untouched seed).1 room r hr)
    rw [hnil]
    exact .nil

/-! ## Numbers -/

/-- Two numbers are drawn at the same of the first requests. -/
def Drawn (ids ids' : Nat → SessionId) (n : Nat) (a b : SessionId) : Prop :=
  ∃ k < n, a = ids k ∧ b = ids' k

section

variable {R R' : SessionId → SessionId → Prop} {s : Store} {t : Tables} {before now : Instant}

/-- Tables mirror a store as well if more numbers are taken for the same. -/
theorem Mirrors.mono (h : Mirrors R s t) (weaker : ∀ a b, R a b → R' a b) : Mirrors R' s t where
  rooms := h.rooms
  devices := h.devices
  roomIds := h.roomIds
  rows := by
    refine ⟨fun room => (h.rows.ofRoom room).imp fun x y alike => ?_, h.rows.ids⟩
    cases alike with
    | mk related => exact .mk (weaker _ _ related)

/-! ## One request -/

/-- Tables that mirror a store answer a request as it does, and mirror it after that. -/
theorem Mirrors.agrees (choice : Choice) (h : Mirrors R s t) (wf : s.EachRecord RoomRecord.WellFormed)
    (timed : s.Timed before) (hle : before ≤ now) (hnow : Held now) {id id' : SessionId} (related : R id id')
    (fresh : ∀ y ∈ t.sessions, y.id ≠ id') (request : Request) :
    Agrees R (¬ FailsTwice s now request) (request.inMemory id now s) (request.onTables choice id' now t) := by
  cases request with
  | assign room customer duration => exact agrees_assign h wf related fresh hnow room customer duration
  | apply room tr => exact agrees_apply choice h wf timed hle hnow id id' room tr
  | finalizeExpired => exact agrees_finalizeExpired choice h wf timed hnow id id'
  | view room => exact agrees_view choice h wf timed hle id id' room
  | views rooms => exact agrees_views choice h wf timed hle id id' rooms

end

/-! ## Runs -/

/-- Instants that strictly increase and that columns hold. -/
structure Timely (instants : List Instant) : Prop where
  ordered : instants.Pairwise (· < ·)
  held : ∀ i ∈ instants, Held i

/-- The stores after the first `n` requests, the last of which was made by `before`. -/
structure Together (ids ids' : Nat → SessionId) (n : Nat) (before : Instant) (s : Store) (t : Tables) :
    Prop where
  mirrors : Mirrors (Drawn ids ids' n) s t
  wellFormed : s.EachRecord RoomRecord.WellFormed
  timed : s.Timed before

namespace Together

variable {ids ids' : Nat → SessionId} {n : Nat} {before now : Instant} {s : Store} {t : Tables}

/-- The stores agree on one more request. -/
theorem agrees (choice : Choice) (h : Together ids ids' n before s t) (distinct : Set.InjOn ids' {k | k ≤ n})
    (hle : before ≤ now) (hnow : Held now) (request : Request) :
    Agrees (Drawn ids ids' (n + 1)) (¬ FailsTwice s now request) (request.inMemory (ids n) now s)
      (request.onTables choice (ids' n) now t) := by
  -- an identifier that was drawn before is not drawn again
  have fresh : ∀ y ∈ t.sessions, y.id ≠ ids' n := by
    intro y hy heq
    obtain ⟨r, hr, x, hx, alike⟩ := h.mirrors.rows.exists_session hy
    cases alike with
    | mk related =>
      obtain ⟨k, hk, -, hid⟩ := related
      have hsame : k = n := distinct (Nat.le_of_lt hk) (Nat.le_refl n) (hid.symm.trans heq)
      omega
  have weaker : Mirrors (Drawn ids ids' (n + 1)) s t :=
    h.mirrors.mono fun a b ⟨k, hk, hdrawn⟩ => ⟨k, Nat.lt_succ_of_lt hk, hdrawn⟩
  exact weaker.agrees choice h.wellFormed h.timed hle hnow ⟨n, Nat.lt_succ_self n, rfl, rfl⟩ fresh request

/-- The stores stay together, unless the end of a session was cut off. -/
theorem serve (choice : Choice) (h : Together ids ids' n before s t) (distinct : Set.InjOn ids' {k | k ≤ n})
    (hlt : before < now) (hnow : Held now) {request : Request}
    (uncut : (request.inMemory (ids n) now s).1.Uncut) :
    Together ids ids' (n + 1) now (request.inMemory (ids n) now s).2
      (request.onTables choice (ids' n) now t).2 where
  mirrors := (h.agrees choice distinct (Int.le_of_lt hlt) hnow request).mirror uncut
  wellFormed := Store.wellFormed_inMemory h.wellFormed request (ids n) now
  timed := Store.timed_inMemory h.timed hlt hnow request (ids n) uncut

/-- The stores stay together through a run. -/
theorem run (choice : Choice) (h : Together ids ids' n before s t) {earlier : Run}
    (distinct : Set.InjOn ids' {k | k ≤ n + earlier.length}) (timely : Timely (earlier.map (·.2) ++ [now]))
    (hbefore : ∀ i ∈ earlier.map (·.2) ++ [now], before < i)
    (uncut : ∀ a ∈ (conduct Request.inMemory ids n s earlier).1, a.Uncut) :
    ∃ latest < now, Together ids ids' (n + earlier.length) latest (conduct Request.inMemory ids n s earlier).2
      (conduct (Request.onTables choice) ids' n t earlier).2 := by
  induction earlier generalizing n before s t with
  | nil => exact ⟨before, hbefore now (List.mem_singleton.mpr rfl), h⟩
  | cons x rest ih =>
    obtain ⟨request, i⟩ := x
    obtain ⟨ordered, held⟩ := timely
    rw [List.map_cons, List.cons_append] at ordered held hbefore
    rw [List.pairwise_cons] at ordered
    rw [List.length_cons, Nat.add_comm rest.length 1, ← Nat.add_assoc] at distinct ⊢
    -- the first call takes an identifier, and the rest draw later ones
    have hfirst : Set.InjOn ids' {k | k ≤ n} :=
      distinct.mono fun k hk => Nat.le_trans hk (by omega)
    have hserve := h.serve choice hfirst (hbefore i List.mem_cons_self) (held i List.mem_cons_self)
      (uncut _ List.mem_cons_self)
    exact ih hserve distinct ⟨ordered.2, fun j hj => held j (List.mem_cons_of_mem i hj)⟩ ordered.1
      fun a ha => uncut a (List.mem_cons_of_mem _ ha)

end Together

/-! ## Agreement -/

/-- **The stores agree.** A store in memory and tables are filled from one seed and asked the same through a
run whose instants strictly increase and are held by columns. Both draw their own numbers for new sessions, and
those on the tables do not repeat. Unless the end of a session was cut off at the last instant in the run, both
answer one more request alike: they reply with the same sessions, devices and views up to the numbers of
sessions, drawn at the same requests, or they fail for the same reason. Several views come from the tables by
the number of the room and each once. Nothing is said of an assignment that fails for the room as well as for
the duration. -/
theorem stores_agree (choice : Choice) {seed : Seed} (admitted : seed.Admitted) {ids ids' : Nat → SessionId}
    {earlier : Run} {now : Instant} {request : Request} (timely : Timely (earlier.map (·.2) ++ [now]))
    (distinct : Set.InjOn ids' {k | k ≤ earlier.length})
    (uncut : ∀ a ∈ (conduct Request.inMemory ids 0 (Store.ofSeed seed) earlier).1, a.Uncut) :
    let n := earlier.length
    let s := (conduct Request.inMemory ids 0 (Store.ofSeed seed) earlier).2
    let t := (conduct (Request.onTables choice) ids' 0 (Tables.ofSeed seed) earlier).2
    ¬ FailsTwice s now request →
    Answer.Alike (Drawn ids ids' (n + 1)) (request.inMemory (ids n) now s).1.byRoom
      (request.onTables choice (ids' n) now t).1 := by
  intro n s t once
  -- an instant to start from: what columns hold is later
  let before : Instant := ⟨earliest.nanos - 1, by decide⟩
  have hbefore : ∀ i ∈ earlier.map (·.2) ++ [now], before < i := by
    intro i hi
    have hlate := Instant.le_iff.mp (timely.held i hi).late
    show earliest.nanos - 1 < i.nanos
    omega
  have start : Together ids ids' 0 before (Store.ofSeed seed) (Tables.ofSeed seed) :=
    ⟨mirrors_ofSeed admitted _, Store.wellFormed_after seed [], Store.timed_ofSeed seed before⟩
  obtain ⟨latest, hlatest, together⟩ := start.run choice (by rwa [Nat.zero_add]) timely hbefore uncut
  rw [Nat.zero_add] at together
  have hnow : Held now := timely.held now (List.mem_append_right _ (List.mem_singleton.mpr rfl))
  exact (together.agrees choice distinct (Int.le_of_lt hlatest) hnow request).answers once

def serial (n : Nat) : SessionId :=
  ⟨BitVec.ofNat 128 n⟩

/-- Two rooms, one of which has a lamp. -/
def harbourAndGarden : Seed :=
  ⟨[⟨5, 1, "Harbour", .active, some 4⟩, ⟨6, 1, "Garden", .active, none⟩], [⟨4, "Lamp", none, false⟩]⟩

/-- No two of its rooms share an identifier, and no two of its devices. -/
theorem admitted_harbourAndGarden : harbourAndGarden.Admitted :=
  ⟨by decide, by decide⟩

/-- The harbour is let, and paused twenty seconds later. After twenty more the stores agree on the views of both
rooms, although the session has number 0 in the one and number 7 in the other. -/
theorem stores_agree_harbour :
    let second (n : Fin 60) : Instant := ⟨n * 1000000000, Instant.second_inRange n⟩
    let ids' (n : Nat) : SessionId := serial (n + 7)
    let earlier : Run :=
      [(.assign 5 none 3600, second 0), (.apply 5 .pause, second 20)]
    let now := second 40
    let s := (conduct Request.inMemory serial 0 (Store.ofSeed harbourAndGarden) earlier).2
    let t := (conduct (Request.onTables .first) ids' 0 (Tables.ofSeed harbourAndGarden) earlier).2
    Answer.Alike (Drawn serial ids' 3) ((Request.views [6, 5]).inMemory (serial 2) now s).1.byRoom
      ((Request.views [6, 5]).onTables .first (ids' 2) now t).1 := by
  intro second ids' earlier now
  have timely : Timely (earlier.map (·.2) ++ [now]) :=
    ⟨by decide, fun i hi => ⟨by revert i; decide, by revert i; decide⟩⟩
  have distinct : Set.InjOn ids' {k | k ≤ earlier.length} := by
    intro j hj k hk heq
    have hj' : j ≤ 2 := hj
    have hk' : k ≤ 2 := hk
    -- later identifiers differ, as their numbers do
    have hvalue := congrArg (fun id : SessionId => id.value.toNat) heq
    simp only [ids', serial, BitVec.toNat_ofNat] at hvalue
    omega
  have uncut : ∀ a ∈ (conduct Request.inMemory serial 0 (Store.ofSeed harbourAndGarden) earlier).1,
      a.Uncut := by decide +kernel
  exact stores_agree .first admitted_harbourAndGarden timely distinct uncut (fun twice => twice)

/-! ## Disagreement -/

/-- The stores answer a request after a run at instants of whole milliseconds differently, even if all numbers
of sessions are taken for the same. -/
structure Disagree (seed : Seed) (earlier : Run) (request : Request) (now : Instant) : Prop where
  admitted : seed.Admitted
  ordered : (earlier.map (·.2) ++ [now]).Pairwise (· < ·)
  whole : ∀ i ∈ earlier.map (·.2) ++ [now], 1000000 ∣ i.nanos
  answers : ¬ Answer.Alike (fun _ _ => True)
    (request.inMemory (serial earlier.length) now
      (conduct Request.inMemory serial 0 (Store.ofSeed seed) earlier).2).1
    (request.onTables .first (serial earlier.length) now
      (conduct (Request.onTables .first) serial 0 (Tables.ofSeed seed) earlier).2).1

/-- What a view says of the room and of the end of its session. -/
def RoomView.ending (v : RoomView) : RoomId × Option Timestamp :=
  (v.room, v.session.map (·.scheduledEndAt))

/-- The endings in the views of an answer, if it is not a failure. -/
def Answer.endings : Answer → Option (List (RoomId × Option Timestamp))
  | .ok (.shown v) => some [RoomView.ending v]
  | .ok (.listed vs) => some (vs.map RoomView.ending)
  | .ok _ => some []
  | .error _ => none

/-- Answers that are alike say the same of endings. -/
theorem endings_of_alike {R : SessionId → SessionId → Prop} {a a' : Answer} (h : Answer.Alike R a a') :
    a'.endings = a.endings := by
  have hview : ∀ v v' : RoomView, Renamed R v v' → RoomView.ending v' = RoomView.ending v := by
    intro v v' renamed
    cases renamed with
    | idle free => rfl
    | occupied shown related => simp [RoomView.ending, shown]
  cases h with
  | error e => rfl
  | ok alike =>
    -- a row differs from a session in its identifier only
    cases alike with
    | committed alike | finalized alike => rfl
    | shown alike => exact congrArg (fun x => some [x]) (hview _ _ alike)
    | listed alike => exact congrArg some (map_eq_of_forall₂ alike hview)

/-- A whole number of seconds before the last second of the calendar. -/
def beforeEnd (seconds : Fin 60) : Instant where
  nanos := (8210266876800 - 1 - seconds) * 1000000000
  inRange := by omega

/-- The harbour is let for five seconds when the calendar is about to end, and paused for six. -/
def lastEvening : Run :=
  [(.assign 5 none 5, beforeEnd 10), (.apply 5 .pause, beforeEnd 9), (.apply 5 .resume, beforeEnd 3)]

/-- Where the stores differ by design: several views come in the order of the request from memory and by the
number of the room from the tables, columns hold no instant before the start of Julian days, and they lose the
last nanoseconds of an end that was cut off. -/
theorem stores_disagree :
    Disagree harbourAndGarden [] (.views [6, 5]) .epoch ∧
    Disagree harbourAndGarden [] (.assign 5 none 60) ⟨earliest.nanos - 1000000000, by decide⟩ ∧
    Disagree harbourAndGarden lastEvening (.view 5) (beforeEnd 2) := by
  refine ⟨⟨admitted_harbourAndGarden, by decide, by decide, fun alike => ?_⟩,
    ⟨admitted_harbourAndGarden, by decide, by decide, fun alike => ?_⟩,
    ⟨admitted_harbourAndGarden, by decide, by decide, fun alike => ?_⟩⟩
  all_goals
    refine absurd (endings_of_alike alike) ?_
    cbv
    decide

/-- An assignment that fails for its room as well as for its duration is refused for the room in memory, and for
the duration on the tables, whatever these hold. -/
theorem answers_of_failsTwice (choice : Choice) {s : Store} {now : Instant} {request : Request}
    (twice : FailsTwice s now request) (id id' : SessionId) (t : Tables) :
    ∃ room detail,
      ((request.inMemory id now s).1 = .error (.refused (.noRoom room)) ∨
        (request.inMemory id now s).1 = .error (.refused (.conflict room))) ∧
      (request.onTables choice id' now t).1 = .error (.refused (.invalidInput detail)) := by
  -- nothing but an assignment fails twice
  cases request with
  | apply | finalizeExpired | view | views => exact twice.elim
  | assign room customer duration =>
    obtain ⟨unbookable, unassignable⟩ := twice
    rw [Session.bookable_iff_exists_book id' room customer, not_exists] at unbookable
    -- on the tables the duration is looked at first
    obtain ⟨detail, hdetail⟩ : ∃ detail, ((Request.assign room customer duration).onTables choice id' now t).1 =
        .error (.refused (.invalidInput detail)) := by
      cases hbook : Session.book id' room customer duration now with
      | ok session => exact absurd hbook (unbookable session)
      | error e =>
        obtain ⟨detail, rfl⟩ := Session.book_error hbook
        exact ⟨detail, by rw [onTables_unbookable choice t hbook]⟩
    refine ⟨room, detail, ?_, hdetail⟩
    -- in memory it is only looked at when the room is there and free
    simp only [Request.inMemory]
    rcases s.assign_cases id room customer duration now with
      ⟨-, hassign⟩ | ⟨r, hr, listed, ⟨-, hassign⟩ | ⟨free, -⟩ | ⟨free, -⟩⟩
    · exact .inl (by rw [hassign])
    · exact .inr (by rw [hassign])
    all_goals exact absurd free ((unassignable r hr).resolve_left listed)

/-- The stores disagree on every assignment that fails twice, so that `stores_agree` cannot do without its last
condition. -/
theorem not_alike_of_failsTwice (choice : Choice) {s : Store} {now : Instant} {request : Request}
    (twice : FailsTwice s now request) (id id' : SessionId) (t : Tables) (R : SessionId → SessionId → Prop) :
    ¬ Answer.Alike R (request.inMemory id now s).1.byRoom (request.onTables choice id' now t).1 := by
  obtain ⟨room, detail, hroom, hduration⟩ := answers_of_failsTwice choice twice id id' t
  rw [hduration]
  rcases hroom with h | h <;> rw [h] <;> nofun

end Postgres

end Occupancy
