import Occupancy.Operation.Sweep
import Occupancy.Proofs.Fanout.Bookkeeping
import Occupancy.Proofs.Http.Answers
import Occupancy.Proofs.Store.Expiry

/-!
# What a sweep asks of the store

A sweep begins with a batch and the changes of devices (`exists_opening`). Then it reads views, together or one by
one (`exists_run_readViews`). Any call may fail. The rooms that the batch finalized have no open session any more,
so that their views can be read at any time unless a fault keeps them (`Store.viewable_finalizeExpired`).
-/

namespace Occupancy

open Http (Circumstances Desk)

/-! ## Views of closed rooms -/

namespace Store

variable {s : Store} {room : RoomId} {now : Instant}

/-- Every record is filed under the number of its room. -/
theorem filed_after (seed : Seed) (commands : List Command) :
    ((ofSeed seed).after commands).EachRecord fun room r => r.room.id = room := by
  refine ofSeed_induction (fun _ => rfl) (fun room r r' filed change => ?_) seed commands
  cases change with
  | describe _ description id => exact id
  | none | book | move | bill => exact filed

/-- A room without an open session can always be viewed. -/
theorem view_of_closed {r : RoomRecord} (found : s.rooms.get? room = some r) (closed : r.open? = none)
    (now : Instant) : s.view room now = .ok (RoomView.idle r.room (s.linkedDevice? r.room) now) := by
  have hsession : r.current?.filter (·.status.isOpen) = none := closed
  rw [view, found]
  dsimp only
  rw [RoomView.project?, hsession]

/-- Views that can be read one by one can be read together. -/
theorem views_of_view {rooms : List RoomId} {vs : List RoomView}
    (h : List.Forall₂ (fun room v => s.view room now = .ok v) rooms vs) : s.views rooms now = .ok vs := by
  induction h with
  | nil => rfl
  | cons hview _ ih =>
    rw [views, hview]
    dsimp only
    rw [ih]
    rfl

/-- The rooms of a list can be viewed at any time, under their own numbers. -/
def Viewable (s : Store) (rooms : List RoomId) : Prop :=
  ∀ room ∈ rooms, ∀ now, ∃ v, s.view room now = .ok v ∧ v.room = room

/-- Rooms that can all be viewed are viewed together, each by its own view. -/
theorem Viewable.exists_views {rooms : List RoomId} (h : s.Viewable rooms) (now : Instant) :
    ∃ vs, s.views rooms now = .ok vs ∧ vs.map (·.room) = rooms := by
  have hall : ∃ vs, List.Forall₂ (fun room v => s.view room now = .ok v) rooms vs ∧
      vs.map (·.room) = rooms := by
    induction rooms with
    | nil => exact ⟨[], .nil, rfl⟩
    | cons room rest ih =>
      obtain ⟨v, hview, hroom⟩ := h room List.mem_cons_self now
      obtain ⟨vs, hvs, hrooms⟩ := ih fun room hroom => h room (List.mem_cons_of_mem _ hroom)
      exact ⟨v :: vs, .cons hview hvs, by rw [List.map_cons, hroom, hrooms]⟩
  obtain ⟨vs, hvs, hrooms⟩ := hall
  exact ⟨vs, views_of_view hvs, hrooms⟩

/-- After a batch the rooms that it lists can be viewed, whatever is done to devices. -/
theorem viewable_finalizeExpired {s' : Store} (wf : s.EachRecord RoomRecord.WellFormed)
    (filed : s.EachRecord fun room r => r.room.id = room)
    (same : s'.rooms = (s.finalizeExpired now).2.rooms) :
    s'.Viewable (Commit.rooms (s.finalizeExpired now).1) := by
  -- the batch has closed the room, and a closed room has a view at any time
  intro room listed time
  obtain ⟨r, session, found, expired⟩ := (mem_rooms_finalizeExpired wf room now).mp listed
  obtain ⟨current, -, -, -, hsession⟩ := RoomRecord.expired?_eq_some_iff.mp expired
  have hsettled : s'.rooms.get? room = some (r.replaceCurrent session) := by
    rw [same, get?_finalizeExpired, found, Option.map_some, RoomRecord.settle_of_expired expired]
  have hclosed : (r.replaceCurrent session).open? = none := by
    refine RoomRecord.open?_eq_none_iff.mpr fun x hx => ?_
    rw [RoomRecord.current?_replaceCurrent] at hx
    cases hx
    rw [hsession]
    rfl
  exact ⟨_, view_of_closed hsettled hclosed time, filed room r found⟩

/-- Switching a device leaves the rooms. -/
theorem rooms_answerWith_setActive (s : Store) (fault : Option RoomError) (now : Instant) (id : SessionId)
    (device : DeviceId) (active : Bool) :
    (s.answerWith fault now id (.setActive device active)).2.rooms = s.rooms := by
  cases fault with
  | some e => rfl
  | none =>
    simp only [answerWith, Option.bind_none, answer]
    rcases s.setActive_cases device active with ⟨-, h⟩ | ⟨d, -, h⟩
    · rw [h]
    · rw [h]

end Store

/-! ## A sweep at work -/

namespace Sweep

/-- A sweep at work: its dealings with the store, and the publisher. -/
structure Round where
  desk : Desk
  clerk : Publish.Clerk

def answer (x : Circumstances) (y : Publish.Fortune) : (c : SweepCall) → Round → c.Reply × Round
  | .store c, r => ((r.desk.serve x c).1, { r with desk := (r.desk.serve x c).2 })
  | .publish c, r => ((r.clerk.answer y c).1, { r with clerk := (r.clerk.answer y c).2 })

variable {x : Circumstances} {y : Publish.Fortune}

/-- An action within a sweep runs as it does by itself. -/
theorem run_ofAction {α : Type} (p : Operation.Action α) (r : Round) :
    (ofAction p).run (answer x y) r =
      ((p.run (Desk.serve x) r.desk).1, { r with desk := (p.run (Desk.serve x) r.desk).2 }) := by
  rw [ofAction, Program.run_lift]
  induction p generalizing r with
  | done a => rfl
  | ask c next ih => exact ih _ _

/-- A publication within a sweep runs as it does by itself. -/
theorem run_ofPublication {α : Type} (p : Publish.Publication α) (r : Round) :
    (ofPublication p).run (answer x y) r =
      ((p.run (Publish.Clerk.answer y) r.clerk).1,
        { r with clerk := (p.run (Publish.Clerk.answer y) r.clerk).2 }) := by
  rw [ofPublication, Program.run_lift]
  induction p generalizing r with
  | done a => rfl
  | ask c next ih => exact ih _ _

/-! ## Reading -/

structure Reading where
  room : RoomId
  now : Instant
  reply : Except ViewError RoomView

/-- The views of several rooms, as they were read together. -/
structure Listing where
  rooms : List RoomId
  now : Instant
  reply : Except ViewError (List RoomView)

abbrev Dealing :=
  (c : StoreCall) × c.Reply

namespace Dealing

def clock (now : Instant) : Dealing :=
  ⟨.now, now⟩

def batch (now : Instant) (reply : Except RoomError (List Commit)) : Dealing :=
  ⟨.finalizeExpired now, reply⟩

def switch (device : DeviceId) (active : Bool) (reply : Except RoomError Unit) : Dealing :=
  ⟨.setActive device active, reply⟩

def view (room : RoomId) (now : Instant) (reply : Except ViewError RoomView) : Dealing :=
  ⟨.view room now, reply⟩

def list (rooms : List RoomId) (now : Instant) (reply : Except ViewError (List RoomView)) : Dealing :=
  ⟨.views rooms now, reply⟩

def batch? : Dealing → Option (Except RoomError (List Commit))
  | ⟨.finalizeExpired _, r⟩ => some r
  | _ => none

def reading? : Dealing → Option Reading
  | ⟨.view room now, r⟩ => some ⟨room, now, r⟩
  | _ => none

def listing? : Dealing → Option Listing
  | ⟨.views rooms now, r⟩ => some ⟨rooms, now, r⟩
  | _ => none

/-- The views that a call got. -/
def views : Dealing → List RoomView
  | ⟨.view _ _, .ok v⟩ => [v]
  | ⟨.views _ _, .ok vs⟩ => vs
  | _ => []

end Dealing

/-- What a call replies that only reads: what the store has, unless a fault hits it. -/
def Replies {β : Type} (x : Circumstances) (has reply : Except ViewError β) : Prop :=
  reply = has ∨ ∃ n e, x.fault n = some e ∧ reply = .error (.refused e)

theorem Replies.eq_of_ok {β : Type} {has : Except ViewError β} {b : β} (h : Replies x has (.ok b)) :
    has = .ok b := by
  rcases h with heq | ⟨n, e, -, heq⟩
  · exact heq.symm
  · cases heq

/-- More dealings with the store that leave it alone. -/
def noting (d : Desk) (log : List Dealing) : Desk :=
  { d with calls := d.calls ++ log }

theorem noting_noting (d : Desk) (earlier later : List Dealing) :
    noting (noting d earlier) later = noting d (earlier ++ later) := by
  rw [noting, noting, noting, List.append_assoc]

variable (x)

theorem serve_now (d : Desk) :
    d.serve x .now = (x.now d.calls.length, noting d [.clock (x.now d.calls.length)]) := by
  rw [Desk.serve, Store.answerWith_now]
  rfl

/-- A call that only reads is answered by the store as it is, or it fails. -/
theorem exists_serve {c : StoreCall} (reads : ∀ (s : Store) now id, (s.answer now id c).2 = s) (d : Desk) :
    ∃ r, d.serve x c = (r, noting d [⟨c, r⟩]) ∧
      ((∃ now id, r = (d.store.answer now id c).1) ∨ ∃ n e, x.fault n = some e ∧ c.refusal e = some r) := by
  rw [Desk.serve, Store.answerWith]
  -- a fault answers in the store's place, and nothing is lost by it
  cases hrefusal : (x.fault d.calls.length).bind c.refusal with
  | some r =>
    obtain ⟨e, hfault, hr⟩ := Option.bind_eq_some_iff.mp hrefusal
    exact ⟨r, rfl, .inr ⟨_, e, hfault, hr⟩⟩
  | none =>
    refine ⟨(d.store.answer (x.now d.calls.length) (x.id d.calls.length) c).1, ?_, .inl ⟨_, _, rfl⟩⟩
    dsimp only
    rw [reads, noting]

/-- Reading one view takes the clock and one call. -/
theorem exists_run_view (room : RoomId) (d : Desk) :
    ∃ now reply, Replies x (d.store.view room now) reply ∧
      (Operation.view room).run (Desk.serve x) d = (reply, noting d [.clock now, .view room now reply]) := by
  obtain ⟨reply, hserve, hreply⟩ := exists_serve x (c := .view room (x.now d.calls.length)) (fun _ _ _ => rfl)
    (noting d [.clock (x.now d.calls.length)])
  rw [noting_noting] at hserve
  refine ⟨_, reply, ?_, (Program.run_ask (serve_now x d)).trans ((Program.run_ask hserve).trans rfl)⟩
  rcases hreply with ⟨_, _, rfl⟩ | ⟨n, e, hfault, hrefusal⟩
  · exact .inl rfl
  · exact .inr ⟨n, e, hfault, (Option.some.inj hrefusal).symm⟩

/-- Reading a batch of views takes the clock and one call. -/
theorem exists_run_views (rooms : List RoomId) (d : Desk) :
    ∃ now reply, Replies x (d.store.views rooms now) reply ∧
      (Operation.views rooms).run (Desk.serve x) d = (reply, noting d [.clock now, .list rooms now reply]) := by
  obtain ⟨reply, hserve, hreply⟩ := exists_serve x (c := .views rooms (x.now d.calls.length)) (fun _ _ _ => rfl)
    (noting d [.clock (x.now d.calls.length)])
  rw [noting_noting] at hserve
  refine ⟨_, reply, ?_, (Program.run_ask (serve_now x d)).trans ((Program.run_ask hserve).trans rfl)⟩
  rcases hreply with ⟨_, _, rfl⟩ | ⟨n, e, hfault, hrefusal⟩
  · exact .inl rfl
  · exact .inr ⟨n, e, hfault, (Option.some.inj hrefusal).symm⟩

/-- The views of rooms are read one by one, each of them once. -/
structure ReadsEach (s : Store) (rooms : List RoomId) (log : List Dealing) : Prop where
  rooms : (log.filterMap Dealing.reading?).map (·.room) = rooms
  views : log.flatMap Dealing.views = (log.filterMap Dealing.reading?).filterMap (·.reply.toOption)
  replies : ∀ q ∈ log.filterMap Dealing.reading?, Replies x (s.view q.room q.now) q.reply

/-- The views of rooms are read together, and one by one if that fails. -/
def Reads (s : Store) (rooms : List RoomId) (log : List Dealing) : Prop :=
  ∃ now reply, log.filterMap Dealing.listing? = [⟨rooms, now, reply⟩] ∧
    Replies x (s.views rooms now) reply ∧
    match reply with
    | .ok vs => log.filterMap Dealing.reading? = [] ∧ log.flatMap Dealing.views = vs
    | .error _ => ReadsEach x s rooms log

variable {x}

theorem ReadsEach.cons {s : Store} {room : RoomId} {rooms : List RoomId} {now : Instant}
    {reply : Except ViewError RoomView} {log : List Dealing} (replies : Replies x (s.view room now) reply)
    (h : ReadsEach x s rooms log) :
    ReadsEach x s (room :: rooms) ([.clock now, .view room now reply] ++ log) where
  rooms := congrArg (room :: ·) h.rooms
  views := by
    cases reply with
    | ok v => exact congrArg (v :: ·) h.views
    | error e => exact h.views
  replies := List.forall_mem_cons.mpr ⟨replies, h.replies⟩

/-- A room whose view cannot be read does not keep the others from being read. -/
theorem exists_run_viewEach (rooms : List RoomId) (r : Round) :
    ∃ log, (viewEach rooms).run (answer x y) r =
        (log.flatMap Dealing.views, { r with desk := noting r.desk log }) ∧
      log.filterMap Dealing.batch? = [] ∧ log.filterMap Dealing.listing? = [] ∧
      ReadsEach x r.desk.store rooms log := by
  -- one reading for one room, and nothing else is noted
  induction rooms generalizing r with
  | nil =>
    refine ⟨[], ?_, rfl, rfl, ⟨rfl, rfl, by simp⟩⟩
    rw [noting, List.append_nil]
    rfl
  | cons room rest ih =>
    obtain ⟨now, reply, replies, hview⟩ := exists_run_view x room r.desk
    obtain ⟨log, hrest, batches, listings, reads⟩ :=
      ih { r with desk := noting r.desk [.clock now, .view room now reply] }
    refine ⟨[.clock now, .view room now reply] ++ log, ?_, batches, listings, reads.cons replies⟩
    rw [viewEach, Program.run_bind, run_ofAction, hview]
    -- a view that was read is among those to publish, a failure leaves the room out
    cases reply with
    | ok v =>
      dsimp only
      rw [Program.run_bind, hrest, noting_noting]
      rfl
    | error e =>
      dsimp only
      rw [hrest, noting_noting]
      rfl

/-- Reading the views ends in one batch, or in one reading for each room. -/
theorem exists_run_readViews (rooms : List RoomId) (r : Round) :
    ∃ log, (readViews rooms).run (answer x y) r =
        (log.flatMap Dealing.views, { r with desk := noting r.desk log }) ∧
      log.filterMap Dealing.batch? = [] ∧ Reads x r.desk.store rooms log := by
  obtain ⟨now, reply, replies, hviews⟩ := exists_run_views x rooms r.desk
  -- the batch failed, so the rooms are read one by one
  cases reply with
  | ok vs =>
    have hlog : [Dealing.clock now, Dealing.list rooms now (.ok vs)].flatMap Dealing.views = vs :=
      List.append_nil vs
    refine ⟨[.clock now, .list rooms now (.ok vs)], ?_, rfl, now, .ok vs, rfl, replies, rfl, hlog⟩
    rw [readViews, Program.run_bind, run_ofAction, hviews, hlog]
    rfl
  | error e =>
    obtain ⟨log, hrest, batches, listings, reads⟩ := exists_run_viewEach (x := x) (y := y) rooms
      { r with desk := noting r.desk [.clock now, .list rooms now (.error e)] }
    have hlistings : ([Dealing.clock now, Dealing.list rooms now (.error e)] ++ log).filterMap Dealing.listing? =
        [⟨rooms, now, .error e⟩] := by
      rw [List.filterMap_append, listings]
      rfl
    refine ⟨[.clock now, .list rooms now (.error e)] ++ log, ?_, batches, now, .error e, hlistings, replies,
      reads.rooms, reads.views, reads.replies⟩
    rw [readViews, Program.run_bind, run_ofAction, hviews]
    dsimp only
    rw [hrest, noting_noting]
    rfl

/-! ## What is read -/

/-- The views that were read are of the rooms they were read for, in order. -/
theorem sublist_of_named {readings : List Reading}
    (named : ∀ q ∈ readings, ∀ v, q.reply = .ok v → v.room = q.room) :
    ((readings.filterMap (·.reply.toOption)).map (·.room)).Sublist (readings.map (·.room)) := by
  induction readings with
  | nil => exact .slnil
  | cons q rest ih =>
    have hrest := ih fun q hq => named q (List.mem_cons_of_mem _ hq)
    cases hreply : q.reply with
    | ok v =>
      have hroom := named q List.mem_cons_self v hreply
      simp only [List.filterMap_cons, hreply, Except.toOption, List.map_cons, hroom]
      exact hrest.cons_cons _
    | error e =>
      simp only [List.filterMap_cons, hreply, Except.toOption, List.map_cons]
      exact hrest.cons _

/-- What is read of rooms that can be viewed are views of these rooms, in order. -/
theorem Reads.sublist {s : Store} {rooms : List RoomId} {log : List Dealing} (h : Reads x s rooms log)
    (viewable : s.Viewable rooms) : ((log.flatMap Dealing.views).map (·.room)).Sublist rooms := by
  obtain ⟨now, reply, -, replies, hreply⟩ := h
  -- the batch answered, and the store has a view for each room
  cases reply with
  | ok vs =>
    obtain ⟨vs', hvs', hrooms⟩ := viewable.exists_views now
    rw [replies.eq_of_ok] at hvs'
    cases hvs'
    rw [hreply.2, hrooms]
  -- the readings one by one, some of which may have failed
  | error e =>
    obtain ⟨hrooms, hviews, hreplies⟩ := hreply
    rw [hviews, ← hrooms]
    refine sublist_of_named fun q hq v hv => ?_
    obtain ⟨v', hv', hroom⟩ := viewable q.room (hrooms ▸ List.mem_map_of_mem hq) q.now
    have hreplies' := hreplies q hq
    rw [hv] at hreplies'
    rw [hreplies'.eq_of_ok] at hv'
    cases hv'
    exact hroom

/-- If all readings succeeded there is one view for one room. -/
theorem forall₂_of_viewed {s : Store} {now : Instant} {readings : List Reading}
    (viewed : ∀ q ∈ readings, ∃ v, q.reply = .ok v ∧ s.view q.room now = .ok v) :
    List.Forall₂ (fun room v => s.view room now = .ok v) (readings.map (·.room))
      (readings.filterMap (·.reply.toOption)) := by
  induction readings with
  | nil => exact .nil
  | cons q rest ih =>
    obtain ⟨v, hreply, hview⟩ := viewed q List.mem_cons_self
    simp only [List.filterMap_cons, hreply, Except.toOption, List.map_cons]
    exact .cons hview (ih fun q hq => viewed q (List.mem_cons_of_mem _ hq))

/-- Reading rooms one by one comes to what reading them together does, at one instant and without failures. -/
theorem Reads.views_eq {s : Store} {rooms : List RoomId} {log : List Dealing} (h : Reads x s rooms log)
    {now : Instant} (listings : ∀ q ∈ log.filterMap Dealing.listing?, ∀ vs, q.reply = .ok vs → q.now = now)
    (readings : ∀ q ∈ log.filterMap Dealing.reading?, q.now = now ∧ ∃ v, q.reply = .ok v) :
    s.views rooms now = .ok (log.flatMap Dealing.views) := by
  obtain ⟨time, reply, hlistings, replies, hreply⟩ := h
  -- either way the views are those of the instant that was asked for
  cases reply with
  | ok vs =>
    have htime : time = now :=
      listings ⟨rooms, time, .ok vs⟩ (by rw [hlistings]; exact List.mem_singleton_self _) vs rfl
    rw [← htime, replies.eq_of_ok, hreply.2]
  | error e =>
    obtain ⟨hrooms, hviews, hreplies⟩ := hreply
    rw [hviews, ← hrooms]
    refine Store.views_of_view (forall₂_of_viewed fun q hq => ?_)
    obtain ⟨hnow, v, hv⟩ := readings q hq
    have hreplies' := hreplies q hq
    rw [hv, hnow] at hreplies'
    exact ⟨v, hv, hreplies'.eq_of_ok⟩

/-! ## The opening -/

/-- The beginning of a sweep: the batch, and the changes of devices. -/
def opening (x : Circumstances) (s : Store) : Except RoomError (List RoomId) × Desk :=
  Operation.finalizeExpired.run (Desk.serve x) { store := s }

/-- The calls of the opening: one batch, and no view is read. -/
structure Opening (reply : Except RoomError (List Commit)) (log : List Dealing) : Prop where
  batches : log.filterMap Dealing.batch? = [reply]
  readings : log.filterMap Dealing.reading? = []
  listings : log.filterMap Dealing.listing? = []
  views : log.flatMap Dealing.views = []

/-- What was done before the views were read does not count. -/
theorem Reads.append_left {s : Store} {rooms : List RoomId} {reply : Except RoomError (List Commit)}
    {earlier log : List Dealing} (h : Reads x s rooms log) (opening : Opening reply earlier) :
    -- the opening neither reads nor shows any view
    Reads x s rooms (earlier ++ log) := by
  have hlistings : (earlier ++ log).filterMap Dealing.listing? = log.filterMap Dealing.listing? := by
    rw [List.filterMap_append, opening.listings, List.nil_append]
  have hreadings : (earlier ++ log).filterMap Dealing.reading? = log.filterMap Dealing.reading? := by
    rw [List.filterMap_append, opening.readings, List.nil_append]
  have hviews : (earlier ++ log).flatMap Dealing.views = log.flatMap Dealing.views := by
    rw [List.flatMap_append, opening.views, List.nil_append]
  obtain ⟨now, reply, listed, replies, hreply⟩ := h
  refine ⟨now, reply, hlistings.trans listed, replies, ?_⟩
  cases reply with
  | ok vs => exact ⟨hreadings.trans hreply.1, hviews.trans hreply.2⟩
  | error e =>
    refine ⟨?_, ?_, ?_⟩
    · rw [hreadings, hreply.rooms]
    · rw [hreadings, hviews, hreply.views]
    · rw [hreadings]
      exact hreply.replies

/-- The opening of a sweep is the clock, the batch and the switches. -/
theorem opening_of_switches (now : Instant) {reply : Except RoomError (List Commit)} {log : List Dealing}
    (switches : ∀ c ∈ log, ∃ device active reply, c = Dealing.switch device active reply) :
    Opening reply ([.clock now, .batch now reply] ++ log) := by
  have hswitch : ∀ c ∈ log, Dealing.batch? c = none ∧ Dealing.reading? c = none ∧
      Dealing.listing? c = none ∧ Dealing.views c = [] := by
    intro c hc
    obtain ⟨device, active, reply, rfl⟩ := switches c hc
    exact ⟨rfl, rfl, rfl, rfl⟩
  constructor
  · rw [List.filterMap_append, List.filterMap_eq_nil_iff.mpr fun c hc => (hswitch c hc).1]
    rfl
  · rw [List.filterMap_append, List.filterMap_eq_nil_iff.mpr fun c hc => (hswitch c hc).2.1]
    rfl
  · rw [List.filterMap_append, List.filterMap_eq_nil_iff.mpr fun c hc => (hswitch c hc).2.2.1]
    rfl
  · rw [List.flatMap_append, List.flatMap_eq_nil_iff.mpr fun c hc => (hswitch c hc).2.2.2]
    rfl

/-- Devices are told their activity, whatever becomes of it, and no room is touched. -/
theorem exists_run_settle (ts : List (DeviceId × Bool)) (d : Desk) :
    ∃ log store, (Operation.settle ts).run (Desk.serve x) d =
        ((), { d with store, calls := d.calls ++ log }) ∧
      store.rooms = d.store.rooms ∧ ∀ c ∈ log, ∃ device active reply, c = Dealing.switch device active reply := by
  -- one switch for each device, and a switch leaves the rooms
  induction ts generalizing d with
  | nil => exact ⟨[], d.store, by rw [List.append_nil]; rfl, rfl, by simp⟩
  | cons t rest ih =>
    obtain ⟨log, store, hrest, hrooms, switches⟩ := ih (d.serve x (.setActive t.1 t.2)).2
    refine ⟨Dealing.switch t.1 t.2 (d.serve x (.setActive t.1 t.2)).1 :: log, store, ?_, ?_, ?_⟩
    · refine hrest.trans ?_
      rw [Desk.serve]
      simp [Dealing.switch]
    · exact hrooms.trans (Store.rooms_answerWith_setActive ..)
    · exact List.forall_mem_cons.mpr ⟨⟨_, _, _, rfl⟩, switches⟩

/-- A batch fails and leaves the store alone, or it finalizes what has expired. -/
theorem exists_serve_batch (x : Circumstances) (now : Instant) (d : Desk) :
    ∃ reply store, d.serve x (.finalizeExpired now) =
        (reply, { d with store, calls := d.calls ++ [Dealing.batch now reply] }) ∧
      ∀ cs, reply = .ok cs → cs = (d.store.finalizeExpired now).1 ∧ store = (d.store.finalizeExpired now).2 := by
  cases hfault : x.fault d.calls.length with
  -- a batch that failed has changed nothing
  | some e =>
    refine ⟨.error e, d.store, ?_, fun cs h => by cases h⟩
    rw [Desk.serve, hfault]
    rfl
  | none =>
    refine ⟨.ok (d.store.finalizeExpired now).1, (d.store.finalizeExpired now).2, ?_, fun cs h => ?_⟩
    · rw [Desk.serve, hfault]
      rfl
    · cases h
      exact ⟨rfl, rfl⟩

/-- How a sweep begins: the clock, the batch, and what it made of the devices. -/
theorem exists_opening (x : Circumstances) (s : Store) :
    ∃ now, ∃ reply : Except RoomError (List Commit), ∃ log store,
      opening x s = (reply.map Commit.rooms, { store, calls := log }) ∧ Opening reply log ∧
      ∀ cs, reply = .ok cs →
        cs = (s.finalizeExpired now).1 ∧ store.rooms = (s.finalizeExpired now).2.rooms := by
  have hnow : ({ store := s } : Desk).serve x .now = (x.now 0, noting { store := s } [.clock (x.now 0)]) :=
    serve_now x { store := s }
  obtain ⟨reply, store, hbatch, hreply⟩ :=
    exists_serve_batch x (x.now 0) (noting { store := s } [.clock (x.now 0)])
  cases reply with
  | error e =>
    exact ⟨x.now 0, .error e, [Dealing.clock (x.now 0), Dealing.batch (x.now 0) (.error e)], store,
      (Program.run_ask hnow).trans ((Program.run_ask hbatch).trans rfl),
      opening_of_switches (x.now 0) (List.forall_mem_nil _), fun cs h => by cases h⟩
  | ok cs =>
    obtain ⟨rfl, rfl⟩ := hreply cs rfl
    obtain ⟨log, store, hsettle, hrooms, switches⟩ := exists_run_settle (x := x)
      ((s.finalizeExpired (x.now 0)).1.flatMap (Operation.toggle false))
      { store := (s.finalizeExpired (x.now 0)).2,
        calls := [Dealing.clock (x.now 0), Dealing.batch (x.now 0) (.ok (s.finalizeExpired (x.now 0)).1)] }
    refine ⟨x.now 0, .ok (s.finalizeExpired (x.now 0)).1, _, store,
      (Program.run_ask hnow).trans ((Program.run_ask hbatch).trans ?_), opening_of_switches (x.now 0) switches,
      fun cs h => ?_⟩
    · dsimp only
      rw [Operation.deactivateAll_eq, Program.run_bind]
      exact congrArg (fun a : Unit × Desk => (Except.ok (Commit.rooms (s.finalizeExpired (x.now 0)).1), a.2))
        hsettle
    · cases h
      exact ⟨rfl, hrooms⟩

end Sweep

end Occupancy
