import Occupancy.Proofs.Fanout.Accepted
import Occupancy.Proofs.ListSet

/-!
# What a viewer sees comes in order, but for the first view

A connection writes two kinds of views: the first one, which it reads from the store, and those that it is
handed from the queue of its topic. The payloads handed on are in order, since errands are timely and queues
keep the order. The first view is read beside all that: a payload that was on its way by then arrives after
it although it is older, for instance one that nobody has read since the topic last had viewers.

Main statement: `inOrder_iff`. The views written to a client are in order exactly if no forwarded payload is
older than the first view, and so they are if nothing was on its way when the clock was read for it.
-/

namespace Occupancy

namespace Venue

variable {w w' : Venue} {t : Topic} {lower : Instant} {p : String} {o : Chance}

/-! ## The places of a connection -/

/-- Where a connection is in its life. -/
inductive Place where
  | fresh
  /-- It is registered, and sees to a consumer. -/
  | entered (v : ViewerId)
  /-- It reads the clock for the first view. -/
  | asking (v : ViewerId) (room : RoomId)
  | timed (v : ViewerId) (room : RoomId) (now : Instant)
  /-- It writes the first view. -/
  | hailing (v : ViewerId) (p : String)
  | resting (v : ViewerId)
  | listening (v : ViewerId)
  /-- It writes a payload that it has taken from the queue. -/
  | writing (v : ViewerId) (p : String)
  | parting (v : ViewerId)
  | leaving (v : ViewerId)
  | gone (v : ViewerId)

namespace Place

/-- What a connection has left to do. -/
def rest (t : Topic) : Place → Socket.Stretch
  | fresh => Socket.start t
  | entered v => .ask (.ensure t) fun _ => (Socket.sendFirst t).bind fun _ => .done (.again v)
  | asking v room => .ask (.store .now) fun now => .ask (.store (.view room now)) fun
    | .ok view => .ask (.writeFirst view.payload) fun _ => .done (.again v)
    | .error _ => .done (.again v)
  | timed v room now => .ask (.store (.view room now)) fun
    | .ok view => .ask (.writeFirst view.payload) fun _ => .done (.again v)
    | .error _ => .done (.again v)
  | hailing v p => .ask (.writeFirst p) fun _ => .done (.again v)
  | resting v => .done (.again v)
  | listening v => Socket.round t v
  | writing v p => .ask (.write p) fun
    | true => .done (.again v)
    | false => Socket.finish t v
  | parting v => .ask .writeClose fun _ => Socket.finish t v
  | leaving v => Socket.finish t v
  | gone _ => .done .ended

/-- There is a first view for rooms only. -/
theorem rest_entered (t : Topic) (v : ViewerId) :
    ((Socket.sendFirst t).bind fun _ => .done (.again v)) = (resting v).rest t ∨
      ∃ room, ((Socket.sendFirst t).bind fun _ => .done (.again v)) = (asking v room).rest t := by
  cases t with
  | room room =>
    refine .inr ⟨room, congrArg (Program.ask _) (funext fun now => congrArg (Program.ask _) ?_)⟩
    funext r
    cases r <;> rfl
  | branch | allRooms | deviceOwner => exact .inl rfl

def viewer : Place → Option ViewerId
  | fresh => none
  | entered v | asking v _ | timed v _ _ | hailing v _ | resting v | listening v | writing v _
  | parting v | leaving v | gone v => some v

/-- The payload that was taken and is not written yet. -/
def inHand : Place → List String
  | writing _ p => [p]
  | _ => []

/-- Has the clock not been read yet for the first view? -/
def isUnasked : Place → Bool
  | fresh | entered _ | asking _ _ => true
  | _ => false

/-- Has nothing been written yet? -/
def isEarly : Place → Bool
  | fresh | entered _ | asking _ _ | timed _ _ _ | hailing _ _ => true
  | _ => false

/-- The first view bears the date at which the clock was read for it. -/
def Knows (asked : Option Instant) : Place → Prop
  | timed _ _ now => asked = some now
  | hailing _ p => ∃ i, asked = some i ∧ Shows p i
  | _ => True

end Place

/-- A connection is at a place, with everything noted that it did before. -/
structure Attends (w : Venue) (c : Client) (place : Place) : Prop where
  rest : c.rest = place.rest c.topic
  viewer : c.viewer = place.viewer
  seat : ∀ v ∈ place.viewer, (w.feed.registry.viewers.get? v).isSome ∧ ∃ seat,
    w.feed.seats.get? v = some seat ∧ seat.topic = c.topic ∧
      (c.forwarded ++ place.inHand).Sublist seat.taken
  unasked : place.isUnasked = true → c.calm = false
  early : place.isEarly = true → c.forwarded = [] ∧ c.greeting = none
  knows : place.Knows c.asked
  greeted : ∀ p ∈ c.greeting, ∃ i, c.asked = some i ∧ Shows p i
  calm : c.calm = true → ∀ i ∈ c.asked, w.Runs c.topic i ∧
    (∀ p ∈ c.forwarded ++ place.inHand, Since i p) ∧
    ∀ v ∈ place.viewer, ∀ p, w.feed.Coming c.topic v p → Since i p

/-- What is kept for the clients: the feed is faithful, what topics accept is in order, and every connection
is at some place. -/
structure Sound (w : Venue) : Prop where
  faithful : w.feed.Faithful
  runs : ∀ t, ∃ lower, w.Runs t lower
  clients : ∀ c ∈ w.clients, ∃ place, w.Attends c place

/-! ## The others -/

/-- A turn of somebody else leaves a connection at its place. -/
theorem Attends.of_moves {c : Client} {place : Place} {P : Topic → String → Prop}
    (h : w.Attends c place) (moves : w.feed.Moves w'.feed P)
    (runs : ∀ t i, w.Runs t i → w'.Runs t i) (since : ∀ t i p, w.Runs t i → P t p → Since i p) :
    w'.Attends c place where
  rest := h.rest
  viewer := h.viewer
  seat v hv := by
    -- the seat stays, and has taken no less
    obtain ⟨hpresent, seat, hseat, htopic, htaken⟩ := h.seat v hv
    obtain ⟨seat', hseat', htopic', htaken'⟩ := moves.seat v seat hseat
    exact ⟨moves.present v hpresent, seat', hseat', htopic'.trans htopic, htaken.trans htaken'⟩
  unasked := h.unasked
  early := h.early
  knows := h.knows
  greeted := h.greeted
  calm hcalm i hi := by
    obtain ⟨hruns, hforwarded, hcoming⟩ := h.calm hcalm i hi
    refine ⟨runs _ i hruns, hforwarded, fun v hv p hp => ?_⟩
    -- what comes the viewer's way now was on its way before, or was published just now
    obtain ⟨-, seat, hseat, htopic, -⟩ := h.seat v hv
    rw [← htopic] at hp
    rcases moves.coming v seat hseat p hp with hp | hp
    · exact hcoming v hv p (htopic ▸ hp)
    · exact since _ i p hruns (htopic ▸ hp)

/-- Everything is kept by a turn that is none of a connection. -/
theorem Sound.of_moves {P : Topic → String → Prop} (h : w.Sound) (moves : w.feed.Moves w'.feed P)
    (runs : ∀ t i, w.Runs t i → w'.Runs t i) (since : ∀ t i p, w.Runs t i → P t p → Since i p)
    (clients : w'.clients = w.clients) : w'.Sound where
  faithful := moves.faithful
  runs t := (h.runs t).imp fun i => runs t i
  clients c hc := (h.clients c (clients ▸ hc)).imp fun _ hplace => hplace.of_moves moves runs since

/-! ## The connection itself -/

/-- What a connection does in its turn to what is shared: nothing is published. -/
structure Passes (w w' : Venue) : Prop where
  moves : w.feed.Moves w'.feed fun _ _ => False
  log : w'.feed.log = w.feed.log
  pending : w'.pending = w.pending
  errand : w'.errand = w.errand
  clock : w'.clock = w.clock
  clients : w'.clients = w.clients

namespace Passes

theorem refl (h : w.feed.Faithful) : w.Passes w :=
  ⟨.refl h, rfl, rfl, rfl, rfl, rfl⟩

theorem onFeed (h : w.Passes w') {turn : Feed.Turn} (silent : ∀ t p, turn ≠ .publish t p) :
    w.Passes (w'.onFeed turn) where
  moves := h.moves.trans ((Feed.moves_step h.moves.faithful turn).mono silent)
  log := (log_onFeed silent).trans h.log
  pending := h.pending
  errand := h.errand
  clock := h.clock
  clients := h.clients

theorem runs (h : w.Passes w') (t : Topic) (i : Instant) (hruns : w.Runs t i) : w'.Runs t i :=
  hruns.congr (congrFun h.log t) h.pending h.errand (h.clock ▸ Instant.le_refl _)

theorem attends (h : w.Passes w') {c : Client} {place : Place} (hplace : w.Attends c place) :
    w'.Attends c place :=
  hplace.of_moves h.moves h.runs fun _ _ _ _ => False.elim

end Passes

theorem passes_attend (h : w.feed.Faithful) {call : SocketCall} {r : call.Reply}
    (answered : w.attend o call = some (r, w')) : w.Passes w' := by
  have hrefl := Passes.refl h
  -- only registering, taking and leaving are turns of the feed
  cases call with
  | register t =>
    cases answered
    exact hrefl.onFeed fun _ _ h => by cases h
  | store c =>
    cases answered
    exact ⟨.refl h, rfl, rfl, rfl, rfl, rfl⟩
  | await v =>
    simp only [attend] at answered
    split at answered
    · cases answered
      exact hrefl
    · split at answered
      · cases answered
        exact hrefl.onFeed fun _ _ h => by cases h
      · cases answered
        exact hrefl
      · cases answered
  | remove t v =>
    have hleft : w.Passes (w.onFeed (.leave t v)) := hrefl.onFeed fun _ _ h => by cases h
    have hpruned : w.Passes ((w.onFeed (.leave t v)).onFeed (.prune t)) := hleft.onFeed fun _ _ h => by cases h
    cases answered
    split
    · exact hpruned.onFeed fun _ _ h => by cases h
    · exact hpruned
  | ensure | writeFirst | write | writeClose =>
    cases answered
    exact hrefl

/-- The connection goes to another place without more being written or taken. -/
theorem Attends.follow {c : Client} {place place' : Place} (h : w.Attends c place)
    (viewer : place'.viewer = place.viewer) (inHand : place'.inHand = [])
    (unasked : place'.isUnasked = true → place.isUnasked = true)
    (early : place'.isEarly = true → place.isEarly = true) (knows : place'.Knows c.asked) :
    w.Attends { c with rest := place'.rest c.topic } place' where
  rest := rfl
  viewer := h.viewer.trans viewer.symm
  seat v hv := by
    -- nothing is in hand any more, so less has to be accounted for
    obtain ⟨hpresent, seat, hseat, htopic, htaken⟩ := h.seat v (viewer ▸ hv)
    refine ⟨hpresent, seat, hseat, htopic, ?_⟩
    rw [inHand, List.append_nil]
    exact (List.sublist_append_left _ _).trans htaken
  unasked hplace := h.unasked (unasked hplace)
  early hplace := h.early (early hplace)
  knows := knows
  greeted := h.greeted
  calm hcalm i hi := by
    obtain ⟨hruns, hforwarded, hcoming⟩ := h.calm hcalm i hi
    refine ⟨hruns, fun p hp => ?_, fun v hv => hcoming v (viewer ▸ hv)⟩
    rw [inHand, List.append_nil] at hp
    exact hforwarded p (List.mem_append_left _ hp)

/-- The connection goes to a place behind its first view. -/
theorem Attends.later {c : Client} {place place' : Place} (h : w.Attends c place)
    (viewer : place'.viewer = place.viewer) (inHand : place'.inHand = [])
    (asked : place'.isUnasked = false) (late : place'.isEarly = false) (knows : place'.Knows c.asked) :
    w.Attends { c with rest := place'.rest c.topic } place' := by
  refine h.follow viewer inHand (fun unasked => ?_) (fun early => ?_) knows
  · rw [asked] at unasked
    cases unasked
  · rw [late] at early
    cases early

/-- Everything is kept if a connection comes to a place in its turn. -/
theorem Sound.advance (h : w.Sound) (passes : w.Passes w') {c : Client} {place : Place} (i : Nat)
    (hplace : w'.Attends c place) : Sound { w' with clients := w'.clients.set i c } where
  faithful := passes.moves.faithful
  runs t := (h.runs t).imp fun lower hruns =>
    (passes.runs t lower hruns).congr rfl rfl rfl (Instant.le_refl _)
  clients c' hc' := by
    have hset : ∀ {c'' place}, w'.Attends c'' place →
        Attends { w' with clients := w'.clients.set i c } c'' place := fun hplace =>
      hplace.of_moves (.refl passes.moves.faithful) (fun _ _ hruns =>
        hruns.congr rfl rfl rfl (Instant.le_refl _)) fun _ _ _ _ => False.elim
    -- the other connections stay at their places
    rcases List.mem_or_eq_of_mem_set hc' with hc' | rfl
    · obtain ⟨place', hplace'⟩ := h.clients c' (passes.clients ▸ hc')
      exact ⟨place', hset (passes.attends hplace')⟩
    · exact ⟨place, hset hplace⟩

section OwnTurn

variable {c : Client} {v : ViewerId}

/-- The viewer that is registered is new, so that nothing is on its way to it and it has taken nothing. -/
theorem attends_register (hplace : w.Attends c .fresh) (buffer : Nat) :
    (w.onFeed (.join c.topic buffer)).Attends
      { c with
        viewer := some w.feed.registry.nextViewer
        rest := (Place.entered w.feed.registry.nextViewer).rest c.topic }
      (.entered w.feed.registry.nextViewer) where
  rest := rfl
  viewer := rfl
  seat v hv := by
    cases hv
    refine ⟨?_, ⟨c.topic, (w.feed.log c.topic).length, []⟩, ?_, rfl, ?_⟩
    · change ((w.feed.registry.viewers.set w.feed.registry.nextViewer _).get? _).isSome
      rw [Table.get?_set, if_pos rfl]
      rfl
    · exact (Table.get?_set ..).trans (if_pos rfl)
    · rw [(hplace.early rfl).1]
      exact .refl _
  unasked _ := hplace.unasked rfl
  early _ := hplace.early rfl
  knows := trivial
  greeted := hplace.greeted
  calm hcalm := by
    -- the clock was not read yet
    rw [hplace.unasked rfl] at hcalm
    cases hcalm

/-- If nothing is on its way as the clock is read for the first view, nothing older than that will come. -/
theorem attends_ask (h : w.Sound) {room : RoomId} (hplace : w.Attends c (.asking v room)) :
    w.Attends
      { c with
        asked := some w.clock
        calm := w.isCalm c.topic c.viewer
        rest := (Place.timed v room w.clock).rest c.topic }
      (.timed v room w.clock) where
  rest := rfl
  viewer := hplace.viewer
  seat := hplace.seat
  unasked h := by cases h
  early _ := hplace.early rfl
  knows := rfl
  greeted p hp := by
    rw [(hplace.early rfl).2] at hp
    cases hp
  calm hcalm i hi := by
    cases hi
    have hviewer : c.viewer = some v := hplace.viewer
    simp only [isCalm, hviewer, Bool.and_eq_true, decide_eq_true_eq, Option.isNone_iff_eq_none] at hcalm
    obtain ⟨⟨⟨hidle, hnone⟩, hdepth⟩, hinbox⟩ := hcalm
    obtain ⟨lower, hruns⟩ := h.runs c.topic
    -- nothing was forwarded yet, and both queues are empty
    refine ⟨hruns.calm hidle hnone, fun p hp => ?_, fun v' hv' p hp => ?_⟩
    · rw [(hplace.early rfl).1] at hp
      cases hp
    · cases hv'
      rcases hp with ⟨viewer, hfound, hp⟩ | ⟨hne, -⟩
      · rw [Option.bind_some, hfound, Option.all_some, List.isEmpty_iff] at hinbox
        rw [hinbox] at hp
        cases hp
      · exact absurd hdepth hne

/-- The first view is written, or it is not. -/
theorem attends_hail {p : String} (hplace : w.Attends c (.hailing v p)) (written : Bool) :
    w.Attends { c with
      greeting := if written then some p else c.greeting
      rest := (Place.resting v).rest c.topic } (.resting v) where
  rest := rfl
  viewer := hplace.viewer
  seat := hplace.seat
  unasked h := by cases h
  early h := by cases h
  knows := trivial
  -- only a frame that was written counts as the greeting
  greeted q hq := by
    cases written with
    | true =>
      cases hq
      exact hplace.knows
    | false => exact hplace.greeted q hq
  calm := hplace.calm

/-- A payload is taken from the viewer's queue. -/
theorem attends_take (h : w.feed.Faithful) {p : String} (hplace : w.Attends c (.listening v))
    (hnext : (w.feed.registry.next v).1 = .payload p) :
    (w.onFeed (.take v)).Attends { c with rest := (Place.writing v p).rest c.topic } (.writing v p) := by
  -- the viewer takes nothing itself, so whoever else is at a place stays there
  have passes : w.Passes (w.onFeed (.take v)) := (Passes.refl h).onFeed fun _ _ h => by cases h
  have hold := passes.attends hplace
  obtain ⟨-, seat, hseat, htopic, htaken⟩ := hplace.seat v rfl
  rcases w.feed.registry.next_cases v with ⟨viewer, q, rest, hviewer, hwaiting, hq⟩ | ⟨hnone, -, -⟩
  · rw [hq] at hnext
    cases hnext
    have hcoming : w.feed.Coming c.topic v p :=
      .inl ⟨viewer, hviewer, hwaiting ▸ List.mem_cons_self⟩
    refine ⟨rfl, hold.viewer, ?_, by rintro ⟨⟩, by rintro ⟨⟩, trivial, hold.greeted, ?_⟩
    · rintro v' ⟨⟩
      refine ⟨(hold.seat v rfl).1, { seat with taken := seat.taken ++ [p] }, ?_, htopic, ?_⟩
      · change Table.get? (Feed.step w.feed (.take v)).seats v = _
        simp only [Feed.step, hq, Table.get?_modify, hseat, if_true, Option.map_some]
      · simpa [Place.inHand] using htaken
    -- the payload was coming, so it is no older than the instant of a calm question
    · intro hcalm i hi
      obtain ⟨hruns, hforwarded, hcomes⟩ := hold.calm hcalm i hi
      refine ⟨hruns, fun p' hp' => ?_, hcomes⟩
      rcases List.mem_append.mp hp' with hp' | hp'
      · exact hforwarded p' (List.mem_append_left _ hp')
      · rw [List.mem_singleton.mp hp']
        -- the payload in hand was coming this way
        exact (hplace.calm hcalm i hi).2.2 v rfl p hcoming
  · exact absurd hnext (hnone p)

/-- The payload in hand is written. -/
theorem attends_write {p : String} (hplace : w.Attends c (.writing v p)) :
    w.Attends { c with
      forwarded := c.forwarded ++ [p]
      rest := (Place.resting v).rest c.topic } (.resting v) where
  rest := rfl
  viewer := hplace.viewer
  seat v' hv' := by
    obtain ⟨hpresent, seat, hseat, htopic, htaken⟩ := hplace.seat v' hv'
    exact ⟨hpresent, seat, hseat, htopic, (List.append_nil _).symm ▸ htaken⟩
  unasked h := by cases h
  early h := by cases h
  knows := trivial
  greeted := hplace.greeted
  -- what was in hand is forwarded now
  calm hcalm i hi := by
    obtain ⟨hruns, hforwarded, hcoming⟩ := hplace.calm hcalm i hi
    refine ⟨hruns, fun p' hp' => hforwarded p' ?_, hcoming⟩
    exact (List.append_nil (c.forwarded ++ [p])) ▸ hp'

end OwnTurn

/-- The turn of a connection. -/
theorem sound_clientTurn (h : w.Sound) (i : Nat) (o : Chance) : (w.clientTurn i o).Sound := by
  have hrefl := Passes.refl h.faithful
  unfold clientTurn
  split
  · exact h
  · rename_i c hc
    obtain ⟨place, hplace⟩ := h.clients c (List.mem_of_getElem? hc)
    have hrest := hplace.rest
    -- one case for each place the connection can be at
    cases place with
    | fresh =>
      have hnext := attends_register hplace o.buffer
      have hjoined : w.Passes (w.onFeed (.join c.topic o.buffer)) := hrefl.onFeed fun _ _ h => by cases h
      rw [hrest]
      exact h.advance hjoined i hnext
    | entered v =>
      rw [hrest]
      change Sound { w with clients := w.clients.set i { c with
        -- the overview gets no view first, a room does
        rest := (Socket.sendFirst c.topic).bind fun _ => .done (.again v) } }
      rcases Place.rest_entered c.topic v with hfirst | ⟨room, hfirst⟩
      · have hnext : w.Attends _ (.resting v) := hplace.later rfl rfl rfl rfl trivial
        rw [hfirst]
        exact h.advance hrefl i hnext
      · have hnext : w.Attends _ (.asking v room) :=
          hplace.follow rfl rfl (fun _ => rfl) (fun _ => rfl) trivial
        rw [hfirst]
        exact h.advance hrefl i hnext
    | asking v room =>
      have hnext := attends_ask h hplace
      rw [hrest]
      exact h.advance hrefl i hnext
    | timed v room now =>
      -- reading a view changes nothing, and the view bears the date it was asked for
      have hread : w.Passes { w with store := (w.store.answer w.clock o.id (.view room now)).2 } :=
        ⟨hrefl.moves, rfl, rfl, rfl, rfl, rfl⟩
      rw [hrest]
      simp only [Place.rest, attend, Client.note]
      cases hview : w.store.view room now with
      | ok view =>
        have hdate := Store.generatedAt_of_view hview
        have hnext : w.Attends _ (.hailing v view.payload) :=
          hplace.follow rfl rfl (by rintro ⟨⟩) (fun _ => rfl) ⟨now, hplace.knows, shows_payload hdate⟩
        simp only [Store.answer, hview]
        exact h.advance hread i (hread.attends hnext)
      | error e =>
        have hnext : w.Attends _ (.resting v) := hplace.later rfl rfl rfl rfl trivial
        simp only [Store.answer, hview]
        exact h.advance hread i (hread.attends hnext)
    | hailing v p =>
      have hnext := attends_hail hplace o.written
      rw [hrest]
      -- the view is the greeting if it was written
      simp only [Place.rest, attend, Client.note]
      cases hwritten : o.written with
      | true =>
        rw [hwritten] at hnext
        exact h.advance hrefl i hnext
      | false =>
        rw [hwritten] at hnext
        exact h.advance hrefl i hnext
    | resting v =>
      have hnext : w.Attends _ (.listening v) := hplace.later rfl rfl rfl rfl trivial
      rw [hrest]
      exact h.advance hrefl i hnext
    | listening v =>
      rw [hrest]
      simp only [Place.rest, Socket.round, attend, Client.note]
      -- something happened before a payload came, or a payload or the end did
      cases o.stir with
      | some e =>
        cases e with
        | inbound =>
          have hnext : w.Attends _ (.resting v) := hplace.later rfl rfl rfl rfl trivial
          exact h.advance hrefl i hnext
        | left =>
          have hnext : w.Attends _ (.leaving v) := hplace.later rfl rfl rfl rfl trivial
          exact h.advance hrefl i hnext
        | shutdown =>
          have hnext : w.Attends _ (.parting v) := hplace.later rfl rfl rfl rfl trivial
          exact h.advance hrefl i hnext
      | none =>
        cases hfound : (w.feed.registry.next v).1 with
        | payload p =>
          have htaken : w.Passes (w.onFeed (.take v)) := hrefl.onFeed fun _ _ h => by cases h
          exact h.advance htaken i (attends_take h.faithful hplace hfound)
        | closed =>
          have hnext : w.Attends _ (.leaving v) := hplace.later rfl rfl rfl rfl trivial
          exact h.advance hrefl i hnext
        | empty => exact h
    | writing v p =>
      rw [hrest]
      simp only [Place.rest, attend, Client.note]
      cases o.written with
      | true =>
        -- the payload is forwarded if it was written
        have hnext := attends_write hplace
        exact h.advance hrefl i hnext
      | false =>
        have hnext : w.Attends _ (.leaving v) := hplace.later rfl rfl rfl rfl trivial
        exact h.advance hrefl i hnext
    | parting v =>
      have hnext : w.Attends _ (.leaving v) := hplace.later rfl rfl rfl rfl trivial
      rw [hrest]
      exact h.advance hrefl i hnext
    | leaving v =>
      have hnext : w.Attends _ (.gone v) := hplace.later rfl rfl rfl rfl trivial
      rw [hrest]
      obtain ⟨w', hattend⟩ : ∃ w', w.attend o (.remove c.topic v) = some ((), w') := ⟨_, rfl⟩
      have hleft := passes_attend h.faithful hattend
      simp only [Place.rest, Socket.finish, hattend, Client.note, ← hleft.clients]
      exact h.advance hleft i (hleft.attends hnext)
    | gone v =>
      rw [hrest]
      exact h

/-! ## Every turn -/

/-- At the start nothing was sent and nobody is there. -/
theorem sound_start (seed : Seed) (clock : Instant) : (start seed clock).Sound where
  faithful := Feed.faithful_run []
  runs t := by
    have empty : (start seed clock).Matches t ⟨clock, none, clock⟩ :=
      ⟨.nil, fun _ hp => absurd hp List.not_mem_nil, .none, Instant.le_refl _⟩
    have fits : Ledger.Fits ⟨clock, none, clock⟩ :=
      ⟨Instant.le_refl _, fun _ hk => absurd hk (Option.not_mem_none _)⟩
    exact ⟨clock, _, empty, fits, Instant.le_refl _⟩
  clients _ hc := absurd hc List.not_mem_nil

/-- Every turn leaves the venue sound. -/
theorem sound_step (h : w.Sound) (turn : Turn) : (w.step turn).Sound := by
  cases turn with
  | begin e =>
    simp only [step]
    split
    · rename_i hidle
      -- a new errand starts a new ledger
      exact h.of_moves (.refl h.faithful) (fun _ _ hruns => hruns.begin hidle e)
        (fun _ _ _ _ => False.elim) rfl
    · exact h
  | work o =>
    exact h.of_moves (moves_work h.faithful o) (fun _ _ hruns => hruns.work o)
      (fun _ _ _ hruns => hruns.since) (clients_work w o)
  | tick now =>
    simp only [step]
    split
    · rename_i hle
      exact h.of_moves (.refl h.faithful) (fun _ _ hruns => hruns.congr rfl rfl rfl hle)
        (fun _ _ _ _ => False.elim) rfl
    · exact h
  | broker turn own =>
    -- the broker's own turns publish nothing
    have silent : ∀ t p, turn ≠ .publish t p := by
      rintro t p rfl
      cases own
    have passes := (Passes.refl h.faithful).onFeed silent
    exact h.of_moves passes.moves passes.runs (fun _ _ _ _ => False.elim) rfl
  | arrive t =>
    refine ⟨h.faithful, fun t => (h.runs t).imp fun _ hruns => hruns.congr rfl rfl rfl (Instant.le_refl _),
      fun c hc => ?_⟩
    have hkeep : ∀ {c place}, w.Attends c place →
        Attends { w with clients := w.clients ++ [.new t] } c place := fun hplace =>
      hplace.of_moves (.refl h.faithful) (fun _ _ hruns =>
        hruns.congr rfl rfl rfl (Instant.le_refl _)) fun _ _ _ _ => False.elim
    rcases List.mem_append.mp hc with hc | hc
    · exact (h.clients c hc).imp fun _ => hkeep
    -- a new client is at its first place, and nothing is known of it
    · rw [List.mem_singleton.mp hc]
      exact ⟨.fresh, rfl, rfl, by rintro _ ⟨⟩, fun _ => rfl, fun _ => ⟨rfl, rfl⟩, trivial,
        by rintro _ ⟨⟩, by rintro ⟨⟩⟩
  | client i o => exact sound_clientTurn h i o

/-- The venue is sound after any turns. -/
theorem sound_run (seed : Seed) (clock : Instant) (turns : List Turn) : (run seed clock turns).Sound := by
  have hfrom : ∀ w : Venue, w.Sound → (turns.foldl step w).Sound := by
    induction turns with
    | nil => exact fun _ h => h
    | cons turn rest ih => exact fun w h => ih _ (sound_step h turn)
  exact hfrom _ (sound_start seed clock)

def Turn.isWork : Turn → Bool
  | .work _ => true
  | _ => false

/-- Only errands publish. -/
theorem log_step (h : w.Sound) {turn : Turn} (quiet : turn.isWork = false) :
    (w.step turn).feed.log = w.feed.log := by
  cases turn with
  | work o => cases quiet
  | begin | tick =>
    simp only [step]
    split <;> rfl
  | arrive t => rfl
  | broker turn own =>
    refine log_onFeed ?_
    rintro t p rfl
    cases own
  | client i o =>
    simp only [step, clientTurn]
    split
    · rfl
    · split
      · rfl
      · rfl
      · split
        · rfl
        · rename_i hanswer
          exact (passes_attend h.faithful hanswer).log

/-- Without work nothing is accepted. -/
theorem log_foldl (h : w.Sound) {turns : List Turn} (quiet : ∀ turn ∈ turns, turn.isWork = false) :
    (turns.foldl step w).feed.log = w.feed.log := by
  induction turns generalizing w with
  | nil => rfl
  | cons turn rest ih =>
    exact (ih (sound_step h turn) fun turn' hturn' => quiet turn' (List.mem_cons_of_mem _ hturn')).trans
      (log_step h (quiet turn List.mem_cons_self))

/-! ## What a client sees -/

/-- What was forwarded is part of what the topic accepted. -/
theorem Sound.forwarded_sublist (h : w.Sound) {c : Client} {place : Place} (hplace : w.Attends c place) :
    c.forwarded.Sublist (w.feed.log c.topic) := by
  cases hviewer : place.viewer with
  | none =>
    -- a connection without a viewer has forwarded nothing
    have hearly : place.isEarly = true := by
      cases place <;> first | rfl | cases hviewer
    rw [(hplace.early hearly).1]
    exact List.nil_sublist _
  | some v =>
    obtain ⟨hpresent, seat, hseat, htopic, htaken⟩ := hplace.seat v hviewer
    obtain ⟨viewer, hv⟩ := Option.isSome_iff_exists.mp hpresent
    -- what was forwarded was taken, and what was taken was accepted
    have hkept := (h.faithful.kept v seat viewer hseat hv).sub
    rw [htopic] at hkept
    refine (List.sublist_append_left _ _).trans (htaken.trans ((List.sublist_append_left _ _).trans
      (hkept.trans ?_)))
    split
    · exact .refl _
    · exact List.dropLast_sublist _

/-- **A viewer sees a topic in order, but for the first view.** After any turns, the payloads that were
forwarded to a client are in order and part of what its topic accepted. With the first view before them they
are in order exactly if none of them is older than that, and so they are if nothing was on its way to the
viewer when the clock was read for the first view. -/
theorem inOrder_iff (seed : Seed) (clock : Instant) (turns : List Turn) (c : Client)
    (here : c ∈ (run seed clock turns).clients) :
    c.forwarded.Sublist ((run seed clock turns).feed.log c.topic) ∧ InOrder c.forwarded ∧
    (InOrder c.frames ↔ ∀ p ∈ c.greeting, ∀ q ∈ c.forwarded, NoLater p q) ∧
    (c.calm = true → InOrder c.frames) := by
  have sound := sound_run seed clock turns
  obtain ⟨place, hplace⟩ := sound.clients c here
  have hsub := sound.forwarded_sublist hplace
  -- the payloads are in order because what the topic accepted is
  obtain ⟨lower, l, hmatches, -⟩ := sound.runs c.topic
  have hforwarded : InOrder c.forwarded := hmatches.inOrder.sublist hsub
  have hiff : InOrder c.frames ↔ ∀ p ∈ c.greeting, ∀ q ∈ c.forwarded, NoLater p q :=
    hforwarded.append_iff fun p hp => (hplace.greeted p hp).imp fun _ => And.right
  refine ⟨hsub, hforwarded, hiff, fun hcalm => hiff.mpr fun p hp q hq => ?_⟩
  -- if nothing was on its way, whatever came later is younger than the clock was then
  obtain ⟨i, hi, hshows⟩ := hplace.greeted p hp
  obtain ⟨j, hshows', hle⟩ := (hplace.calm hcalm i hi).2.1 q (List.mem_append_left _ hq)
  exact ⟨i, j, hshows, hshows', hle⟩

/-! ### Viewers of room 7 -/

/-- An instant within the first minute. -/
def second (n : Fin 60) : Instant :=
  ⟨n * 1000000000, Instant.second_inRange n⟩

/-- A server with room 7, which is free at first. -/
def inStudio : List Turn → Venue :=
  run { rooms := [⟨7, 1, "studio", .active, none⟩] } (second 0)

/-- The link is up, and a session of one hour is opened in room 7. -/
def hire : List Turn :=
  let request : Http.Request :=
    ⟨"POST", ⟨['/', 'a', 's', 's', 'i', 'g', 'n'], none⟩, some "application/json", "[7,null,3600]"⟩
  .broker .connect rfl :: .begin (.request request ⟨.up, 0, 0⟩) :: List.replicate 12 (.work {})

/-- A viewer of room 7 connects and gets its first view. -/
def greet : List Turn :=
  .arrive (.room 7) :: List.replicate 6 (.client 0 {})

/-- The consumer hands out what the queue of room 7 holds, and the connection forwards it. -/
def forward : List Turn :=
  .broker (.consume (.room 7)) rfl :: List.replicate 2 (.client 0 {})

/-- A client that came early sees its frames in order. -/
theorem inOrder_iff_early :
    ∃ c ∈ (inStudio (greet ++ hire ++ .tick (second 59) :: forward)).clients,
      c.frames.length = 2 ∧ InOrder c.frames := by
  have hclient : (inStudio (greet ++ hire ++ .tick (second 59) :: forward)).clients.map
      (fun c => (c.frames.length, c.calm)) = [(2, true)] := by
    decide +kernel
  obtain ⟨c, hclients, hc⟩ := List.map_eq_singleton_iff.mp hclient
  have here := hclients ▸ List.mem_singleton_self c
  obtain ⟨hlength, hcalm⟩ := Prod.mk.inj hc
  exact ⟨c, here, hlength, (inOrder_iff _ _ _ c here).2.2.2 hcalm⟩

/-- A viewer that comes late gets the present view, and then an older one that was waiting in the queue. -/
theorem not_always_inOrder :
    ¬ ∀ (seed : Seed) (clock : Instant) (turns : List Turn), ∀ c ∈ (run seed clock turns).clients,
      ∀ room, c.topic = .room room → InOrder c.frames := by
  intro h
  let late : List Turn := .tick (second 59) :: greet ++ forward
  -- one client, greeted late and forwarded one payload
  have hclient : (inStudio (hire ++ late)).clients.map
      (fun c => (c.topic, c.asked, c.greeting.isSome, c.forwarded.length)) =
        [(.room 7, some (second 59), true, 1)] := by
    decide +kernel
  obtain ⟨c, hclients, hc⟩ := List.map_eq_singleton_iff.mp hclient
  simp only [Prod.mk.injEq, Option.isSome_iff_exists, List.length_eq_one_iff] at hc
  obtain ⟨htopic, hasked, ⟨p, hp⟩, q, hq⟩ := hc
  have here := hclients ▸ List.mem_singleton_self c
  have sound : (inStudio (hire ++ late)).Sound := sound_run _ _ _
  obtain ⟨place, hplace⟩ := sound.clients c here
  -- the first view bears the date at which it was read
  obtain ⟨i, hi, hshows⟩ := hplace.greeted p hp
  -- the other one was accepted before the clock went on
  have hmem : q ∈ (inStudio (hire ++ late)).feed.log (.room 7) :=
    htopic ▸ (sound.forwarded_sublist hplace).subset (hq ▸ List.mem_singleton_self q)
  have before : (inStudio hire).Sound := sound_run _ _ _
  have hlog : (inStudio (hire ++ late)).feed.log = (inStudio hire).feed.log := by
    simp only [inStudio, run, List.foldl_append]
    exact log_foldl before (by decide)
  rw [hlog] at hmem
  obtain ⟨lower, hruns⟩ := before.runs (.room 7)
  have hidle : (inStudio hire).isIdle = true := by decide +kernel
  obtain ⟨j, hshows', hj⟩ := hruns.until_clock hidle q hmem
  have hsorted := (h _ _ _ c here 7 htopic).sorted
  rw [Client.frames, hp, hq] at hsorted
  have hle := (noLater_iff hshows hshows').mp
    (List.rel_of_pairwise_cons hsorted (List.mem_singleton_self q))
  cases hasked.symm.trans hi
  exact absurd (Instant.le_trans hle hj) (by decide +kernel)

end Venue

end Occupancy
