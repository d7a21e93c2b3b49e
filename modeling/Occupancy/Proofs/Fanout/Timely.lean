import Mathlib.Data.Option.Basic
import Mathlib.Data.Option.Defs
import Occupancy.Proofs.Fanout.Venue
import Occupancy.Proofs.Program

/-!
# What errands publish is never older than what was published

The dates of what a topic accepted and holds back are kept in a ledger. `Timely` is a weakest precondition:
a program that starts on a ledger sends and holds back only payloads that are not older than the last one
sent, whatever it is answered, and ends as wanted. Main statement: `timely_program`. Every errand is timely,
since it reads the clock before the view and publishes the view before anything else begins.
-/

namespace Occupancy

/-- Dates of a topic, as far as they are known. -/
structure Ledger where
  /-- No payload that was sent is younger. -/
  last : Instant
  /-- The date of the payload that is held back. -/
  kept : Option Instant
  /-- The latest reading of the clock. -/
  read : Instant

namespace Ledger

/-- Is the payload held back not older than what was sent, and nothing younger than the clock? -/
structure Fits (l : Ledger) : Prop where
  last_le : l.last ≤ l.read
  kept_le : ∀ k ∈ l.kept, l.last ≤ k ∧ k ≤ l.read

/-- May a payload be sent or held back after what was sent? -/
def Takes (l : Ledger) (payload : String) (i : Instant) : Prop :=
  Shows payload i ∧ l.last ≤ i ∧ i ≤ l.read

/-- A call is in order, and whatever is answered, what follows holds of the reply and the new ledger. -/
def Admits (t : Topic) (l : Ledger) : (c : SweepCall) → (c.Reply → Ledger → Prop) → Prop
  | .store .now, k => ∀ now : Instant, l.read ≤ now → k now { l with read := now }
  | .store (.view _ now), k => ∀ r : Except ViewError RoomView,
      (∀ v, r = .ok v → v.generatedAt = (now : Timestamp)) → k r l
  | .store (.views _ now), k => ∀ r : Except ViewError (List RoomView),
      (∀ vs, r = .ok vs → ∀ v ∈ vs, v.generatedAt = (now : Timestamp)) → k r l
  | .store _, k => ∀ r, k r l
  | .publish (.send t' p), k =>
    (t' = t → ∃ i, l.Takes p i ∧ ∀ r, k r { l with last := i }) ∧ (t' ≠ t → ∀ r, k r l)
  | .publish (.hold t' h), k =>
    (t' = t → ∃ i, l.Takes h.payload i ∧ k () { l with kept := some i }) ∧ (t' ≠ t → k () l)
  | .publish (.settle t'), k => (t' = t → k () { l with kept := none }) ∧ (t' ≠ t → k () l)
  | .publish (.settleSame _ _), k => k () l ∧ k () { l with kept := none }
  | .publish (.held t'), k => ∀ r : Option Held,
      (t' = t → Option.Rel (fun h i => Shows h.payload i) r l.kept) → k r l
  | .publish _, k => ∀ r, k r l

/-- A call may be followed by more than is asked for. -/
theorem Admits.mono {t : Topic} {l : Ledger} {c : SweepCall} {k k' : c.Reply → Ledger → Prop}
    (h : l.Admits t c k) (himp : ∀ r l', k r l' → k' r l') : l.Admits t c k' := by
  cases c with
  | store c =>
    cases c with
    | now => exact fun now hnow => himp _ _ (h now hnow)
    | view | views => exact fun r hr => himp _ _ (h r hr)
    | assign | apply | finalizeExpired | setActive => exact fun r => himp _ _ (h r)
  | publish c =>
    cases c with
    | send t' p =>
      refine ⟨fun ht => ?_, fun ht r => himp _ _ (h.2 ht r)⟩
      obtain ⟨i, hi, hk⟩ := h.1 ht
      exact ⟨i, hi, fun r => himp _ _ (hk r)⟩
    | hold t' x =>
      refine ⟨fun ht => ?_, fun ht => himp _ _ (h.2 ht)⟩
      obtain ⟨i, hi, hk⟩ := h.1 ht
      exact ⟨i, hi, himp _ _ hk⟩
    | settle t' => exact ⟨fun ht => himp _ _ (h.1 ht), fun ht => himp _ _ (h.2 ht)⟩
    | settleSame t' stamp => exact ⟨himp _ _ h.1, himp _ _ h.2⟩
    | held t' => exact fun r hr => himp _ _ (h r hr)
    | stamp | linkUp | report | heldTopics => exact fun r => himp _ _ (h r)

end Ledger

/-- A program makes calls that are in order for a topic, and ends with a result and a ledger as wanted. -/
def Timely {α : Type} (t : Topic) (post : α → Ledger → Prop) : Sweep.Pass α → Ledger → Prop
  | .done a, l => post a l
  | .ask c next, l => l.Admits t c fun r l' => Timely t post (next r) l'

namespace Timely

variable {α β : Type} {t : Topic} {l : Ledger} {post post' : α → Ledger → Prop}

theorem mono {p : Sweep.Pass α} (h : Timely t post p l) (himp : ∀ a l', post a l' → post' a l') :
    Timely t post' p l := by
  induction p generalizing l with
  | done a => exact himp a l h
  | ask c next ih => exact Ledger.Admits.mono h fun r l' hr => ih r hr

/-- One program after another. -/
theorem bind {p : Sweep.Pass α} {f : α → Sweep.Pass β} {post : β → Ledger → Prop}
    (h : Timely t (fun a l' => Timely t post (f a) l') p l) : Timely t post (p.bind f) l := by
  -- what is wanted of the first program is that the second is timely from there on
  induction p generalizing l with
  | done a => exact h
  | ask c next ih => exact Ledger.Admits.mono h fun r l' hr => ih r hr

end Timely

/-! ## Reading views -/

/-- A ledger after the clock was read, maybe, and nothing was sent or held back. -/
structure Ledger.Later (l l' : Ledger) : Prop where
  last : l'.last = l.last
  kept : l'.kept = l.kept
  read : l.read ≤ l'.read

namespace Ledger.Later

variable {l l' l'' : Ledger}

theorem refl (l : Ledger) : l.Later l :=
  ⟨rfl, rfl, Instant.le_refl _⟩

theorem trans (h : l.Later l') (h' : l'.Later l'') : l.Later l'' :=
  ⟨h'.last.trans h.last, h'.kept.trans h.kept, Instant.le_trans h.read h'.read⟩

/-- A later ledger fits if the earlier one did. -/
theorem fits (h : l.Later l') (fits : l.Fits) : l'.Fits := by
  refine ⟨?_, fun k hk => ?_⟩
  · rw [h.last]
    exact Instant.le_trans fits.last_le h.read
  · rw [h.kept] at hk
    obtain ⟨hlower, hupper⟩ := fits.kept_le k hk
    rw [h.last]
    exact ⟨hlower, Instant.le_trans hupper h.read⟩

end Ledger.Later

/-- Views in the order of their dates, which lie between two instants. -/
def Rising (lower upper : Instant) : List RoomView → Prop
  | [] => lower ≤ upper
  | v :: rest => ∃ i : Instant, v.generatedAt = (i : Timestamp) ∧ lower ≤ i ∧ Rising i upper rest

/-- A rise has room for nothing between its bounds. -/
theorem Rising.le {lower upper : Instant} {vs : List RoomView} (h : Rising lower upper vs) :
    lower ≤ upper := by
  induction vs generalizing lower with
  | nil => exact h
  | cons v rest ih =>
    obtain ⟨i, -, hle, hrest⟩ := h
    exact Instant.le_trans hle (ih hrest)

theorem Rising.weaken {lower lower' upper : Instant} {vs : List RoomView} (h : Rising lower upper vs)
    (hle : lower' ≤ lower) : Rising lower' upper vs := by
  cases vs with
  | nil => exact Instant.le_trans hle h
  | cons v rest =>
    obtain ⟨i, hi, hlower, hrest⟩ := h
    exact ⟨i, hi, Instant.le_trans hle hlower, hrest⟩

/-- Views of one date are in order. -/
theorem rising_of_forall {lower now : Instant} (hle : lower ≤ now) {vs : List RoomView}
    (h : ∀ v ∈ vs, v.generatedAt = (now : Timestamp)) : Rising lower now vs := by
  induction vs generalizing lower with
  | nil => exact hle
  | cons v rest ih =>
    exact ⟨now, h v List.mem_cons_self, hle,
      ih (Instant.le_refl _) fun v' hv' => h v' (List.mem_cons_of_mem _ hv')⟩

section Errands

variable {α : Type} {t : Topic} {l : Ledger}

/-- Actions publish nothing. -/
theorem timely_ofAction (p : Operation.Action α) (l : Ledger) :
    Timely t (fun _ l' => l.Later l') (Sweep.ofAction p) l := by
  induction p generalizing l with
  | done a => exact .refl l
  | ask c next ih =>
    cases c with
    -- the clock that is read next is no earlier than the one before
    | now =>
      intro now hnow
      have hread : l.Later { l with read := now } := ⟨rfl, rfl, hnow⟩
      exact (ih now { l with read := now }).mono fun _ _ hlater => hread.trans hlater
    | view | views => exact fun r _ => ih r l
    | assign | apply | finalizeExpired | setActive => exact fun r => ih r l

/-- A view bears the date at which the clock was read for it. -/
theorem timely_view (room : RoomId) (l : Ledger) :
    Timely t (fun r l' => l.Later l' ∧ ∀ v, r = .ok v → v.generatedAt = (l'.read : Timestamp))
      (Sweep.ofAction (Operation.view room)) l := by
  intro now hnow r hr
  exact ⟨⟨rfl, rfl, hnow⟩, hr⟩

/-- A batch of views bears the instant it was read at. -/
theorem timely_views (rooms : List RoomId) (l : Ledger) :
    Timely t (fun r l' => l.Later l' ∧
      ∀ vs, r = .ok vs → ∀ v ∈ vs, v.generatedAt = (l'.read : Timestamp))
      (Sweep.ofAction (Operation.views rooms)) l := by
  intro now hnow r hr
  exact ⟨⟨rfl, rfl, hnow⟩, hr⟩

/-- Views that are read one by one are in the order of their dates. -/
theorem timely_viewEach (rooms : List RoomId) (l : Ledger) :
    Timely t (fun vs l' => l.Later l' ∧ Rising l.read l'.read vs) (Sweep.viewEach rooms) l := by
  induction rooms generalizing l with
  | nil => exact ⟨.refl l, Instant.le_refl _⟩
  | cons room rest ih =>
    refine ((timely_view room l).mono fun r l₁ ⟨hlater, hdate⟩ => ?_).bind
    cases r with
    | error e =>
      -- a room that cannot be read is left out
      refine (ih l₁).mono fun vs l₂ ⟨hlater', hrising⟩ => ?_
      exact ⟨hlater.trans hlater', hrising.weaken hlater.read⟩
    | ok v =>
      refine ((ih l₁).mono fun vs l₂ ⟨hlater', hrising⟩ => ?_).bind
      exact ⟨hlater.trans hlater', l₁.read, hdate v rfl, hlater.read, hrising⟩

/-- However the views are read, their dates rise. -/
theorem timely_readViews (rooms : List RoomId) (l : Ledger) :
    Timely t (fun vs l' => l.Later l' ∧ Rising l.read l'.read vs) (Sweep.readViews rooms) l := by
  refine ((timely_views rooms l).mono fun r l₁ ⟨hlater, hdate⟩ => ?_).bind
  cases r with
  | ok vs => exact ⟨hlater, rising_of_forall hlater.read (hdate vs rfl)⟩
  | error e =>
    -- the rooms are read one by one instead, each at its own time
    refine (timely_viewEach rooms l₁).mono fun vs l₂ ⟨hlater', hrising⟩ => ?_
    exact ⟨hlater.trans hlater', hrising.weaken hlater.read⟩

/-! ## Publishing -/

theorem exists_of_rel_some {β : Type} {R : α → β → Prop} {a : α} {o : Option β}
    (h : Option.Rel R (some a) o) : ∃ b, o = some b ∧ R a b := by
  cases h with
  | some h => exact ⟨_, rfl, h⟩

/-- A ledger after payloads of a date were sent or held back. -/
structure Ledger.Posted (i read : Instant) (l : Ledger) : Prop where
  fits : l.Fits
  last_le : l.last ≤ i
  read_eq : l.read = read

theorem Ledger.Fits.settle (h : l.Fits) : Fits { l with kept := none } :=
  ⟨h.last_le, fun _ hk => absurd hk (Option.not_mem_none _)⟩

/-- A payload is sent to one topic after the other; where that fails, it is held back. -/
theorem timely_sendAll {h : Held} {i : Instant} (hshows : Shows h.payload i) (ts : List Topic)
    (report : PublishReport) (fits : l.Fits) (hlast : l.last ≤ i) (hread : i ≤ l.read) :
    Timely t (fun _ l' => l'.Posted i l.read) (Sweep.ofPublication (Publish.sendAll h ts report)) l := by
  induction ts generalizing report l with
  | nil => exact ⟨fits, hlast, rfl⟩
  | cons t' rest ih =>
    -- whether it was sent or not, from now on the payload is the last one
    have sent : Ledger.Fits { l with last := i, kept := none } :=
      ⟨hread, fun _ hk => absurd hk (Option.not_mem_none _)⟩
    have held : Ledger.Fits { l with last := i, kept := some i } :=
      ⟨hread, fun k hk => Option.mem_some.mp hk ▸ ⟨Instant.le_refl _, hread⟩⟩
    refine ⟨fun ht => ⟨i, ⟨hshows, hlast, hread⟩, fun r => ?_⟩, fun ht r => ?_⟩
    · cases r with
      | ok u => exact ⟨fun _ => ih _ sent (Instant.le_refl _) hread, fun h => absurd ht h⟩
      | error e =>
        -- it counts as sent, for the broker may have accepted it before it failed
        refine fun _ => ⟨fun _ => ⟨i, ⟨hshows, Instant.le_refl _, hread⟩, ?_⟩, fun h => absurd ht h⟩
        exact ih _ held (Instant.le_refl _) hread
    · cases r with
      | ok u => exact ⟨fun h => absurd h ht, fun _ => ih _ fits hlast hread⟩
      | error e => exact fun _ => ⟨fun h => absurd h ht, fun _ => ih _ fits hlast hread⟩

/-- Holding payloads back posts them. -/
theorem timely_holdAll {h : Held} {i : Instant} (hshows : Shows h.payload i) (ts : List Topic)
    (fits : l.Fits) (hlast : l.last ≤ i) (hread : i ≤ l.read) :
    Timely t (fun _ l' => l'.Posted i l.read) (Sweep.ofPublication (Publish.holdAll h ts)) l := by
  induction ts generalizing l with
  | nil => exact ⟨fits, hlast, rfl⟩
  | cons t' rest ih =>
    have held : Ledger.Fits { l with kept := some i } :=
      ⟨fits.last_le, fun k hk => Option.mem_some.mp hk ▸ ⟨hlast, hread⟩⟩
    exact ⟨fun _ => ⟨i, ⟨hshows, hlast, hread⟩, ih held hlast hread⟩, fun _ => ih fits hlast hread⟩

/-- A view may be published if nothing younger was. -/
theorem timely_publishView {v : RoomView} {i : Instant} (hdate : v.generatedAt = (i : Timestamp))
    (fits : l.Fits) (hlast : l.last ≤ i) (hread : i ≤ l.read) :
    Timely t (fun _ l' => l'.Posted i l.read) (Sweep.ofPublication (Publish.publishView v)) l := by
  intro stamp up
  cases up with
  | true => exact timely_sendAll (shows_payload hdate) v.topics {} fits hlast hread
  | false =>
    change Timely t _ (Sweep.ofPublication ((Publish.holdAll _ v.topics).bind _)) l
    rw [Sweep.ofPublication, Program.lift_bind]
    exact (timely_holdAll (shows_payload hdate) v.topics fits hlast hread).bind

theorem timely_publishEach {vs : List RoomView} {lower : Instant} (fits : l.Fits)
    (hlast : l.last ≤ lower) (hrising : Rising lower l.read vs) :
    Timely t (fun _ l' => l'.Fits) (Sweep.publishEach vs) l := by
  induction vs generalizing l lower with
  | nil => exact fits
  | cons v rest ih =>
    obtain ⟨i, hdate, hle, hrest⟩ := hrising
    -- from now on `i` is the bound, and what follows is not older
    refine ((timely_publishView hdate fits (Instant.le_trans hlast hle) hrest.le).mono
      fun report l' posted => ?_).bind
    exact ((ih posted.fits posted.last_le (posted.read_eq ▸ hrest)).mono fun _ _ fits => fits).bind

/-- What is held back is sent, unless it was taken for something else meanwhile. -/
theorem timely_flushTopics (ts : List Topic) (report : PublishReport) (fits : l.Fits) :
    Timely t (fun _ l' => l'.Fits) (Sweep.ofPublication (Publish.flushTopics ts report)) l := by
  induction ts generalizing report l with
  | nil => exact fits
  | cons t' rest ih =>
    intro r hheld
    cases r with
    -- gone in the meantime
    | none => exact ih report fits
    | some h =>
      refine ⟨fun ht => ?_, fun ht r => ?_⟩
      · -- what is sent is still held back then, and of that date
        obtain ⟨i, hkept, hshows⟩ := exists_of_rel_some (hheld ht)
        obtain ⟨hlast, hread⟩ := fits.kept_le i hkept
        have sent : Ledger.Fits { l with last := i } := by
          refine ⟨hread, fun k hk => ?_⟩
          rw [Option.mem_unique hk hkept]
          exact ⟨Instant.le_refl _, hread⟩
        refine ⟨i, ⟨hshows, hlast, hread⟩, fun r => ?_⟩
        cases r with
        | ok u => exact ⟨ih _ sent, ih _ sent.settle⟩
        | error e => exact fun _ => ih _ sent
      -- another topic: what is held for this one stays
      · cases r with
        | ok u => exact ⟨ih _ fits, ih _ fits.settle⟩
        | error e => exact fun _ => ih _ fits

/-! ## Errands -/

theorem timely_once (fits : l.Fits) : Timely t (fun _ l' => l'.Fits) Sweep.once l := by
  refine ((timely_ofAction _ l).mono fun r l₁ hlater => ?_).bind
  have fits₁ := hlater.fits fits
  -- without anything expired the sweep ends, otherwise it reads views and publishes them
  match r with
  | .error e => exact fits₁
  | .ok [] => exact fits₁
  | .ok (room :: rest) =>
    refine ((timely_readViews _ l₁).mono fun vs l₂ ⟨hlater', hrising⟩ => ?_).bind
    -- nothing was sent since the sweep began to read
    have hlast : l₂.last ≤ l₁.read := hlater'.last ▸ fits₁.last_le
    exact ((timely_publishEach (hlater'.fits fits₁) hlast hrising).mono fun _ _ fits => fits).bind

namespace Errand

variable {health : Http.Health}

/-- An action is served as it is. -/
theorem serve_ofAction (p : Operation.Action α) : serve health (Http.ofAction p) = Sweep.ofAction p := by
  induction p with
  | done a => rfl
  | ask c next ih =>
    have hnext : (fun r : c.Reply => serve health (Http.ofAction (next r))) =
        fun r => Sweep.ofAction (next r) := funext ih
    exact congrArg (fun k : c.Reply → Sweep.Pass α => (Program.ask (SweepCall.store c) k : Sweep.Pass α))
      hnext

theorem serve_bind {β : Type} (p : Program Http.RouteCalls α) (f : α → Program Http.RouteCalls β) :
    serve health (p.bind f) = (serve health p).bind fun a => serve health (f a) :=
  Program.lift_bind _ p f

/-- A room is read, and what was read is published. -/
theorem timely_publishRoom (room : RoomId) (body : RoomView → Json.Value) (fits : l.Fits) :
    Timely t (fun _ l' => l'.Fits) (serve health (Http.publishRoom room body)) l := by
  rw [Http.publishRoom, serve_bind, serve_ofAction]
  refine ((timely_view room l).mono fun r l₁ ⟨hlater, hdate⟩ => ?_).bind
  have fits₁ := hlater.fits fits
  cases r with
  | error e => exact fits₁
  | ok v =>
    -- the view is published at once, so that the clock was read after anything else was sent
    refine Timely.bind (Timely.bind ?_)
    exact (timely_publishView (hdate v rfl) fits₁ fits₁.last_le (Instant.le_refl _)).mono
      fun _ _ posted => posted.fits

/-- Whatever an action comes to, a room may be published after it. -/
theorem timely_after {p : Operation.Action α} {f : α → Http.Handler} (fits : l.Fits)
    (hf : ∀ a (l' : Ledger), l'.Fits → Timely t (fun _ l' => l'.Fits) (serve health (f a)) l') :
    Timely t (fun _ l' => l'.Fits) (serve health ((Http.ofAction p).bind f)) l := by
  rw [serve_bind, serve_ofAction]
  exact ((timely_ofAction p l).mono fun a l' hlater => hf a l' (hlater.fits fits)).bind

/-- An assignment sends views in the order of their dates. -/
theorem timely_assign (q : Http.AssignRequest) (fits : l.Fits) :
    Timely t (fun _ l' => l'.Fits) (serve health (Http.assign q)) l := by
  refine timely_after fits fun r l' fits => ?_
  cases r with
  | error e => exact fits
  | ok id => exact timely_publishRoom q.room _ fits

/-- A transition sends views in the order of their dates. -/
theorem timely_transition (room : RoomId) (change : Transition) (fits : l.Fits) :
    Timely t (fun _ l' => l'.Fits) (serve health (Http.transition room change)) l := by
  refine timely_after fits fun r l' fits => ?_
  cases r with
  | error e => exact fits
  | ok c => exact timely_publishRoom room _ fits

theorem timely_showRoom (room : RoomId) (fits : l.Fits) :
    Timely t (fun _ l' => l'.Fits) (serve health (Http.showRoom room)) l := by
  refine timely_after fits fun r l' fits => ?_
  cases r <;> exact fits

theorem timely_withRoom {room : List Char} {handler : RoomId → Http.Handler} (fits : l.Fits)
    (h : ∀ id, Timely t (fun _ l' => l'.Fits) (serve health (handler id)) l) :
    Timely t (fun _ l' => l'.Fits) (serve health (Http.withRoom room handler)) l := by
  unfold Http.withRoom
  split
  · exact h _
  · exact fits

/-- Every route sends views in the order of their dates. -/
theorem timely_route (route : Http.Route) (r : Http.Request) (fits : l.Fits) :
    Timely t (fun _ l' => l'.Fits) (serve health (route.handle r)) l := by
  cases route with
  | viewers => exact fits
  | health => exact fits
  | assign =>
    simp only [Http.Route.handle]
    split
    · exact timely_assign _ fits
    · exact fits
  -- the routes that change a room publish it, the others send nothing
  | pause | resume | cancel | finalize =>
    exact timely_withRoom fits fun id => timely_transition id _ fits
  | extend room =>
    refine timely_withRoom fits fun id => ?_
    split
    · exact timely_transition id _ fits
    · exact fits
  | view room => exact timely_withRoom fits fun id => timely_showRoom id fits

/-- Whatever the request, the views sent for it are in the order of their dates. -/
theorem timely_handle (r : Http.Request) (fits : l.Fits) :
    Timely t (fun _ l' => l'.Fits) (serve health (Http.handle r)) l := by
  unfold Http.handle
  -- rejected before it comes to a route, except in the last two cases
  split
  · exact fits
  · split
    · exact fits
    · split
      · exact fits
      · split
        · rw [serve_bind]
          exact ((timely_route _ r fits).mono fun _ _ fits => fits).bind
        · exact timely_route _ r fits

/-- **Errands are timely.** An errand publishes nothing that is older than what was published before. -/
theorem timely_program (e : Errand) (fits : l.Fits) :
    Timely t (fun _ l' => l'.Fits) e.program l := by
  cases e with
  | request r health => exact ((timely_handle r fits).mono fun _ _ fits => fits).bind
  | sweep => exact ((timely_once fits).mono fun _ _ fits => fits).bind
  | flush =>
    refine Timely.bind fun ts => ?_
    exact (timely_flushTopics ts {} fits).mono fun _ _ fits => fits

end Errand

end Errands

end Occupancy
