import Occupancy.Proofs.Fanout.Registry
import Occupancy.Proofs.Fanout.Slots
import Occupancy.Proofs.ListSet

/-!
# What keepers owe

While the link is up, a topic with viewers lacks a live consumer only as long as some keeper still owes
it one. What a keeper owes is read off the rest of its program, for every reply to come: `Manage.Drops`
and `Manage.Starts`. Main statement: `attended_run`, with one lemma for the turns of each kind.
-/

namespace Occupancy

/-! ## What a restart still does -/

namespace Manage

variable {α β : Type} {t : Topic}

/-- Whatever the replies, the consumer in the slot of a topic is dropped before the duty ends. The topics
listed as served are those of all slots at least. -/
def Drops (t : Topic) : Duty α → Prop
  | .done _ => False
  | .ask .served next => ∀ ts : List Topic, t ∈ ts → Drops t (next ts)
  | .ask (.drop t') next => t' = t ∨ Drops t (next ())
  | .ask _ next => ∀ r, Drops t (next r)

/-- Whatever the replies, a consumer for a topic is seen to before the duty ends. The topics listed as
wanted are those with viewers at least. -/
def Starts (t : Topic) : Duty α → Prop
  | .done _ => False
  | .ask .wanted next => ∀ ts : List Topic, t ∈ ts → Starts t (next ts)
  | .ask (.ensure t') next => t' = t ∨ ∀ r, Starts t (next r)
  | .ask _ next => ∀ r, Starts t (next r)

/-- The duty only stops and starts consumers, and whenever it drops one it sees to every topic with
viewers afterwards. -/
def Restores : Duty α → Prop
  | .done _ => True
  | .ask .served next => ∀ ts : List Topic, Restores (next ts)
  | .ask (.drop _) next => (∀ t, Starts t (next ())) ∧ Restores (next ())
  | .ask .wanted next => ∀ ts : List Topic, Restores (next ts)
  | .ask (.ensure _) next => ∀ r : Bool, Restores (next r)
  | .ask _ _ => False

/-- Dropping all of some topics drops each of them, whatever is done next. -/
theorem drops_dropAll {ts : List Topic} (h : t ∈ ts) (f : Unit → Duty β) :
    Drops t ((dropAll ts).bind f) := by
  induction ts with
  | nil => cases h
  | cons t' rest ih =>
    rcases List.mem_cons.mp h with rfl | h
    · exact .inl rfl
    · exact .inr (ih h)

theorem starts_dropAll (ts : List Topic) {f : Unit → Duty β} (h : Starts t (f ())) :
    Starts t ((dropAll ts).bind f) := by
  induction ts with
  | nil => exact h
  | cons t' rest ih => exact fun _ => ih

theorem restores_dropAll (ts : List Topic) {f : Unit → Duty β} (starts : ∀ t, Starts t (f ()))
    (restores : Restores (f ())) : Restores ((dropAll ts).bind f) := by
  induction ts with
  | nil => exact restores
  | cons t' rest ih => exact ⟨fun t => starts_dropAll rest (starts t), ih⟩

/-- Ensuring all of some topics starts each of them, however many were started before. -/
theorem starts_ensureAll {ts : List Topic} (h : t ∈ ts) (n : Nat) : Starts t (ensureAll ts n) := by
  induction ts generalizing n with
  | nil => cases h
  | cons t' rest ih =>
    rcases List.mem_cons.mp h with rfl | h
    · exact .inl rfl
    · refine .inr fun r => ?_
      cases r with
      | true => exact ih h (n + 1)
      | false => exact ih h n

theorem restores_ensureAll (ts : List Topic) (n : Nat) : Restores (ensureAll ts n) := by
  induction ts generalizing n with
  | nil => trivial
  | cons t' rest ih =>
    intro r
    cases r with
    | true => exact ih (n + 1)
    | false => exact ih n

theorem drops_restart (t : Topic) : Drops t restart :=
  fun _ h => drops_dropAll h _

theorem starts_restart (t : Topic) : Starts t restart :=
  fun ts => starts_dropAll ts fun _ h => starts_ensureAll h 0

theorem restores_restart : Restores restart :=
  fun ts => restores_dropAll ts (fun _ _ h => starts_ensureAll h 0) fun ts => restores_ensureAll ts 0

end Manage

namespace Keeper

/-- The consumer in the slot of a topic will be dropped by the keeper. One that connects or ends is
taken to owe everything. -/
def Drops (t : Topic) : Keeper → Prop
  | .dialling _ _ | .ending _ | .ended => True
  | .restarting p _ _ => Manage.Drops t p
  | .flushing _ | .waiting | .rested => False

/-- A consumer for the topic will be seen to by the keeper. -/
def Starts (t : Topic) : Keeper → Prop
  | .dialling _ _ | .ending _ | .ended => True
  | .restarting p _ _ => Manage.Starts t p
  | .flushing _ | .waiting | .rested => False

/-- A keeper at a restart stops no consumer without seeing to its topic afterwards. -/
def Restores : Keeper → Prop
  | .restarting p _ _ => Manage.Restores p
  | _ => True

variable {k : Keeper} {t : Topic}

theorem not_drops_of_isSettled (h : k.isSettled = true) : ¬ k.Drops t := by
  cases k <;> simp [isSettled, Drops] at h ⊢

theorem not_starts_of_isSettled (h : k.isSettled = true) : ¬ k.Starts t := by
  cases k <;> simp [isSettled, Starts] at h ⊢

end Keeper

/-! ## The link and the viewers under a request -/

/-- A request of a consumer does not bring the link up, and the report of a loss leaves it not up. -/
theorem Floor.isUp_of_consume {f : Floor} {luck : Luck} {c : ConsumeCall}
    (h : (f.consume luck c).2.link.isUp = true) :
    f.link.isUp = true ∧ Course.met c (f.consume luck c).1 ≠ .lost := by
  have hmeets := f.meets_consume luck c
  constructor
  · cases c with
    -- only a report brings the link down, and it never brings it up
    | report e => exact (Link.isUp_of_report h).1
    | receive t g =>
      simp only [consume] at h
      split at h
      · exact h
      · split at h <;> exact h
    | declare | fanOut | ack | pause | count | retire | release => exact h
  · intro hk
    rw [hk] at hmeets
    cases hmeets with
    -- an error that counts as a loss takes the link down
    | report hloss =>
      have hkept := (Link.isUp_of_report h).2
      rw [hloss] at hkept
      cases hkept

/-- A request of a consumer adds nobody to a topic. -/
theorem Floor.mem_snapshot_of_consume {f : Floor} {luck : Luck} {c : ConsumeCall} {t : Topic}
    {v : ViewerId} (h : v ∈ (f.consume luck c).2.registry.snapshot t) : v ∈ f.registry.snapshot t := by
  cases c with
  -- fanning out can only unlist viewers
  | fanOut t' payload => exact Registry.mem_snapshot_of_fanOutTo _ _ _ _ _ h
  | receive t' g =>
    simp only [consume] at h
    split at h
    · exact h
    · split at h <;> exact h
  | declare | ack | pause | count | retire | release | report => exact h

theorem Luck.mem_covering {luck : Luck} {ts : List Topic} {t : Topic} (h : t ∈ ts) :
    t ∈ luck.covering ts := by
  unfold covering
  split
  · rename_i hsub
    exact hsub h
  · exact h

/-! ## The invariant -/

namespace Relay

variable {w w' : Relay} {t : Topic} {v : ViewerId} {g : Generation} {k : Keeper} {luck : Luck}

/-- While the link is up, somebody owes what a topic lacks: a lost consumer in a slot will be dropped,
and a topic with viewers and an empty slot will get a consumer. -/
structure Attended (w : Relay) : Prop where
  restores : ∀ k ∈ w.keepers, k.Restores
  drops : ∀ t g r, w.link.isUp = true → w.supervisor.slots.get? t = some g →
    w.readers.get? g = some r → r.course = .lost → ∃ k ∈ w.keepers, k.Drops t
  starts : ∀ t v, w.link.isUp = true → v ∈ w.registry.snapshot t → ¬ w.Arriving t v →
    w.supervisor.slots.get? t = none → ∃ k ∈ w.keepers, k.Starts t

/-- A turn that leaves the keepers alone keeps what they owe, if it adds nothing to it. -/
theorem Attended.mono (h : Attended w) (hkeepers : w'.keepers = w.keepers)
    (drops : ∀ t g r, w'.link.isUp = true → w'.supervisor.slots.get? t = some g →
      w'.readers.get? g = some r → r.course = .lost →
      w.link.isUp = true ∧ w.supervisor.slots.get? t = some g ∧
        ∃ r₀, w.readers.get? g = some r₀ ∧ r₀.course = .lost)
    (starts : ∀ t v, w'.link.isUp = true → v ∈ w'.registry.snapshot t → ¬ w'.Arriving t v →
      w'.supervisor.slots.get? t = none →
      w.link.isUp = true ∧ v ∈ w.registry.snapshot t ∧ ¬ w.Arriving t v ∧
        w.supervisor.slots.get? t = none) :
    Attended w' where
  restores := by
    rw [hkeepers]
    exact h.restores
  -- both debts are looked up in the state before
  drops t g r hup hslot hr hlost := by
    obtain ⟨hup, hslot, r₀, hr₀, hlost⟩ := drops t g r hup hslot hr hlost
    rw [hkeepers]
    exact h.drops t g r₀ hup hslot hr₀ hlost
  starts t v hup hv harrived hslot := by
    obtain ⟨hup, hv, harrived, hslot⟩ := starts t v hup hv harrived hslot
    rw [hkeepers]
    exact h.starts t v hup hv harrived hslot

/-- Viewers may leave a topic at any time. -/
theorem Attended.registry (h : Attended w) {registry : Registry}
    (hsub : ∀ t v, v ∈ registry.snapshot t → v ∈ w.registry.snapshot t) :
    Attended { w with registry } :=
  h.mono rfl (fun _ _ r hup hslot hr hlost => ⟨hup, hslot, r, hr, hlost⟩)
    fun t v hup hv harrived hslot => ⟨hup, hsub t v hv, harrived, hslot⟩

theorem Attended.report (h : Attended w) (e : BrokerError) :
    Attended { w with link := w.link.report e } :=
  h.mono rfl
    (fun _ _ r hup hslot hr hlost => ⟨(Link.isUp_of_report hup).1, hslot, r, hr, hlost⟩)
    fun _ _ hup hv harrived hslot => ⟨(Link.isUp_of_report hup).1, hv, harrived, hslot⟩

/-- A keeper may come at any time. -/
theorem Attended.keeper (h : Attended w) (hk : k.Restores) :
    Attended { w with keepers := w.keepers ++ [k] } where
  restores k' hk' := by
    -- the others owe what they owed
    rcases List.mem_append.mp hk' with hk' | hk'
    · exact h.restores k' hk'
    · rw [List.mem_singleton.mp hk']
      exact hk
  drops t g r hup hslot hr hlost := by
    obtain ⟨k', hk', hdrops⟩ := h.drops t g r hup hslot hr hlost
    exact ⟨k', List.mem_append_left _ hk', hdrops⟩
  starts t v hup hv harrived hslot := by
    obtain ⟨k', hk', hstarts⟩ := h.starts t v hup hv harrived hslot
    exact ⟨k', List.mem_append_left _ hk', hstarts⟩

/-! ## Arrivals -/

/-- A viewer that arrives is owed its consumer by itself. -/
theorem attended_arrive (h : Attended w) (t : Topic) (v : ViewerId) :
    Attended (w.step (.arrive t v)) := by
  refine h.mono rfl (fun _ _ r hup hslot hr hlost => ⟨hup, hslot, r, hr, hlost⟩)
    fun t' v' hup hv harrived hslot => ?_
  -- the new viewer is on its way, so that the topic owes it nothing yet
  rcases Registry.mem_snapshot_add.mp hv with hv | ⟨rfl, rfl⟩
  · refine ⟨hup, hv, fun ⟨a, ha, hwho⟩ => harrived ⟨a, List.mem_append_left _ ha, hwho⟩, hslot⟩
  · exact absurd ⟨_, List.mem_append_right _ (List.mem_singleton_self _), rfl, rfl⟩ harrived

/-- The step on the slot fills the slot and spoils no other. -/
theorem enter_spec (w : Relay) (t : Topic) :
    (w.enter t).2.link = w.link ∧ (w.enter t).2.registry = w.registry ∧
    (w.enter t).2.keepers = w.keepers ∧ (w.enter t).2.arrivals = w.arrivals ∧
    (∀ t', (w.enter t).2.supervisor.slots.get? t' = none →
      t' ≠ t ∧ w.supervisor.slots.get? t' = none) ∧
    ∀ t' g r, (w.enter t).2.supervisor.slots.get? t' = some g →
      (w.enter t).2.readers.get? g = some r → r.course = .lost →
      w.supervisor.slots.get? t' = some g ∧ w.readers.get? g = some r := by
  rcases w.enter_cases t with ⟨⟨g₀, hheld, -⟩, henter⟩ | ⟨g₀, hs, henter⟩ <;> rw [henter]
  -- nothing happened, since the slot was held
  · refine ⟨rfl, rfl, rfl, rfl, fun t' hslot => ⟨fun heq => ?_, hslot⟩,
      fun _ _ _ hslot hr _ => ⟨hslot, hr⟩⟩
    rw [heq, hheld] at hslot
    cases hslot
  · obtain ⟨hg₀, -, -, hslots, -⟩ := Supervisor.ensure_started hs
    refine ⟨rfl, rfl, rfl, rfl, fun t' hslot => ?_, fun t' g r hslot hr hlost => ?_⟩
    · rw [hslots] at hslot
      split at hslot
      · cases hslot
      · rename_i hne
        exact ⟨hne, hslot⟩
    · rw [hslots] at hslot
      change (w.readers.set g₀ ⟨t, Consume.start t, .live⟩).get? g = some r at hr
      rw [Table.get?_set] at hr
      by_cases hg : g = g₀
      · -- the new consumer is live
        rw [if_pos hg] at hr
        cases hr
        cases hlost
      · rw [if_neg hg] at hr
        split at hslot
        · exact absurd (Option.some.inj hslot).symm hg
        · exact ⟨hslot, hr⟩

theorem attended_arrivalTurn (h : Attended w) (i : Nat) : Attended (w.arrivalTurn i) := by
  unfold arrivalTurn
  split
  · exact h
  · rename_i a ha
    split
    · obtain ⟨hlink, hregistry, hkeepers, -, hempty, hspoils⟩ := w.enter_spec a.topic
      refine h.mono hkeepers (fun t g r hup hslot hr hlost => ?_) fun t v hup hv harrived hslot => ?_
      · obtain ⟨hslot, hr⟩ := hspoils t g r hslot hr hlost
        exact ⟨hlink ▸ hup, hslot, r, hr, hlost⟩
      · obtain ⟨hne, hslot⟩ := hempty t hslot
        refine ⟨hlink ▸ hup, hregistry ▸ hv, ?_, hslot⟩
        -- whoever else was on the way to another topic still is
        rintro ⟨b, hb, htopic, hviewer⟩
        refine harrived ⟨b, ?_, htopic, hviewer⟩
        obtain ⟨j, hj⟩ := List.mem_iff_getElem?.mp hb
        refine List.mem_eraseIdx_iff_getElem?.mpr ⟨j, fun hij => ?_, hj⟩
        rw [hij, ha] at hj
        cases hj
        exact hne htopic.symm
    · split
      · refine h.mono rfl (fun _ _ r hup hslot hr hlost => ⟨hup, hslot, r, hr, hlost⟩)
          fun t v hup hv harrived hslot => ⟨hup, hv, ?_, hslot⟩
        -- the viewer that has looked at the link is still the one on the way
        rintro ⟨b, hb, hwho⟩
        rcases mem_set_or ha hb { a with checked := true } with hb | rfl
        · exact harrived ⟨b, hb, hwho⟩
        · exact harrived ⟨_, List.mem_set (List.getElem?_eq_some_iff.mp ha).1 _, hwho⟩
      · -- the link is not up, so that nothing is owed
        rename_i hdown
        exact h.mono rfl (fun _ _ _ hup => absurd hup hdown) fun _ _ hup => absurd hup hdown

/-! ## Consumers -/

theorem attended_consumerTurn (h : Attended w) (horder : Orderly w.supervisor w.readers) :
    Attended (w.consumerTurn g luck) := by
  rcases w.consumerTurn_cases g luck with hsame | ⟨r, hr, hcases⟩
  · rwa [hsame]
  rcases hcases with ⟨-, hturn⟩ | ⟨-, hturn⟩ | ⟨call, next, hrest, hturn⟩ <;> rw [hturn]
  -- a cancelled or a retired consumer takes nothing along
  · refine h.mono rfl (fun t g' r' hup hslot hr' hlost => ⟨hup, hslot, ?_⟩)
      fun _ _ hup hv harrived hslot => ⟨hup, hv, harrived, hslot⟩
    rw [Table.get?_set] at hr'
    split at hr'
    · rename_i hg
      cases hr'
      exact ⟨r, hg ▸ hr, hlost⟩
    · exact ⟨r', hr', hlost⟩
  -- nothing but the floor's own state changed
  · exact h.mono rfl (fun _ _ r' hup hslot hr' hlost => ⟨hup, hslot, r', hr', hlost⟩)
      fun _ _ hup hv harrived hslot => ⟨hup, hv, harrived, hslot⟩
  · obtain ⟨c, hc, -⟩ := horder.exists_consumer hr
    have hfits := (horder.sound g r c hr hc).fits
    rw [hrest] at hfits
    -- a slot that the request empties has no viewers
    have hslots : ∀ t, ((w.toFloor.consume luck call).2.supervisor.slots.get? t =
        w.supervisor.slots.get? t) ∨ ((w.toFloor.consume luck call).2.supervisor.slots.get? t = none ∧
          w.registry.snapshot t = []) := by
      intro t
      rcases w.toFloor.consume_cases luck hfits.1 with ⟨hsupervisor, -⟩ | ⟨-, -, hown, hsupervisor⟩
      · exact .inl (by rw [hsupervisor])
      · obtain ⟨-, hcount, -, -, hslots⟩ := Supervisor.retire_eq_true hown
        rw [hsupervisor, hslots]
        split
        · rename_i ht
          exact .inr ⟨rfl, ht ▸ List.length_eq_zero_iff.mp hcount⟩
        · exact .inl rfl
    refine h.mono rfl (fun t g' r' hup hslot hr' hlost => ?_) fun t v hup hv harrived hslot => ?_
    · obtain ⟨hup, hmet⟩ := Floor.isUp_of_consume hup
      refine ⟨hup, ?_, ?_⟩
      -- a slot the request emptied holds nothing
      · rcases hslots t with heq | ⟨hnone, -⟩
        · rw [← heq]
          exact hslot
        · exact absurd (hslot.symm.trans hnone) (Option.some_ne_none _)
      · rw [Table.get?_set] at hr'
        split at hr'
        · rename_i hg
          cases hr'
          refine ⟨r, hg ▸ hr, ?_⟩
          by_cases hk : r.course = .live
          -- a live consumer meets a loss only in a call that takes the link down
          · exact absurd (by simpa [Course.after, hk] using hlost) hmet
          · rwa [Course.after_of_ne_live hk] at hlost
        · exact ⟨r', hr', hlost⟩
    · have hv := Floor.mem_snapshot_of_consume hv
      refine ⟨(Floor.isUp_of_consume hup).1, hv, harrived, ?_⟩
      rcases hslots t with heq | ⟨-, hnobody⟩
      · rw [← heq]
        exact hslot
      · have hv : v ∈ w.registry.snapshot t := hv
        rw [hnobody] at hv
        cases hv

/-! ## Keepers -/

/-- A turn takes a keeper `k` to `k'` and the rest from `w` to `w'`: what is owed then was owed before and
is not forgotten, or `k'` owes it. -/
structure HandsOn (w : Relay) (k : Keeper) (w' : Relay) (k' : Keeper) : Prop where
  restores : k'.Restores
  drops : ∀ t g r, w'.link.isUp = true → w'.supervisor.slots.get? t = some g →
    w'.readers.get? g = some r → r.course = .lost → k'.Drops t ∨
      (w.link.isUp = true ∧ w.supervisor.slots.get? t = some g ∧ w.readers.get? g = some r ∧
        (k.Drops t → k'.Drops t))
  starts : ∀ t v, w'.link.isUp = true → v ∈ w'.registry.snapshot t →
    w'.supervisor.slots.get? t = none → k'.Starts t ∨
      (w.link.isUp = true ∧ v ∈ w.registry.snapshot t ∧ w.supervisor.slots.get? t = none ∧
        (k.Starts t → k'.Starts t))

theorem HandsOn.of_all {k' : Keeper} (restores : k'.Restores) (drops : ∀ t, k'.Drops t)
    (starts : ∀ t, k'.Starts t) : HandsOn w k w' k' :=
  ⟨restores, fun t _ _ _ _ _ _ => .inl (drops t), fun t _ _ _ _ => .inl (starts t)⟩

/-- A keeper that owes no less afterwards may do what brings the link down at most. -/
theorem HandsOn.of_same {k' : Keeper} (restores : k'.Restores)
    (hlink : w'.link.isUp = true → w.link.isUp = true) (hregistry : w'.registry = w.registry)
    (hsupervisor : w'.supervisor = w.supervisor) (hreaders : w'.readers = w.readers)
    (drops : ∀ t g, w.supervisor.slots.get? t = some g → k.Drops t → k'.Drops t)
    (starts : ∀ t v, v ∈ w.registry.snapshot t → k.Starts t → k'.Starts t) : HandsOn w k w' k' where
  restores := restores
  -- nothing was touched, so the debts are as before
  drops t g r hup hslot hr hlost := by
    rw [hsupervisor] at hslot
    rw [hreaders] at hr
    exact .inr ⟨hlink hup, hslot, hr, drops t g hslot⟩
  starts t v hup hv hslot := by
    rw [hregistry] at hv
    rw [hsupervisor] at hslot
    exact .inr ⟨hlink hup, hv, hslot, starts t v hv⟩

/-- A turn of a restart. -/
theorem handsOn_restarting {p : Manage.Duty Nat} (hp : Manage.Restores p) (checked lone : Bool)
    (luck : Luck) : HandsOn w (.restarting p checked lone) (w.keep luck (.restarting p checked lone)).2
      (w.keep luck (.restarting p checked lone)).1 := by
  cases p with
  -- a restart that is over owes nothing
  | done n => cases lone <;> exact .of_same trivial id rfl rfl rfl (fun _ _ _ => id) fun _ _ _ => id
  | ask c next =>
    cases c with
    | served =>
      -- every slot is among those listed
      refine .of_same (hp _) id rfl rfl rfl (fun t g hslot hdrops => hdrops _ ?_)
        fun t v hv hstarts => hstarts _
      exact Luck.mem_covering ((Table.mem_keys _ _).mpr (Option.isSome_iff_exists.mpr ⟨g, hslot⟩))
    | wanted =>
      -- every topic with viewers is among those listed
      exact .of_same (hp _) id rfl rfl rfl (fun t g hslot hdrops => hdrops _)
        fun t v hv hstarts => hstarts _ (Luck.mem_covering (Registry.mem_topics hv))
    | drop t₀ =>
      -- the slot is empty now, and the restart sees to all topics afterwards
      obtain ⟨-, hslots, -⟩ := w.supervisor.drop_spec t₀
      refine ⟨hp.2, fun t g r hup hslot hr hlost => ?_, fun t v _ _ _ => .inl (hp.1 t)⟩
      have hslot : (w.supervisor.drop t₀).slots.get? t = some g := hslot
      rw [hslots] at hslot
      split at hslot
      · cases hslot
      · rename_i hne
        exact .inr ⟨hup, hslot, hr, fun hdrops => hdrops.resolve_left fun heq => hne heq.symm⟩
    | ensure t₀ =>
      cases checked with
      | true =>
        -- the slot holds a consumer now, which settles the debt for its topic
        obtain ⟨hlink, hregistry, -, -, hempty, hspoils⟩ := w.enter_spec t₀
        refine ⟨hp _, fun t g r hup hslot hr hlost => ?_, fun t v hup hv hslot => ?_⟩
        · obtain ⟨hslot, hr⟩ := hspoils t g r hslot hr hlost
          exact .inr ⟨hlink ▸ hup, hslot, hr, fun hdrops => hdrops _⟩
        · obtain ⟨hne, hslot⟩ := hempty t hslot
          exact .inr ⟨hlink ▸ hup, hregistry ▸ hv, hslot,
            fun hstarts => hstarts.resolve_left (fun heq => hne heq.symm) _⟩
      | false =>
        simp only [keep]
        split
        · exact .of_same hp id rfl rfl rfl (fun _ _ _ => id) fun _ _ _ => id
        · -- the link is not up, and the consumer is left to whoever brings it up
          rename_i hdown
          exact ⟨hp _, fun _ _ _ hup => absurd hup hdown, fun _ _ hup => absurd hup hdown⟩
    | become | teardown | connect | backoff | publish | awaitLoss | close => exact hp.elim

/-- A turn of any keeper hands on what it owes. -/
theorem handsOn_keep (hk : k.Restores) (luck : Luck) :
    HandsOn w k (w.keep luck k).2 (w.keep luck k).1 := by
  cases k with
  | dialling n p =>
    cases p with
    | done d =>
      cases d with
      | up =>
        -- the restart that begins owes all that the connecting manager was taken to owe
        exact .of_all Manage.restores_restart Manage.drops_restart Manage.starts_restart
      | retry | shutdown => exact .of_all trivial (fun _ => trivial) fun _ => trivial
    | ask c next => exact .of_all trivial (fun _ => trivial) fun _ => trivial
  | restarting p checked lone => exact handsOn_restarting hk checked lone luck
  | flushing p =>
    -- a flush owes nothing, and brings the link down at most
    cases p with
    | done _ => exact .of_same trivial id rfl rfl rfl (fun _ _ _ => id) fun _ _ _ => id
    | ask c next =>
      cases c with
      | report e =>
        exact .of_same trivial (fun hup => (Link.isUp_of_report hup).1) rfl rfl rfl
          (fun _ _ _ => id) fun _ _ _ => id
      | stamp | linkUp | send | hold | settle | settleSame | heldTopics | held =>
        exact .of_same trivial id rfl rfl rfl (fun _ _ _ => id) fun _ _ _ => id
  | waiting =>
    simp only [keep]
    split
    · exact .of_all trivial (fun _ => trivial) fun _ => trivial
    · split
      · exact .of_all trivial (fun _ => trivial) fun _ => trivial
      · exact .of_same trivial id rfl rfl rfl (fun _ _ _ => id) fun _ _ _ => id
  | rested => exact .of_same trivial id rfl rfl rfl (fun _ _ _ => id) fun _ _ _ => id
  | ending p => cases p <;> exact .of_all trivial (fun _ => trivial) fun _ => trivial
  | ended => exact .of_all trivial (fun _ => trivial) fun _ => trivial

/-- A turn of a keeper touches neither the arrivals nor the other keepers. -/
theorem keep_others (w : Relay) (luck : Luck) (k : Keeper) :
    (w.keep luck k).2.arrivals = w.arrivals ∧ (w.keep luck k).2.keepers = w.keepers := by
  rcases w.keep_cases luck k with hkeep | ⟨c, hkeep⟩ | ⟨t, hkeep⟩ <;> rw [hkeep]
  · exact ⟨rfl, rfl⟩
  · exact ⟨rfl, rfl⟩
  · obtain ⟨-, -, hkeepers, harrivals, -⟩ := w.enter_spec t
    exact ⟨harrivals, hkeepers⟩

/-- A turn of a keeper leaves nothing undone that was owed. -/
theorem attended_keeperTurn (h : Attended w) (i : Nat) (luck : Luck) :
    Attended (w.keeperTurn i luck) := by
  unfold keeperTurn
  split
  · exact h
  · rename_i k hi
    have hk := h.restores k (List.mem_of_getElem? hi)
    have hands : HandsOn w k _ _ := handsOn_keep hk luck
    obtain ⟨harrivals, hkeepers⟩ := w.keep_others luck k
    generalize w.keep luck k = after at hands harrivals hkeepers ⊢
    obtain ⟨k', w'⟩ := after
    simp only at hkeepers ⊢
    -- the one that took its turn is replaced, and takes over what it owed
    rw [hkeepers]
    refine ⟨fun k₀ hk₀ => ?_, fun t g r hup hslot hr hlost => ?_,
      fun t v hup hv harrived hslot => ?_⟩
    · rcases List.mem_or_eq_of_mem_set hk₀ with hk₀ | rfl
      · exact h.restores k₀ hk₀
      · exact hands.restores
    · rcases hands.drops t g r hup hslot hr hlost with hdrops | ⟨hup, hslot, hr, takesOver⟩
      · exact ⟨_, List.mem_set (List.getElem?_eq_some_iff.mp hi).1 _, hdrops⟩
      · exact exists_mem_set hi (h.drops t g r hup hslot hr hlost) takesOver
    -- nobody arrived in the meantime
    · have harrived : ¬ w.Arriving t v := by
        rintro ⟨a, ha, hwho⟩
        exact harrived ⟨a, harrivals ▸ ha, hwho⟩
      rcases hands.starts t v hup hv hslot with hstarts | ⟨hup, hv, hslot, takesOver⟩
      · exact ⟨_, List.mem_set (List.getElem?_eq_some_iff.mp hi).1 _, hstarts⟩
      · exact exists_mem_set hi (h.starts t v hup hv harrived hslot) takesOver

/-! ## Every turn and every run -/

/-- Every turn leaves somebody who owes what is to be done. -/
theorem attended_step (h : Attended w) (horder : Orderly w.supervisor w.readers) (turn : Turn) :
    Attended (w.step turn) := by
  cases turn with
  | newViewer buffer => exact h.registry fun _ _ => id
  | arrive t v => exact attended_arrive h t v
  | arrival i => exact attended_arrivalTurn h i
  | takeOut t v =>
    refine h.registry fun t' v' hv => ?_
    rw [Registry.snapshot_takeOut] at hv
    split at hv
    · rename_i ht
      exact ht ▸ (List.mem_filter.mp hv).1
    · exact hv
  | prune t => exact h.registry fun t' v' hv => by rwa [Registry.snapshot_prune] at hv
  | close v => exact h.registry fun _ _ => id
  | detachSocket v => exact h.registry fun _ _ => id
  | take v => exact h.registry fun t' v' hv => by rwa [Registry.snapshot_next] at hv
  | consumer g luck => exact attended_consumerTurn h horder
  | keeper i luck => exact attended_keeperTurn h i luck
  -- whoever begins to manage owes everything until the link is up
  | manage => exact h.keeper (k := .dialling 0 (Manage.dial 0)) trivial
  | restart => exact h.keeper (k := .restarting Manage.restart false true) Manage.restores_restart
  | shutdown => exact h.keeper (k := .ending Manage.stopConsumers) trivial
  | report e => exact h.report e

/-- Whatever happens, somebody owes what a topic with viewers lacks while the link is up. -/
theorem attended_run (turns : List Turn) : Attended (run turns) := by
  refine (run_induction (P := fun w => Orderly w.supervisor w.readers ∧ Attended w)
    (A := fun _ => True) ⟨orderly_run [], ?_⟩
    (fun w turn _ h => ⟨orderly_step h.1 turn, attended_step h.2 h.1 turn⟩) turns fun _ _ => trivial).2
  -- the link is down at first
  have hdown : ¬ ({} : Relay).link.isUp = true := nofun
  exact ⟨nofun, fun _ _ _ hup => absurd hup hdown, fun _ _ hup => absurd hup hdown⟩

end Relay

end Occupancy
