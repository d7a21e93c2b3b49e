import Occupancy.Proofs.Fanout.Conflation

/-!
# What is on its way to a viewer

A payload may come to a viewer if it waits in the viewer's queue or is unread in that of its topic. Main
statement: `moves_step`. In any turn of a feed, viewers keep their seats and what they have taken, and
nothing comes their way but what is published on their topic.
-/

namespace Occupancy.Feed

/-- Is a payload on its way to a viewer of a topic, in the viewer's queue or in that of the topic? -/
def Coming (f : Feed) (t : Topic) (v : ViewerId) (p : String) : Prop :=
  (∃ viewer, f.registry.viewers.get? v = some viewer ∧ p ∈ viewer.waiting) ∨
  (f.broker.depth t ≠ 0 ∧ (f.log t).getLast? = some p)

/-- What some turns do to the viewers that are there: they keep their seats and what they have taken, and
nothing comes their way but what did before or is among the payloads `P`. -/
structure Moves (f f' : Feed) (P : Topic → String → Prop) : Prop where
  faithful : f'.Faithful
  present : ∀ v, (f.registry.viewers.get? v).isSome → (f'.registry.viewers.get? v).isSome
  seat : ∀ v seat, f.seats.get? v = some seat → ∃ seat', f'.seats.get? v = some seat' ∧
    seat'.topic = seat.topic ∧ seat.taken.Sublist seat'.taken
  coming : ∀ v seat, f.seats.get? v = some seat → ∀ p, f'.Coming seat.topic v p →
    f.Coming seat.topic v p ∨ P seat.topic p

namespace Moves

variable {f f' f'' : Feed} {P Q : Topic → String → Prop}

theorem refl (h : f.Faithful) : f.Moves f P :=
  ⟨h, fun _ => id, fun _ seat hseat => ⟨seat, hseat, rfl, .refl _⟩, fun _ _ _ _ => .inl⟩

/-- Moves follow one another. -/
theorem trans (h : f.Moves f' P) (h' : f'.Moves f'' P) : f.Moves f'' P where
  faithful := h'.faithful
  present v hv := h'.present v (h.present v hv)
  seat v seat hseat := by
    obtain ⟨seat', hseat', htopic, htaken⟩ := h.seat v seat hseat
    obtain ⟨seat'', hseat'', htopic', htaken'⟩ := h'.seat v seat' hseat'
    exact ⟨seat'', hseat'', htopic'.trans htopic, htaken.trans htaken'⟩
  coming v seat hseat p hp := by
    obtain ⟨seat', hseat', htopic, -⟩ := h.seat v seat hseat
    rw [← htopic] at hp
    -- what is coming later on was coming then, or was sent in between
    rcases h'.coming v seat' hseat' p hp with hp | hp
    · exact h.coming v seat hseat p (htopic ▸ hp)
    · exact .inr (htopic ▸ hp)

theorem mono (h : f.Moves f' P) (himp : ∀ t p, P t p → Q t p) : f.Moves f' Q :=
  ⟨h.faithful, h.present, h.seat,
    fun v seat hseat p hp => (h.coming v seat hseat p hp).imp_right (himp _ _)⟩

end Moves

section Turns

variable {f : Feed} {t : Topic} {v : ViewerId} {seat : Seat} {p : String}

theorem log_publish {b : MemoryBroker} (h : f.broker.publish t p = .ok b) (t' : Topic) :
    (f.step (.publish t p)).log t' = if t' = t then f.log t ++ [p] else f.log t' := by
  simp only [step, h, log, Table.get?_set]
  split <;> rfl

theorem log_handOut (r : Option Delivery × MemoryBroker) : (f.handOut t r).log = f.log := by
  unfold handOut
  split <;> rfl

/-- Only publishing adds to what a topic has accepted. -/
theorem log_step {turn : Turn} (h : ∀ t p, turn ≠ .publish t p) : (f.step turn).log = f.log := by
  cases turn with
  -- only a publish is entered into the log
  | publish t p => exact absurd rfl (h t p)
  | consume t =>
    simp only [step]
    split
    · exact log_handOut _
    · rfl
  | resume t id =>
    simp only [step]
    split
    · exact log_handOut _
    · rfl
  | take v =>
    simp only [step]
    split <;> rfl
  | declare t =>
    simp only [step]
    split <;> rfl
  | _ => rfl

/-- The queues of viewers stay, also when the viewers are gone. -/
theorem present_step (h : f.Faithful) (turn : Turn) (hv : (f.registry.viewers.get? v).isSome) :
    ((f.step turn).registry.viewers.get? v).isSome := by
  -- handing out drops viewers from a topic but not from the registry
  have hhandOut : ∀ t r, ((f.handOut t r).registry.viewers.get? v).isSome := by
    intro t r
    unfold handOut
    split
    · exact hv
    · rw [Registry.viewer_fanOut h.distinct]
      split
      · rw [Option.isSome_map]
        exact hv
      · exact hv
  -- no turn takes a viewer out of the registry
  cases turn with
  | consume t =>
    simp only [step]
    split
    · exact hhandOut _ _
    · exact hv
  | resume t id =>
    simp only [step]
    split
    · exact hhandOut _ _
    · exact hv
  | join t buffer =>
    change ((f.registry.viewers.set f.registry.nextViewer _).get? v).isSome
    rw [Table.get?_set]
    split
    · rfl
    · exact hv
  | take v' =>
    rcases f.registry.next_cases v' with ⟨viewer, q, rest, -, -, hnext⟩ | ⟨hnone, -, hviewers⟩
    · simp only [step, hnext, Table.get?_set]
      split
      · rfl
      · exact hv
    · simp only [step, hviewers]
      exact hv
  | leave t v' => simpa only [step, Registry.viewers_takeOut] using hv
  | prune t => simpa only [step, Registry.viewers_prune] using hv
  | close v' | detachSocket v' =>
    change ((f.registry.viewers.modify v' _).get? v).isSome
    rw [Table.get?_modify]
    split
    · rw [Option.isSome_map]
      exact hv
    · exact hv
  | publish t p | declare t =>
    simp only [step]
    split <;> exact hv
  | _ => exact hv

/-- Nobody gives up a seat, and what is taken stays taken. -/
theorem seat_step (h : f.Faithful) (hseat : f.seats.get? v = some seat) (turn : Turn) :
    ∃ seat', (f.step turn).seats.get? v = some seat' ∧ seat'.topic = seat.topic ∧
      seat.taken.Sublist seat'.taken := by
  have hsame : ∀ f' : Feed, f'.seats = f.seats → ∃ seat', f'.seats.get? v = some seat' ∧
      seat'.topic = seat.topic ∧ seat.taken.Sublist seat'.taken := by
    rintro f' hf'
    rw [hf']
    exact ⟨seat, hseat, rfl, .refl _⟩
  have hhandOut : ∀ t r, (f.handOut t r).seats = f.seats := by
    intro t r
    unfold handOut
    split <;> rfl
  cases turn with
  | join t buffer =>
    -- the new viewer is nobody who has a seat
    have hne : v ≠ f.registry.nextViewer := by
      rintro rfl
      rw [h.fresh _ (Nat.le_refl _)] at hseat
      cases hseat
    refine ⟨seat, ?_, rfl, .refl _⟩
    exact (Table.get?_set ..).trans ((if_neg hne).trans hseat)
  | take v' =>
    simp only [step]
    -- only the viewer that takes a payload writes to its seat
    split
    · rename_i q _
      refine ⟨if v = v' then { seat with taken := seat.taken ++ [q] } else seat, ?_, ?_, ?_⟩
      · rw [Table.get?_modify, hseat]
        split <;> rfl
      · split <;> rfl
      · split
        · exact List.sublist_append_left _ _
        · exact .refl _
    · exact hsame _ rfl
  | consume t =>
    simp only [step]
    split
    · exact hsame _ (hhandOut _ _)
    · exact hsame _ rfl
  | resume t id =>
    simp only [step]
    split
    · exact hsame _ (hhandOut _ _)
    · exact hsame _ rfl
  | publish t p | declare t =>
    simp only [step]
    split <;> exact hsame _ rfl
  | _ => exact hsame _ rfl

/-- What is fanned out was unread in the queue of the topic. -/
theorem coming_handOut (h : f.Faithful) (hseat : f.seats.get? v = some seat) (t : Topic) (id : Nat)
    (hp : (f.handOut t (f.broker.pop t id)).Coming seat.topic v p) : f.Coming seat.topic v p := by
  rcases hpop : f.broker.pop t id with ⟨_ | d, broker⟩
  -- nothing was read, so nothing moved
  · rw [hpop] at hp
    rw [MemoryBroker.pop_none hpop] at hp
    exact hp
  · obtain ⟨hlast, hbefore, hafter, -, hothers⟩ := (h.lastOnly t).pop hpop
    rw [hpop] at hp
    rcases hp with ⟨viewer', hviewer', hp⟩ | ⟨hdepth, hp⟩
    · change (f.registry.fanOut t d.payload).2.viewers.get? v = some viewer' at hviewer'
      rw [Registry.viewer_fanOut h.distinct] at hviewer'
      split at hviewer'
      · rename_i hlisted
        -- the viewer has one topic only, and this is it
        obtain ⟨seat', hseat', htopic⟩ := h.seated t v hlisted
        rw [hseat] at hseat'
        cases hseat'
        obtain ⟨viewer, hviewer, rfl⟩ := Option.map_eq_some_iff.mp hviewer'
        unfold Viewer.offer at hp
        split at hp
        · rcases List.mem_append.mp hp with hp | hp
          · exact .inl ⟨viewer, hviewer, hp⟩
          · rw [List.mem_singleton] at hp
            -- it is the payload that was read
            refine .inr ⟨?_, ?_⟩
            · rw [htopic, hbefore]
              exact Nat.one_ne_zero
            · rw [htopic, hp]
              exact hlast
        · exact .inl ⟨viewer, hviewer, hp⟩
      · exact .inl ⟨viewer', hviewer', hp⟩
    -- the queue of the topic was emptied, and the others are as they were
    · change broker.depth seat.topic ≠ 0 at hdepth
      by_cases htopic : seat.topic = t
      · rw [htopic] at hdepth
        exact absurd hafter hdepth
      · rw [MemoryBroker.depth_congr (hothers _ htopic)] at hdepth
        exact .inr ⟨hdepth, hp⟩

/-- Nothing comes a viewer's way but what is published on its topic. -/
theorem coming_step (h : f.Faithful) (hseat : f.seats.get? v = some seat) {turn : Turn}
    (hp : (f.step turn).Coming seat.topic v p) :
    f.Coming seat.topic v p ∨ turn = .publish seat.topic p := by
  -- it is enough to look at the queue of the viewer and that of the topic
  have hsame : ∀ {f' : Feed}, f'.Coming seat.topic v p → f'.accepted = f.accepted →
      (∀ viewer', f'.registry.viewers.get? v = some viewer' → ∃ viewer,
        f.registry.viewers.get? v = some viewer ∧ viewer'.waiting.Sublist viewer.waiting) →
      f'.broker.depth seat.topic = f.broker.depth seat.topic → f.Coming seat.topic v p := by
    intro f' hp haccepted hviewers hdepth
    rcases hp with ⟨viewer', hviewer', hp⟩ | ⟨hne, hp⟩
    · obtain ⟨viewer, hviewer, hsub⟩ := hviewers viewer' hviewer'
      exact .inl ⟨viewer, hviewer, hsub.subset hp⟩
    · rw [hdepth] at hne
      rw [log, haccepted] at hp
      exact .inr ⟨hne, hp⟩
  have hself : ∀ viewer', f.registry.viewers.get? v = some viewer' → ∃ viewer,
      f.registry.viewers.get? v = some viewer ∧ viewer'.waiting.Sublist viewer.waiting :=
    fun viewer' hviewer' => ⟨viewer', hviewer', .refl _⟩
  cases turn with
  | publish t q =>
    cases hpublish : f.broker.publish t q with
    | error e =>
      simp only [step, hpublish] at hp
      exact .inl hp
    | ok broker =>
      -- the new payload takes the place of the one that was unread
      rcases hp with ⟨viewer', hviewer', hp⟩ | ⟨hdepth, hp⟩
      · simp only [step, hpublish] at hviewer'
        exact .inl (.inl ⟨viewer', hviewer', hp⟩)
      · rw [log_publish hpublish] at hp
        split at hp
        · rename_i htopic
          rw [List.getLast?_concat] at hp
          cases hp
          exact .inr (htopic ▸ rfl)
        · rename_i htopic
          obtain ⟨q', m, -, -, hqueues⟩ := MemoryBroker.publish_spec hpublish
          simp only [step, hpublish] at hdepth
          have hdepth' : broker.depth seat.topic = f.broker.depth seat.topic :=
            MemoryBroker.depth_congr (by rw [hqueues, if_neg htopic])
          rw [hdepth'] at hdepth
          exact .inl (.inr ⟨hdepth, hp⟩)
  | consume t =>
    simp only [step] at hp
    split at hp
    · rename_i r hr
      obtain ⟨id, -, rfl⟩ := MemoryBroker.receive_eq_pop hr
      exact .inl (coming_handOut h hseat t id hp)
    · exact .inl hp
  | resume t id =>
    simp only [step] at hp
    split at hp
    · exact .inl (coming_handOut h hseat t id hp)
    · exact .inl hp
  | join t buffer =>
    refine .inl (hsame hp rfl (fun viewer' hviewer' => ?_) rfl)
    -- the new viewer is somebody else
    have hne : v ≠ f.registry.nextViewer := by
      rintro rfl
      rw [h.fresh _ (Nat.le_refl _)] at hseat
      cases hseat
    have hold : (f.step (.join t buffer)).registry.viewers.get? v = f.registry.viewers.get? v :=
      (Table.get?_set ..).trans (if_neg hne)
    exact hself viewer' (hold ▸ hviewer')
  -- none of the other turns adds to the viewer's queue or to the topic's
  | leave t v' =>
    refine .inl (hsame hp rfl (fun viewer' hviewer' => hself viewer' ?_) rfl)
    simpa only [step, Registry.viewers_takeOut] using hviewer'
  | prune t =>
    refine .inl (hsame hp rfl (fun viewer' hviewer' => hself viewer' ?_) rfl)
    simpa only [step, Registry.viewers_prune] using hviewer'
  | close v' =>
    refine .inl (hsame hp rfl (fun viewer' hviewer' => ?_) rfl)
    simp only [step, Registry.close, Table.get?_modify] at hviewer'
    split at hviewer'
    · obtain ⟨viewer, hviewer, rfl⟩ := Option.map_eq_some_iff.mp hviewer'
      exact ⟨viewer, hviewer, .refl _⟩
    · exact hself viewer' hviewer'
  | detachSocket v' =>
    refine .inl (hsame hp rfl (fun viewer' hviewer' => ?_) rfl)
    simp only [step, Registry.detachSocket, Table.get?_modify] at hviewer'
    split at hviewer'
    · obtain ⟨viewer, hviewer, rfl⟩ := Option.map_eq_some_iff.mp hviewer'
      exact ⟨viewer, hviewer, List.nil_sublist _⟩
    · exact hself viewer' hviewer'
  | take v' =>
    rcases f.registry.next_cases v' with ⟨viewer, q, rest, hviewer, hwaiting, hnext⟩ |
      ⟨hnone, -, hviewers⟩
    · simp only [step, hnext] at hp
      refine .inl (hsame hp rfl (fun viewer' hviewer' => ?_) rfl)
      simp only [Table.get?_set] at hviewer'
      split at hviewer'
      · rename_i hv
        cases hviewer'
        exact ⟨viewer, hv ▸ hviewer, hwaiting ▸ List.sublist_cons_self _ _⟩
      · exact hself viewer' hviewer'
    · have hregistry : f.step (.take v') = { f with registry := (f.registry.next v').2 } := by
        simp only [step]
      rw [hregistry] at hp
      refine .inl (hsame hp rfl (fun viewer' hviewer' => hself viewer' ?_) rfl)
      exact hviewers v ▸ hviewer'
  | connect =>
    refine .inl (hsame hp rfl hself (MemoryBroker.depth_congr ?_))
    simp only [step, MemoryBroker.queues_connect]
  | teardown => exact .inl (hsame hp rfl hself (f.broker.depth_teardown _))
  | declare t =>
    simp only [step] at hp
    split at hp
    · rename_i broker hdeclare
      exact .inl (hsame hp rfl hself (MemoryBroker.depth_declare hdeclare _))
    · exact .inl hp
  | sever | refuse => exact .inl (hsame hp rfl hself rfl)

/-- A turn moves the feed, and sends at most what it publishes. -/
theorem moves_step (h : f.Faithful) (turn : Turn) :
    f.Moves (f.step turn) fun t p => turn = .publish t p :=
  ⟨faithful_step h turn, fun _ hv => present_step h turn hv,
    fun _ _ hseat => seat_step h hseat turn, fun _ _ hseat _ hp => coming_step h hseat hp⟩

end Turns

end Occupancy.Feed
