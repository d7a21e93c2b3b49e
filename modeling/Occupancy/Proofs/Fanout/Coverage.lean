import Occupancy.Proofs.Fanout.Debts

/-!
# Every topic with viewers has its consumer

Main statements: `served_iff_not_refused` for any failures, and `one_consumer`. The one way in which a topic
with viewers stays without a consumer is that the declaration of its queue was refused: the error is no
loss of the connection, so the link stays up, nobody restarts anything, and the consumer has ended in its
slot.
-/

namespace Occupancy

/-- A consumer is refused only by an error. -/
theorem Floor.met_ne_refused {f : Floor} {luck : Luck} (h : luck.Faultless) (c : ConsumeCall) :
    Course.met c (f.consume luck c).1 ≠ .refused := by
  have hmeets := f.meets_consume luck c
  intro hk
  rw [hk] at hmeets
  cases hmeets with
  | declare herror =>
    rw [h.1] at herror
    cases herror

namespace Relay

variable {w : Relay} {t : Topic} {v : ViewerId} {g : Generation} {luck : Luck}

/-! ## With failures -/

/-- Once every keeper is settled, a topic with a viewer that has arrived has a consumer in its slot, which
serves it or was refused. -/
theorem serves_or_refused (turns : List Turn) (settled : (run turns).Settled)
    (registered : v ∈ (run turns).registry.snapshot t) (arrived : ¬ (run turns).Arriving t v) :
    ∃ g, (run turns).supervisor.slots.get? t = some g ∧
      (run turns).supervisor.isCancelled g = false ∧
      ((run turns).Serves t g ∨ (run turns).Refused g) := by
  have horder := orderly_run turns
  have hattended := attended_run turns
  obtain ⟨hup, hsettled⟩ := settled
  cases hslot : (run turns).supervisor.slots.get? t with
  | none =>
    -- a wanted topic without a slot has somebody who is to start its consumer, but all are settled
    obtain ⟨k, hk, hstarts⟩ := hattended.starts t v hup registered arrived hslot
    exact absurd hstarts (Keeper.not_starts_of_isSettled (hsettled k hk))
  | some g =>
    obtain ⟨r, c, hr, hc, htopic, hcancelled, hretired, hnoticed⟩ := horder.of_slot hslot
    refine ⟨g, rfl, by rwa [Supervisor.isCancelled_of_get? hc], ?_⟩
    cases hk : r.course with
    | live =>
      -- a live consumer has not stopped
      have hfinished : c.finished = false := by
        cases hfinished : c.finished with
        | false => rfl
        | true => exact absurd hk ((horder.sound g r c hr hc).stopped hfinished)
      exact .inl ⟨r, c, hr, hc, htopic, Consumer.isRunning_iff.mpr ⟨hcancelled, hfinished⟩, hretired⟩
    | refused => exact .inr ⟨r, hr, hk⟩
    | lost =>
      -- likewise for a consumer the link was lost under: somebody is to drop it
      obtain ⟨k, hk, hdrops⟩ := hattended.drops t g r hup hslot hr hk
      exact absurd hdrops (Keeper.not_drops_of_isSettled (hsettled k hk))
    | cancelled => exact absurd hk hnoticed
    | retired => exact absurd hk hretired

/-- **Who is left without a consumer.** For any interleaving and any failures: once the link is up and
every keeper has restarted the consumers since, a topic with a viewer that has arrived has its consumer,
unless the one in its slot was refused the declaration of the queue and has ended. -/
theorem served_iff_not_refused (turns : List Turn) (settled : (run turns).Settled)
    (registered : v ∈ (run turns).registry.snapshot t) (arrived : ¬ (run turns).Arriving t v) :
    (∃ g, (run turns).Serves t g) ↔
      ¬ ∃ g, (run turns).supervisor.slots.get? t = some g ∧ (run turns).Refused g ∧
        (run turns).supervisor.isRunning g = false := by
  have horder := orderly_run turns
  constructor
  -- the one that serves holds the slot, and it has not stopped
  · rintro ⟨g, hserves⟩ ⟨g', hslot, -, hstopped⟩
    rw [slot_of_serves horder hserves] at hslot
    cases hslot
    obtain ⟨r, c, -, hc, -, hrunning, -⟩ := hserves
    rw [Supervisor.isRunning_of_get? hc, hrunning] at hstopped
    cases hstopped
  · intro hnot
    obtain ⟨g, hslot, -, hserves | hrefused⟩ := serves_or_refused turns settled registered arrived
    · exact ⟨g, hserves⟩
    · obtain ⟨r, c, hr, hc, htopic, -, hretired, -⟩ := horder.of_slot hslot
      cases hrunning : c.isRunning with
      | true => exact ⟨g, r, c, hr, hc, htopic, hrunning, hretired⟩
      | false =>
        rw [← Supervisor.isRunning_of_get? hc] at hrunning
        exact absurd ⟨g, hslot, hrefused, hrunning⟩ hnot

/-- A manager connects, restarts the consumers, flushes and waits. -/
def connected : List Turn :=
  .manage :: List.replicate 10 (.keeper 0 {})

/-- While the link is up, the first viewer comes to a topic. -/
def watched (t : Topic) : List Turn :=
  connected ++ [.newViewer 4, .arrive t 1, .arrival 0, .arrival 0]

/-- The consumer that was started for the viewer is refused the declaration, reports that and ends. -/
def refusedAtOnce (t : Topic) : List Turn :=
  watched t ++ [.consumer 1 { declared := .error (.protocol "queue rejected") }, .consumer 1 {},
    .consumer 1 {}]

/-- A watched room is served. -/
theorem served_iff_not_refused_watched :
    ∃ g, (run (watched (.room 7))).Serves (.room 7) g :=
  (served_iff_not_refused (watched (.room 7)) (v := 1) ⟨rfl, by decide⟩ (by decide)
    (by rintro ⟨a, ha, -⟩; cases ha)).mpr (by
      rintro ⟨g, hslot, -, hstopped⟩
      cases (show some 1 = some g from hslot)
      cases hstopped)

/-- A refused declaration leaves the viewer of the topic without any consumer, for good as far as the
link and its manager are concerned. -/
theorem not_always_served :
    ¬ ∀ (turns : List Turn) (t : Topic) (v : ViewerId), (run turns).Settled →
      (run turns).arrivals = [] → v ∈ (run turns).registry.snapshot t →
      ∃ g c, (run turns).supervisor.consumers.get? g = some c ∧ c.topic = t ∧ c.isRunning = true := by
  intro h
  obtain ⟨g, c, hc, -, hrunning⟩ :=
    h (refusedAtOnce (.room 7)) (.room 7) 1 ⟨rfl, by decide⟩ rfl (by decide)
  -- the only consumer there ever was has finished
  have honly : (run (refusedAtOnce (.room 7))).supervisor.consumers.values =
      [⟨.room 7, false, true⟩] := rfl
  have hmem := Table.mem_values_iff.mpr ⟨g, hc⟩
  rw [honly, List.mem_singleton] at hmem
  rw [hmem] at hrunning
  cases hrunning

/-! ## Without failures -/

/-- Nobody was refused the declaration of a queue. -/
def Unrefused (w : Relay) : Prop :=
  ∀ g, ¬ w.Refused g

/-- A consumer that starts has not been refused anything. -/
theorem unrefused_enter (h : w.Unrefused) (t : Topic) : (w.enter t).2.Unrefused := by
  rcases w.enter_cases t with ⟨-, henter⟩ | ⟨g₀, -, henter⟩ <;> rw [henter]
  · exact h
  · rintro g ⟨r, hr, hrefused⟩
    change (w.readers.set g₀ ⟨t, Consume.start t, .live⟩).get? g = some r at hr
    rw [Table.get?_set] at hr
    split at hr
    · cases hr
      cases hrefused
    · exact h g ⟨r, hr, hrefused⟩

/-- Without a fault of the broker no turn of a consumer ends in a refusal. -/
theorem unrefused_consumerTurn (h : w.Unrefused) (hluck : luck.Faultless) :
    (w.consumerTurn g luck).Unrefused := by
  rcases w.consumerTurn_cases g luck with hsame | ⟨r, hr, hcases⟩
  · rwa [hsame]
  -- whoever takes the turn was not refused before it
  have hr₀ : r.course ≠ .refused := fun hrefused => h g ⟨r, hr, hrefused⟩
  rcases hcases with ⟨-, hturn⟩ | ⟨-, hturn⟩ | ⟨call, next, -, hturn⟩ <;> rw [hturn] <;>
    rintro g' ⟨r', hr', hrefused⟩
  · rw [Table.get?_set] at hr'
    split at hr'
    · cases hr'
      exact hr₀ hrefused
    · exact h g' ⟨r', hr', hrefused⟩
  · exact h g' ⟨r', hr', hrefused⟩
  · rw [Table.get?_set] at hr'
    split at hr'
    · cases hr'
      by_cases hk : r.course = .live
      -- a call that meets no fault is not refused
      · rw [hk, Course.after, if_pos rfl] at hrefused
        exact Floor.met_ne_refused hluck call hrefused
      · exact hr₀ (by rwa [Course.after_of_ne_live hk] at hrefused)
    · exact h g' ⟨r', hr', hrefused⟩

/-- Without a fault of the broker no turn ends in a refusal. -/
theorem unrefused_step {turn : Turn} (faultless : turn.Faultless) (h : w.Unrefused) :
    (w.step turn).Unrefused := by
  cases turn with
  | arrival i =>
    simp only [step, arrivalTurn]
    split
    · exact h
    · split
      · exact unrefused_enter h _
      · split <;> exact h
  | consumer g luck => exact unrefused_consumerTurn h faultless
  | keeper i luck =>
    simp only [step, keeperTurn]
    split
    · exact h
    · rename_i k _
      have hkeep : (w.keep luck k).2.Unrefused := by
        rcases w.keep_cases luck k with hkeep | ⟨c, hkeep⟩ | ⟨t, hkeep⟩ <;> rw [hkeep]
        · exact h
        · exact h
        -- the keeper changes consumers only by starting one
        · exact unrefused_enter h t
      exact hkeep
  | newViewer | arrive | takeOut | prune | close | detachSocket | take | manage | restart | shutdown
  | report => exact h

/-- While the broker answers every call, no consumer is refused. -/
theorem unrefused_run (turns : List Turn) (faultless : ∀ turn ∈ turns, turn.Faultless) :
    (run turns).Unrefused := by
  refine run_induction (P := Unrefused) (fun g => ?_)
    (fun w turn faultless h => unrefused_step faultless h) turns faultless
  rintro ⟨r, hr, -⟩
  cases hr

/-- **One consumer.** For any interleaving and any failures: two consumers that serve a topic are one, it
is the one in the slot of the topic, and a turn of a consumer removes no other from its slot. While the
broker answers every call, the link is up and every keeper has settled, every topic with a viewer that has
arrived has such a consumer. Keepers are unsettled from the moment the link comes up to the end of the restart
that follows, and for good once a shutdown was begun. -/
theorem one_consumer (turns : List Turn) :
    (∀ t g g', (run turns).Serves t g → (run turns).Serves t g' → g = g') ∧
    (∀ t g, (run turns).Serves t g → (run turns).supervisor.slots.get? t = some g) ∧
    (∀ g luck t g', (run turns).supervisor.slots.get? t = some g' → g' ≠ g →
      ((run turns).step (.consumer g luck)).supervisor.slots.get? t = some g') ∧
    ((∀ turn ∈ turns, turn.Faultless) → (run turns).Settled →
      ∀ t v, v ∈ (run turns).registry.snapshot t → ¬ (run turns).Arriving t v →
        ∃ g, (run turns).Serves t g) := by
  have horder := orderly_run turns
  refine ⟨fun t g g' hg hg' => ?_, fun t g => slot_of_serves horder,
    fun g luck t g' hslot hne => slot_consumerTurn horder hslot hne,
    fun faultless settled t v registered arrived => ?_⟩
  · have hslot := slot_of_serves horder hg
    -- both hold the topic's slot, and the slot holds one generation
    rw [slot_of_serves horder hg'] at hslot
    exact (Option.some.inj hslot).symm
  · obtain ⟨g, -, -, hserves | hrefused⟩ := serves_or_refused turns settled registered arrived
    · exact ⟨g, hserves⟩
    -- without faults nothing is refused, so the first alternative is left
    · exact absurd hrefused (unrefused_run turns faultless g)

/-- The consumer of a watched room can be pointed at. -/
theorem one_consumer_watched :
    (run (watched (.room 7))).Settled ∧ ∃ g, (run (watched (.room 7))).Serves (.room 7) g := by
  have settled : (run (watched (.room 7))).Settled := ⟨rfl, by decide⟩
  refine ⟨settled, (one_consumer (watched (.room 7))).2.2.2 (fun turn hturn => ?_) settled (.room 7) 1
    (by decide) (by rintro ⟨a, ha, -⟩; cases ha)⟩
  simp only [watched, connected, List.replicate, List.cons_append, List.nil_append, List.mem_cons,
    List.not_mem_nil, or_false] at hturn
  rcases hturn with rfl | rfl | rfl | rfl | rfl | rfl | rfl | rfl | rfl | rfl | rfl | rfl | rfl | rfl |
    rfl <;> simp [Turn.Faultless, Luck.Faultless]

end Relay

end Occupancy
