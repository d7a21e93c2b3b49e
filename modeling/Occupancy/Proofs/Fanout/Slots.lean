import Occupancy.Proofs.Fanout.Relay
import Occupancy.Proofs.Table

/-!
# One consumer for each topic

`Orderly` says how the slots, the consumers and the tasks that run for them belong together: a consumer is
in the slot of its topic exactly while it was neither told to stop nor has retired. Main statement:
`orderly_run`. Every turn of anybody keeps this, so that two consumers that serve one topic are one.

A consumer acts on its own slot only because of how its program is made. That is `Course.Fits`, a property
of what is left of the program, which every reply hands on.
-/

namespace Occupancy

/-! ## What consumers ask for -/

/-- Is the request about this topic and this generation only? -/
def ConsumeCall.IsBy (t : Topic) (g : Generation) : ConsumeCall → Prop
  | .declare t' | .fanOut t' _ | .ack t' _ | .count t' | .release t' => t' = t
  | .receive t' g' | .retire t' g' => t' = t ∧ g' = g
  | .pause g' => g' = g
  | .report _ => True

/-- Is the request one that is also made by a consumer about to end? -/
def ConsumeCall.isFarewell : ConsumeCall → Bool
  | .report _ | .release _ => true
  | _ => false

namespace Course

variable {t : Topic} {g : Generation} {k : Course} {e : BrokerError}

/-- What is left of a stretch fits the course of its consumer: it speaks for the consumer alone, and it
goes on exactly if the consumer is live at its end. -/
def Fits (t : Topic) (g : Generation) : Consume.Stretch → Course → Prop
  | .done .again, k => k = .live
  | .done .stopped, k => k ≠ .live
  | .ask c next, k =>
    c.IsBy t g ∧ (k = .live ∨ c.isFarewell = true) ∧ ∀ r, Fits t g (next r) (k.after c r)

theorem after_of_ne_live (h : k ≠ live) (c : ConsumeCall) (r : c.Reply) : k.after c r = k :=
  if_neg h

/-- Giving up fits a live consumer that reports a loss, and any consumer that is not live. -/
theorem fits_giveUp (h : e.isConnectionLoss = true ∨ k ≠ live) : Fits t g (Consume.giveUp e) k := by
  refine ⟨trivial, .inr rfl, fun r => ?_⟩
  by_cases hk : k = live
  · subst hk
    have hloss := h.resolve_right fun hne => hne rfl
    simp [Fits, after, met, hloss]
  · rw [after_of_ne_live hk]
    exact hk

/-- A consumer that starts is live until its first declaration is refused. -/
theorem fits_start (t : Topic) (g : Generation) : Fits t g (Consume.start t) live := by
  refine ⟨rfl, .inl rfl, fun r => ?_⟩
  cases r with
  | ok _ => exact (rfl : met (.declare t) (.ok ()) = live)
  | error e =>
    -- a loss is reported by a live consumer, anything else by a refused one
    refine fits_giveUp ?_
    cases hloss : e.isConnectionLoss with
    | true => exact .inl rfl
    | false => exact .inr (by simp [after, met, hloss])

/-- The end of a round fits a live consumer. -/
theorem fits_finishRound (t : Topic) (g : Generation) : Fits t g (Consume.finishRound t g) live := by
  refine ⟨rfl, .inl rfl, fun (n : Nat) => ?_⟩
  change Fits t g (if n = 0 then _ else _) live
  -- with no viewers left it tries to retire, and only then lets go of the queue
  split
  · refine ⟨⟨rfl, rfl⟩, .inl rfl, fun r => ?_⟩
    cases r with
    | true => exact ⟨rfl, .inr rfl, fun _ => by simp [Fits, met, after]⟩
    | false => exact (rfl : met (.retire t g) false = live)
  · exact (rfl : met (.count t) n = live)

/-- Handling a delivery fits a live consumer. -/
theorem fits_handle (t : Topic) (g : Generation) (d : Delivery) :
    Fits t g (Consume.handle t g d) live := by
  -- the acknowledgement is the only call whose failure matters
  refine ⟨rfl, .inl rfl, fun _ => ⟨rfl, .inl rfl, fun r => ?_⟩⟩
  cases r with
  | ok _ => exact fits_finishRound t g
  | error e =>
    change Fits t g (if e.isConnectionLoss then _ else _) live
    split
    · rename_i hloss
      exact fits_giveUp (.inl hloss)
    · exact fits_finishRound t g

/-- Declaring the queue again fits a live consumer. -/
theorem fits_redeclare (t : Topic) (g : Generation) : Fits t g (Consume.redeclare t g) live := by
  refine ⟨rfl, .inl rfl, fun r => ?_⟩
  -- woken while it paused means cancelled
  cases r with
  | true => simp [Fits, after, met]
  | false =>
    refine ⟨rfl, .inl rfl, fun r => ?_⟩
    cases r with
    | ok _ => exact fits_finishRound t g
    | error e =>
      refine fits_giveUp ?_
      cases hloss : e.isConnectionLoss with
      | true => exact .inl rfl
      | false => exact .inr (by simp [met, after, hloss])

/-- A round fits a live consumer. -/
theorem fits_round (t : Topic) (g : Generation) : Fits t g (Consume.round t g) live := by
  refine ⟨⟨rfl, rfl⟩, .inl rfl, fun r => ?_⟩
  cases r with
  | cancelled => simp [Fits, after, met]
  | message d =>
    cases d with
    | some d => exact fits_handle t g d
    | none => exact fits_finishRound t g
  | failed e =>
    change Fits t g (if e.isConnectionLoss then _ else _) live
    split
    · rename_i hloss
      exact fits_giveUp (.inl hloss)
    · exact fits_redeclare t g

end Course

/-! ## The invariant -/

/-- A consumer task and what is known of it, against the slots. -/
structure Reader.Sound (slots : Table Topic Generation) (g : Generation) (r : Reader) (c : Consumer) :
    Prop where
  fits : Course.Fits r.topic g r.rest r.course
  slot : slots.get? r.topic = some g ↔ c.cancelled = false ∧ r.course ≠ .retired
  noticed : r.course = .cancelled → c.cancelled = true
  stopped : c.finished = true → r.course ≠ .live

/-- The slots, the consumers and their tasks belong together. -/
structure Orderly (s : Supervisor) (readers : Table Generation Reader) : Prop where
  agree : ∀ g, (readers.get? g).map Reader.topic = (s.consumers.get? g).map Consumer.topic
  fresh : ∀ g, s.nextGeneration ≤ g → readers.get? g = none
  known : ∀ t g, s.slots.get? t = some g → ∃ r, readers.get? g = some r ∧ r.topic = t
  sound : ∀ g r c, readers.get? g = some r → s.consumers.get? g = some c → r.Sound s.slots g c

namespace Orderly

variable {s s' : Supervisor} {readers readers' : Table Generation Reader} {t : Topic} {g : Generation}
  {r : Reader} {c : Consumer}

/-- Whoever is in the book is one of the supervisor's. -/
theorem exists_consumer (h : Orderly s readers) (hr : readers.get? g = some r) :
    ∃ c, s.consumers.get? g = some c ∧ c.topic = r.topic := by
  have hagree := h.agree g
  rw [hr] at hagree
  cases hc : s.consumers.get? g with
  | none => rw [hc] at hagree; cases hagree
  | some c =>
    rw [hc] at hagree
    exact ⟨c, rfl, (Option.some.inj hagree).symm⟩

/-- A consumer in a slot was not told to stop and has not retired. -/
theorem of_slot (h : Orderly s readers) (hslot : s.slots.get? t = some g) :
    ∃ r c, readers.get? g = some r ∧ s.consumers.get? g = some c ∧ r.topic = t ∧
      c.cancelled = false ∧ r.course ≠ .retired ∧ r.course ≠ .cancelled := by
  obtain ⟨r, hr, rfl⟩ := h.known t g hslot
  obtain ⟨c, hc, -⟩ := h.exists_consumer hr
  have sound := h.sound g r c hr hc
  obtain ⟨hcancelled, hretired⟩ := sound.slot.mp hslot
  refine ⟨r, c, hr, hc, rfl, hcancelled, hretired, fun hnoticed => ?_⟩
  rw [sound.noticed hnoticed] at hcancelled
  cases hcancelled

/-! ## One consumer changes -/

/-- One consumer goes on while the slots stay as they are. -/
theorem update (h : Orderly s readers) (hr : readers.get? g = some r)
    (hc : s.consumers.get? g = some c) {r' : Reader} {c' : Consumer}
    (hreaders : ∀ g', readers'.get? g' = if g' = g then some r' else readers.get? g')
    (hconsumers : ∀ g', s'.consumers.get? g' = if g' = g then some c' else s.consumers.get? g')
    (topics : r'.topic = r.topic ∧ c'.topic = c.topic) (sound : r'.Sound s'.slots g c')
    (hnext : s'.nextGeneration = s.nextGeneration)
    (hslots : ∀ t' g', s'.slots.get? t' = some g' → s.slots.get? t' = some g')
    (others : ∀ g' r₁ c₁, g' ≠ g → readers.get? g' = some r₁ → s.consumers.get? g' = some c₁ →
      r₁.Sound s'.slots g' c₁) :
    Orderly s' readers' where
  agree g' := by
    -- the pair that is exchanged agrees as the old one did
    rw [hreaders, hconsumers]
    by_cases hg : g' = g
    · have hagree := h.agree g
      rw [hr, hc] at hagree
      simpa [hg, topics.1, topics.2] using hagree
    · simpa [hg] using h.agree g'
  fresh g' hg' := by
    rw [hnext] at hg'
    rw [hreaders, if_neg fun heq => ?_]
    · exact h.fresh g' hg'
    -- the generation exchanged is one that was given out
    · rw [heq] at hg'
      rw [h.fresh g hg'] at hr
      cases hr
  known t' g' hslot := by
    obtain ⟨r₁, hr₁, htopic⟩ := h.known t' g' (hslots t' g' hslot)
    rw [hreaders]
    by_cases hg : g' = g
    · subst hg
      rw [hr] at hr₁
      cases hr₁
      exact ⟨r', if_pos rfl, topics.1.trans htopic⟩
    · exact ⟨r₁, by rw [if_neg hg, hr₁], htopic⟩
  sound g' r₁ c₁ hr₁ hc₁ := by
    rw [hreaders] at hr₁
    rw [hconsumers] at hc₁
    by_cases hg : g' = g
    · rw [if_pos hg] at hr₁ hc₁
      cases hr₁
      cases hc₁
      exact hg ▸ sound
    · rw [if_neg hg] at hr₁ hc₁
      exact others g' r₁ c₁ hg hr₁ hc₁

/-- One consumer goes on and no slot changes. -/
theorem replace (h : Orderly s readers) (hr : readers.get? g = some r)
    (hc : s.consumers.get? g = some c) {r' : Reader} {c' : Consumer}
    (hreaders : ∀ g', readers'.get? g' = if g' = g then some r' else readers.get? g')
    (hconsumers : ∀ g', s'.consumers.get? g' = if g' = g then some c' else s.consumers.get? g')
    (topics : r'.topic = r.topic ∧ c'.topic = c.topic) (sound : r'.Sound s.slots g c')
    (hnext : s'.nextGeneration = s.nextGeneration) (hslots : s'.slots = s.slots) :
    Orderly s' readers' := by
  refine h.update hr hc hreaders hconsumers topics (hslots ▸ sound) hnext (fun _ _ => ?_)
    fun g' r₁ c₁ _ hr₁ hc₁ => ?_
  · rw [hslots]
    exact id
  · rw [hslots]
    exact h.sound g' r₁ c₁ hr₁ hc₁

/-! ## A slot changes hands -/

/-- A slot gets another consumer or none, and the consumer that it held is told to stop. -/
theorem handOver (h : Orderly s readers) (hr : readers.get? g = some r)
    (hc : s.consumers.get? g = some c) {x : Option Generation} (hx : x ≠ some g)
    {slots : Table Topic Generation}
    (hslots : ∀ t', slots.get? t' = if t' = t then x else s.slots.get? t') :
    r.Sound slots g (if s.slots.get? t = some g then c.cancel else c) := by
  have sound := h.sound g r c hr hc
  by_cases hheld : s.slots.get? t = some g
  -- the one that held the slot is cancelled, and the slot no longer its own
  · rw [if_pos hheld]
    obtain ⟨r₁, hr₁, htopic⟩ := h.known t g hheld
    rw [hr] at hr₁
    cases hr₁
    refine ⟨sound.fits, ?_, fun _ => rfl, sound.stopped⟩
    rw [hslots, if_pos htopic]
    exact ⟨fun heq => absurd heq hx, fun hlive => absurd hlive.1 (by simp [Consumer.cancel])⟩
  -- the others keep their slots, and stay as live as they were
  · rw [if_neg hheld]
    refine ⟨sound.fits, ?_, sound.noticed, sound.stopped⟩
    rw [hslots, ← sound.slot]
    by_cases htopic : r.topic = t
    · rw [if_pos htopic, htopic]
      exact ⟨fun heq => absurd heq hx, fun heq => absurd heq hheld⟩
    · rw [if_neg htopic]

/-- Starting a consumer keeps the order. -/
theorem ensure (h : Orderly s readers) (hs : (s.ensure t).1 = some g) :
    Orderly (s.ensure t).2 (readers.set g ⟨t, Consume.start t, .live⟩) := by
  obtain ⟨hg, -, hnext, hslots, hconsumers⟩ := Supervisor.ensure_started hs
  have hfresh : readers.get? g = none := h.fresh g (hg ▸ Nat.le_refl _)
  refine ⟨fun g' => ?_, fun g' hg' => ?_, fun t' g' hslot => ?_, fun g' r c hr hc => ?_⟩
  -- the new generation is entered on both sides, and the one it replaces is cancelled
  · rw [Table.get?_set, hconsumers]
    split
    · rfl
    · rw [h.agree]
      split
      · cases s.consumers.get? g' <;> rfl
      · rfl
  -- the next generation has not been given out
  · rw [hnext] at hg'
    rw [Table.get?_set, if_neg (Nat.ne_of_gt hg')]
    exact h.fresh g' (hg ▸ Nat.le_of_succ_le hg')
  · rw [hslots] at hslot
    rw [Table.get?_set]
    split at hslot
    · rename_i htopic
      cases hslot
      exact ⟨_, if_pos rfl, htopic.symm⟩
    · obtain ⟨r, hr, htopic⟩ := h.known t' g' hslot
      have hne : g' ≠ g := fun heq => by rw [heq, hfresh] at hr; cases hr
      exact ⟨r, by rw [if_neg hne, hr], htopic⟩
  · rw [Table.get?_set] at hr
    rw [hconsumers] at hc
    by_cases hne : g' = g
    · -- the new consumer is in its slot
      rw [if_pos hne] at hr hc
      cases hr
      cases hc
      refine ⟨Course.fits_start _ _, ?_, by simp, by simp⟩
      simp [hslots, hne]
    · rw [if_neg hne] at hr hc
      -- a generation that was there before is not the new one
      obtain ⟨c₀, hc₀, -⟩ := h.exists_consumer hr
      have hx : some g ≠ some g' := fun heq => hne (Option.some.inj heq).symm
      have sound := h.handOver hr hc₀ hx hslots
      rw [hc₀] at hc
      split at hc <;> cases hc <;> simpa [*] using sound

/-- Dropping a consumer keeps the order. -/
theorem drop (h : Orderly s readers) (t : Topic) : Orderly (s.drop t) readers := by
  obtain ⟨hnext, hslots, hconsumers⟩ := s.drop_spec t
  refine ⟨fun g => ?_, fun g hg => h.fresh g (hnext ▸ hg), fun t' g hslot => ?_,
    fun g r c hr hc => ?_⟩
  · rw [h.agree, hconsumers]
    split
    · cases s.consumers.get? g <;> rfl
    · rfl
  · rw [hslots] at hslot
    split at hslot
    · cases hslot
    · exact h.known t' g hslot
  -- a dropped consumer leaves its slot and is cancelled
  · obtain ⟨c₀, hc₀, -⟩ := h.exists_consumer hr
    have sound := h.handOver hr hc₀ (x := none) (Option.some_ne_none _).symm hslots
    rw [hconsumers, hc₀] at hc
    split at hc <;> cases hc <;> simpa [*] using sound

end Orderly

/-! ## Consumers take their turns -/

/-- What may become of a live consumer with a request, and why. -/
inductive Floor.Meets (f : Floor) (luck : Luck) : ConsumeCall → Course → Prop where
  | live (c : ConsumeCall) : Meets f luck c .live
  | receive {t : Topic} {g : Generation} (h : f.supervisor.isCancelled g = true) :
      Meets f luck (.receive t g) .cancelled
  | pause {g : Generation} (h : f.supervisor.isCancelled g = true) : Meets f luck (.pause g) .cancelled
  | retire {t : Topic} {g : Generation}
      (h : (f.supervisor.retire t g (f.registry.count t)).1 = true) :
      Meets f luck (.retire t g) .retired
  | report {e : BrokerError} (h : e.isConnectionLoss = true) : Meets f luck (.report e) .lost
  | declare {t : Topic} {e : BrokerError} (h : luck.declared = .error e) :
      Meets f luck (.declare t) .refused

/-- What a call makes of a consumer is what the floor's answer says. -/
theorem Floor.meets_consume (f : Floor) (luck : Luck) (c : ConsumeCall) :
    f.Meets luck c (Course.met c (f.consume luck c).1) := by
  cases c with
  | declare t =>
    simp only [consume]
    cases hdeclared : luck.declared with
    | ok _ => exact .live _
    | error e =>
      simp only [Course.met]
      split
      · exact .live _
      · exact .declare hdeclared
  | receive t g =>
    by_cases hcancelled : f.supervisor.isCancelled g = true
    · simp only [consume, if_pos hcancelled]
      exact .receive hcancelled
    · simp only [consume, if_neg hcancelled]
      split <;> exact .live _
  | pause g =>
    simp only [consume]
    cases hpaused : luck.noticed && f.supervisor.isCancelled g with
    | true => exact .pause (Bool.and_eq_true_iff.mp hpaused).2
    | false => exact .live _
  | retire t g =>
    simp only [consume]
    cases hretired : (f.supervisor.retire t g (f.registry.count t)).1 with
    | true => exact .retire hretired
    | false => exact .live _
  | report e =>
    simp only [Course.met]
    split
    · rename_i hloss
      exact .report hloss
    · exact .live _
  | fanOut | ack | count | release => exact .live _

/-- Only a retirement that succeeds touches the supervisor. -/
theorem Floor.supervisor_consume (f : Floor) (luck : Luck) (c : ConsumeCall) :
    ((f.consume luck c).2.supervisor = f.supervisor ∧
      ∀ t g, c = .retire t g → (f.supervisor.retire t g (f.registry.count t)).1 = false) ∨
    ∃ t g, c = .retire t g ∧ (f.supervisor.retire t g (f.registry.count t)).1 = true ∧
      (f.consume luck c).2.supervisor = (f.supervisor.retire t g (f.registry.count t)).2 := by
  cases c with
  | retire t g =>
    -- a retirement that fails leaves everything as it is
    cases hretired : (f.supervisor.retire t g (f.registry.count t)).1 with
    | true => exact .inr ⟨t, g, rfl, hretired, rfl⟩
    | false =>
      refine .inl ⟨Supervisor.retire_eq_false hretired, ?_⟩
      rintro t' g' ⟨⟩
      exact hretired
  | receive t g =>
    refine .inl ⟨?_, by rintro _ _ ⟨⟩⟩
    simp only [consume]
    split
    · rfl
    · split <;> rfl
  | declare | fanOut | ack | pause | count | release | report =>
    exact .inl ⟨rfl, by rintro _ _ ⟨⟩⟩

/-- What a request of a consumer comes to for the slots: it retires, or it leaves them alone. -/
theorem Floor.consume_cases (f : Floor) (luck : Luck) {t : Topic} {g : Generation} {c : ConsumeCall}
    (hby : c.IsBy t g) :
    ((f.consume luck c).2.supervisor = f.supervisor ∧
      Course.met c (f.consume luck c).1 ≠ .retired ∧
      (Course.met c (f.consume luck c).1 = .cancelled → f.supervisor.isCancelled g = true)) ∨
    (c.isFarewell = false ∧ Course.met c (f.consume luck c).1 = .retired ∧
      (f.supervisor.retire t g (f.registry.count t)).1 = true ∧
      (f.consume luck c).2.supervisor = (f.supervisor.retire t g (f.registry.count t)).2) := by
  have hmeets := f.meets_consume luck c
  rcases f.supervisor_consume luck c with ⟨hsame, hstays⟩ | ⟨t', g', rfl, hretired, hsupervisor⟩
  -- nothing retired, so the call can at most have noticed the cancellation
  · refine .inl ⟨hsame, fun hk => ?_, fun hk => ?_⟩ <;> rw [hk] at hmeets
    · cases hmeets with
      | retire hretired => exact absurd (hstays _ _ rfl) (by simp [hretired])
    · cases hmeets with
      | receive hcancelled => exact hby.2 ▸ hcancelled
      | pause hcancelled => exact (show _ = g from hby) ▸ hcancelled
  -- the retirement is of the consumer's own slot
  · obtain ⟨rfl, rfl⟩ := hby
    exact .inr ⟨rfl, by simp [consume, Course.met, hretired], hretired, hsupervisor⟩

namespace Orderly

variable {s : Supervisor} {readers : Table Generation Reader} {g : Generation} {r : Reader}

/-- A live consumer begins another round. -/
theorem nextRound (h : Orderly s readers) (hr : readers.get? g = some r)
    (hrest : r.rest = .done .again) :
    Orderly s (readers.set g { r with rest := Consume.round r.topic g }) := by
  obtain ⟨c, hc, -⟩ := h.exists_consumer hr
  have sound := h.sound g r c hr hc
  -- a new round begins where the last one ended, with a live consumer
  have hlive := sound.fits
  rw [hrest] at hlive
  refine h.replace hr hc (fun g' => Table.get?_set ..) (Table.get?_self hc) ⟨rfl, rfl⟩
    ⟨?_, sound.slot, sound.noticed, sound.stopped⟩ rfl rfl
  rw [show r.course = .live from hlive]
  exact Course.fits_round _ _

/-- A consumer that is no longer live stops. -/
theorem finish (h : Orderly s readers) (hr : readers.get? g = some r)
    (hrest : r.rest = .done .stopped) : Orderly (s.finish g) readers := by
  obtain ⟨c, hc, -⟩ := h.exists_consumer hr
  have sound := h.sound g r c hr hc
  have hstopped := sound.fits
  rw [hrest] at hstopped
  -- nothing but the mark changes
  have stops : r.Sound s.slots g c.finish :=
    ⟨sound.fits, sound.slot, sound.noticed, fun _ => hstopped⟩
  have hfinish : ∀ g', (s.finish g).consumers.get? g' =
      if g' = g then some c.finish else s.consumers.get? g' := by
    intro g'
    rw [Supervisor.consumers_finish]
    split
    · rename_i hg
      rw [hg, hc]
      rfl
    · rfl
  exact h.replace hr hc (Table.get?_self hr) hfinish ⟨rfl, rfl⟩ stops rfl rfl

/-- A consumer makes a request. -/
theorem request {f : Floor} (h : Orderly f.supervisor readers) (hr : readers.get? g = some r)
    {call : ConsumeCall} {next : call.Reply → Consume.Stretch} (hrest : r.rest = .ask call next)
    (luck : Luck) :
    Orderly (f.consume luck call).2.supervisor (readers.set g { r with
      rest := next (f.consume luck call).1
      course := r.course.after call (f.consume luck call).1 }) := by
  obtain ⟨c, hc, -⟩ := h.exists_consumer hr
  have sound := h.sound g r c hr hc
  have hfits := sound.fits
  rw [hrest] at hfits
  obtain ⟨hby, hlive, hnext⟩ := hfits
  have hstopped : c.finished = true → r.course.after call (f.consume luck call).1 ≠ .live := by
    intro hfinished
    rw [Course.after_of_ne_live (sound.stopped hfinished)]
    exact sound.stopped hfinished
  rcases f.consume_cases luck hby with
    ⟨hsupervisor, hretired, hcancelled⟩ | ⟨hfarewell, hretired, hown, hsupervisor⟩
  · -- the slots stay, and nothing that counts for them becomes of the consumer
    rw [hsupervisor]
    refine h.replace hr hc (fun g' => Table.get?_set ..) (Table.get?_self hc) ⟨rfl, rfl⟩
      ⟨hnext _, ?_, ?_, hstopped⟩ rfl rfl
    · rw [sound.slot]
      by_cases hk : r.course = .live
      · simp [hk, Course.after, hretired]
      · rw [Course.after_of_ne_live hk]
    · intro hnoticed
      by_cases hk : r.course = .live
      · rw [hk, Course.after, if_pos rfl] at hnoticed
        rw [← Supervisor.isCancelled_of_get? hc]
        exact hcancelled hnoticed
      · rw [Course.after_of_ne_live hk] at hnoticed
        exact sound.noticed hnoticed
  · -- the consumer leaves its slot, and is live until then
    have hk : r.course = .live := hlive.resolve_right fun hf => by rw [hfarewell] at hf; cases hf
    obtain ⟨hslot, -, hconsumers, hnextGeneration, hslots⟩ := Supervisor.retire_eq_true hown
    rw [hsupervisor]
    have hsame : ∀ g', (f.supervisor.retire r.topic g (f.registry.count r.topic)).2.consumers.get? g' =
        if g' = g then some c else f.supervisor.consumers.get? g' :=
      fun g' => by rw [hconsumers]; exact Table.get?_self hc g'
    refine h.update hr hc (fun g' => Table.get?_set ..) hsame ⟨rfl, rfl⟩ ⟨hnext _, ?_, ?_, hstopped⟩
      hnextGeneration (fun t' g' => ?_) fun g' r₁ c₁ hne hr₁ hc₁ => ?_
    · simp [hslots, hk, Course.after, hretired]
    · simp [hk, Course.after, hretired]
    · rw [hslots]
      split
      · rintro ⟨⟩
      · exact id
    · -- the slot was not that of another consumer
      have sound₁ := h.handOver hr₁ hc₁ (x := none) (Option.some_ne_none _).symm hslots
      rwa [if_neg fun heq => hne (Option.some.inj (heq.symm.trans hslot))] at sound₁

end Orderly

namespace Relay

variable {w : Relay} {t : Topic} {g : Generation} {luck : Luck}

/-- What a turn of a consumer comes to. -/
theorem consumerTurn_cases (w : Relay) (g : Generation) (luck : Luck) :
    w.consumerTurn g luck = w ∨
    ∃ r, w.readers.get? g = some r ∧
      ((r.rest = .done .again ∧ w.consumerTurn g luck =
          { w with readers := w.readers.set g { r with rest := Consume.round r.topic g } }) ∨
       (r.rest = .done .stopped ∧
          w.consumerTurn g luck = { w with supervisor := w.supervisor.finish g }) ∨
       ∃ c next, r.rest = .ask c next ∧ w.consumerTurn g luck =
          { w with
            toFloor := (w.toFloor.consume luck c).2
            readers := w.readers.set g { r with
              rest := next (w.toFloor.consume luck c).1
              course := r.course.after c (w.toFloor.consume luck c).1 } }) := by
  unfold consumerTurn
  -- whoever is not in the book has no turn
  cases hr : w.readers.get? g with
  | none => exact .inl rfl
  | some r =>
    refine .inr ⟨r, rfl, ?_⟩
    obtain ⟨topic, rest, course⟩ := r
    cases rest with
    | done n =>
      cases n with
      | again => exact .inl ⟨rfl, rfl⟩
      | stopped => exact .inr (.inl ⟨rfl, rfl⟩)
    | ask c next => exact .inr (.inr ⟨c, next, rfl, rfl⟩)

/-- A turn of a consumer keeps the order. -/
theorem orderly_consumerTurn (h : Orderly w.supervisor w.readers) :
    Orderly (w.consumerTurn g luck).supervisor (w.consumerTurn g luck).readers := by
  rcases w.consumerTurn_cases g luck with hsame | ⟨r, hr, hcases⟩
  · rwa [hsame]
  rcases hcases with ⟨hrest, hturn⟩ | ⟨hrest, hturn⟩ | ⟨call, next, hrest, hturn⟩ <;> rw [hturn]
  · exact h.nextRound hr hrest
  · exact h.finish hr hrest
  · exact Orderly.request h hr hrest luck

/-- A turn of one consumer leaves the others in their slots. -/
theorem slot_consumerTurn (h : Orderly w.supervisor w.readers) {g' : Generation}
    (hslot : w.supervisor.slots.get? t = some g') (hne : g' ≠ g) :
    (w.consumerTurn g luck).supervisor.slots.get? t = some g' := by
  rcases w.consumerTurn_cases g luck with hsame | ⟨r, hr, hcases⟩
  · rwa [hsame]
  rcases hcases with ⟨-, hturn⟩ | ⟨-, hturn⟩ | ⟨call, next, hrest, hturn⟩ <;> rw [hturn]
  · exact hslot
  · exact hslot
  · obtain ⟨c, hc, -⟩ := h.exists_consumer hr
    have hfits := (h.sound g r c hr hc).fits
    rw [hrest] at hfits
    rcases w.toFloor.consume_cases luck hfits.1 with ⟨hsupervisor, -⟩ | ⟨-, -, hown, hsupervisor⟩
    · change (w.toFloor.consume luck call).2.supervisor.slots.get? t = some g'
      rwa [hsupervisor]
    · -- the slot that is left is the consumer's own
      obtain ⟨hheld, -, -, -, hslots⟩ := Supervisor.retire_eq_true hown
      change (w.toFloor.consume luck call).2.supervisor.slots.get? t = some g'
      rw [hsupervisor, hslots, if_neg fun heq => ?_]
      · exact hslot
      · rw [heq, hheld] at hslot
        exact hne (Option.some.inj hslot).symm

/-! ## Everybody else -/

/-- What the step on the slot comes to. -/
theorem enter_cases (w : Relay) (t : Topic) :
    ((∃ g, w.supervisor.slots.get? t = some g ∧ w.supervisor.isRunning g = true) ∧
      w.enter t = (false, w)) ∨
    ∃ g, (w.supervisor.ensure t).1 = some g ∧ w.enter t =
      (true, { w with
        supervisor := (w.supervisor.ensure t).2
        readers := w.readers.set g ⟨t, Consume.start t, .live⟩ }) := by
  unfold enter
  cases hs : (w.supervisor.ensure t).1 with
  | none =>
    obtain ⟨hheld, hsame⟩ := Supervisor.ensure_idle hs
    refine .inl ⟨hheld, ?_⟩
    simp only [hs, hsame]
  | some g =>
    refine .inr ⟨g, rfl, ?_⟩
    simp only [hs]

theorem orderly_enter (h : Orderly w.supervisor w.readers) (t : Topic) :
    Orderly (w.enter t).2.supervisor (w.enter t).2.readers := by
  rcases w.enter_cases t with ⟨-, henter⟩ | ⟨g, hs, henter⟩ <;> rw [henter]
  · exact h
  · exact h.ensure hs

/-- A manager's call leaves the book in order. -/
theorem orderly_manage {f : Floor} {readers : Table Generation Reader} (h : Orderly f.supervisor readers)
    (luck : Luck) (c : ManageCall) : Orderly (f.manage luck c).2.supervisor readers := by
  cases c with
  | drop t => exact h.drop t
  | publish c => cases c <;> exact h
  | become | teardown | connect | backoff | served | wanted | ensure | awaitLoss | close => exact h

/-- What a turn of a keeper comes to for the rest. -/
theorem keep_cases (w : Relay) (luck : Luck) (k : Keeper) :
    (w.keep luck k).2 = w ∨
    (∃ c, (w.keep luck k).2 = { w with toFloor := (w.toFloor.manage luck c).2 }) ∨
    ∃ t, (w.keep luck k).2 = (w.enter t).2 := by
  -- a keeper works on the floor, enters a consumer, or only goes on
  cases k with
  | dialling n p =>
    cases p with
    | done d => cases d <;> exact .inl rfl
    | ask c next => exact .inr (.inl ⟨c, rfl⟩)
  | restarting p checked lone =>
    cases p with
    | done n => cases lone <;> exact .inl rfl
    | ask c next =>
      cases c with
      | ensure t =>
        cases checked with
        | true => exact .inr (.inr ⟨t, rfl⟩)
        | false =>
          left
          simp only [keep]
          split <;> rfl
      | become s => exact .inr (.inl ⟨.become s, rfl⟩)
      | backoff n => exact .inr (.inl ⟨.backoff n, rfl⟩)
      | drop t => exact .inr (.inl ⟨.drop t, rfl⟩)
      | publish c => exact .inr (.inl ⟨.publish c, rfl⟩)
      | teardown | connect | served | wanted | awaitLoss | close => exact .inl rfl
  | flushing p =>
    cases p with
    | done _ => exact .inl rfl
    | ask c next => exact .inr (.inl ⟨.publish c, rfl⟩)
  | waiting =>
    left
    simp only [keep]
    split
    · rfl
    · split <;> rfl
  | ending p =>
    cases p with
    | done _ => exact .inl rfl
    | ask c next => exact .inr (.inl ⟨c, rfl⟩)
  | rested | ended => exact .inl rfl

/-- A keeper's turn leaves the book in order. -/
theorem orderly_keep (h : Orderly w.supervisor w.readers) (luck : Luck) (k : Keeper) :
    Orderly (w.keep luck k).2.supervisor (w.keep luck k).2.readers := by
  rcases w.keep_cases luck k with hkeep | ⟨c, hkeep⟩ | ⟨t, hkeep⟩ <;> rw [hkeep]
  · exact h
  · exact orderly_manage h luck c
  · exact orderly_enter h t

/-- A turn of anybody keeps the order. -/
theorem orderly_step (h : Orderly w.supervisor w.readers) (turn : Turn) :
    Orderly (w.step turn).supervisor (w.step turn).readers := by
  -- only these three reach the slots or the consumers
  cases turn with
  | arrival i =>
    simp only [step, arrivalTurn]
    split
    · exact h
    · split
      · exact orderly_enter h _
      · split <;> exact h
  | consumer g luck => exact orderly_consumerTurn h
  | keeper i luck =>
    simp only [step, keeperTurn]
    split
    · exact h
    · exact orderly_keep h luck _
  | newViewer | arrive | takeOut | prune | close | detachSocket | take | manage | restart | shutdown
  | report => exact h

/-- **Order along every run.** Whatever happens, a consumer is in the slot of its topic exactly while it
was neither told to stop nor has retired. -/
theorem orderly_run (turns : List Turn) : Orderly (run turns).supervisor (run turns).readers := by
  refine run_induction (P := fun w => Orderly w.supervisor w.readers) (A := fun _ => True)
    ⟨?_, ?_, ?_, ?_⟩ (fun w turn _ h => orderly_step h turn) turns fun _ _ => trivial
  · exact fun g => rfl
  · exact fun g _ => rfl
  · exact nofun
  · exact nofun

theorem slot_of_serves (h : Orderly w.supervisor w.readers) (hserves : w.Serves t g) :
    w.supervisor.slots.get? t = some g := by
  obtain ⟨r, c, hr, hc, rfl, hrunning, hretired⟩ := hserves
  exact (h.sound g r c hr hc).slot.mpr ⟨(Consumer.isRunning_iff.mp hrunning).1, hretired⟩

end Relay

end Occupancy
