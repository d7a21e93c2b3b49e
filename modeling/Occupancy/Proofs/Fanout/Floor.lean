import Occupancy.Proofs.Fanout.Supervisor
import Occupancy.Simulation.Perform

/-!
# What consumers, viewers and managers share

The link, the registry and the slots, and how each request of a consumer or a manager changes them. What
the broker and the rest of the surroundings reply is left open: it is a matter of luck.

Main statements: `performConsume_floor` and `performManage_floor`. The simulated server answers every request
in this way, with some luck, and a request that has to wait leaves the floor as it is.
-/

namespace Occupancy

/-- The report of a failure does not bring the link up, and that of a loss leaves it not up. -/
theorem Link.isUp_of_report {l : Link} {e : BrokerError} (h : (l.report e).isUp = true) :
    l.isUp = true ∧ e.isConnectionLoss = false := by
  unfold report at h
  split at h
  · cases h
  · rename_i hflip
    cases hloss : e.isConnectionLoss with
    | false => exact ⟨h, rfl⟩
    | true => rw [hloss, h] at hflip; exact absurd rfl hflip

/-- What consumers, viewers and managers share. -/
structure Floor where
  link : Link := {}
  registry : Registry := {}
  supervisor : Supervisor := {}

/-- The replies of the surroundings to whatever a task asks next. -/
structure Luck where
  declared : Except BrokerError Unit := .ok ()
  received : Except BrokerError (Option Delivery) := .ok none
  acked : Except BrokerError Unit := .ok ()
  connected : Except BrokerError Unit := .ok ()
  sent : Except BrokerError Unit := .ok ()
  /-- Does a paused consumer notice that it was told to stop? -/
  noticed : Bool := true
  /-- Was the end called? -/
  ended : Bool := false
  /-- The order in which topics are gone through, those included that come in meanwhile. -/
  order : List Topic := []
  stamp : Nat := 0
  heldTopics : List Topic := []
  held : Option Held := none

/-- An order of topics that leaves out none of those listed. -/
def Luck.covering (luck : Luck) (ts : List Topic) : List Topic :=
  if ts ⊆ luck.order then luck.order else ts

/-- Does the broker answer every call? -/
def Luck.Faultless (luck : Luck) : Prop :=
  luck.declared = .ok () ∧ (∃ d, luck.received = .ok d) ∧ luck.acked = .ok () ∧
    luck.connected = .ok () ∧ luck.sent = .ok ()

namespace Floor

def consume (luck : Luck) : (c : ConsumeCall) → Floor → c.Reply × Floor
  | .declare _, f => (luck.declared, f)
  | .receive _ g, f =>
    if f.supervisor.isCancelled g then (Received.cancelled, f)
    else
      match luck.received with
      | .ok d => (Received.message d, f)
      | .error e => (Received.failed e, f)
  | .fanOut t payload, f =>
    let (report, registry) := f.registry.fanOut t payload
    (report, { f with registry })
  | .ack _ _, f => (luck.acked, f)
  | .pause g, f => (luck.noticed && f.supervisor.isCancelled g, f)
  | .count t, f => (f.registry.count t, f)
  | .retire t g, f =>
    let (retired, supervisor) := f.supervisor.retire t g (f.registry.count t)
    (retired, { f with supervisor })
  | .release _, f => ((), f)
  | .report e, f => ((), { f with link := f.link.report e })

/-- Answers the flush of held payloads. -/
def publish (luck : Luck) : (c : PublishCall) → Floor → c.Reply × Floor
  | .stamp, f => (luck.stamp, f)
  | .linkUp, f => (f.link.isUp, f)
  | .send _ _, f => (luck.sent, f)
  | .report e, f => ((), { f with link := f.link.report e })
  | .hold _ _, f => ((), f)
  | .settle _, f => ((), f)
  | .settleSame _ _, f => ((), f)
  | .heldTopics, f => (luck.heldTopics, f)
  | .held _, f => (luck.held, f)

/-- Answers a manager. The start of a consumer takes two turns of its own and is refused here. -/
def manage (luck : Luck) : (c : ManageCall) → Floor → c.Reply × Floor
  | .become s, f => ((), { f with link := f.link.become s })
  | .teardown, f => ((), f)
  | .connect, f => (luck.connected, f)
  | .backoff _, f => (luck.ended, f)
  | .served, f => (luck.covering f.supervisor.slots.keys, f)
  | .drop t, f => ((), { f with supervisor := f.supervisor.drop t })
  | .wanted, f => (luck.covering f.registry.topics, f)
  -- see `Relay.enter`
  | .ensure _, f => (false, f)
  | .publish c, f => f.publish luck c
  | .awaitLoss, f => (luck.ended, f)
  | .close, f => ((), f)

end Floor

/-! ## The simulated server -/

namespace Simulation

/-- What the fanout of a simulated server has on the floor. -/
def World.floor (w : World) : Floor :=
  ⟨w.link, w.registry, w.supervisor⟩

/-- However a call comes out, a part of the server is `x` afterwards. -/
def Progress.Leaves {β τ : Type} (part : World → τ) (x : τ) : Progress β → Prop
  | .reply _ w => part w = x
  | .wait _ _ _ w => part w = x

/-- A part of the server in which tasks, the broker and its faults have no share. -/
structure Aloof {τ : Type} (part : World → τ) : Prop where
  faults : ∀ (w : World) brokerFaults, part { w with brokerFaults } = part w
  broker : ∀ (w : World) broker, part { w with broker } = part w
  ready : ∀ (w : World) ready, part { w with ready } = part w
  tasks : ∀ (w : World) tasks, part { w with tasks } = part w

namespace Aloof

variable {τ : Type} {part : World → τ}

theorem foldl {α : Type} {act : World → α → World} (h : ∀ w a, part (act w a) = part w)
    (l : List α) (w : World) : part (l.foldl act w) = part w := by
  induction l generalizing w with
  | nil => rfl
  | cons a rest ih => exact (ih (act w a)).trans (h w a)

theorem enqueue (aloof : Aloof part) (w : World) (t : TaskId) : part (w.enqueue t) = part w := by
  unfold World.enqueue
  split
  · rfl
  · exact aloof.ready w _

theorem wake (aloof : Aloof part) (w : World) (i : Interest) : part (w.wake i) = part w :=
  foldl aloof.enqueue _ w

theorem tell (aloof : Aloof part) (w : World) (n : Notice) (queue : Nat) (t : TaskId) :
    part (w.tell n queue t) = part w :=
  (aloof.enqueue _ t).trans (aloof.tasks w _)

theorem notifyOne (aloof : Aloof part) (w : World) (queue : Nat) :
    part (w.notifyOne queue) = part w := by
  unfold World.notifyOne
  split
  · rfl
  · exact aloof.tell w _ _ _

end Aloof

/-- A call is answered as `act` says, with some luck, or it waits and leaves the floor `f` alone. -/
def Progress.Answers {β : Type} (f : Floor) (act : Luck → β × Floor) : Progress β → Prop
  | .reply r w => ∃ luck, act luck = (r, w.floor)
  | .wait _ _ _ w => w.floor = f

namespace World

variable {w : World} {f : Floor} {β γ : Type}

theorem aloof_floor : Aloof floor :=
  ⟨fun _ _ => rfl, fun _ _ => rfl, fun _ _ => rfl, fun _ _ => rfl⟩

theorem floor_teardownNow (w : World) : w.teardownNow.floor = w.floor :=
  Aloof.foldl (fun w queue => Aloof.foldl (fun w t => aloof_floor.tell w _ queue t) _ w) _ w

theorem floor_setLink (w : World) (l : Link) : (w.setLink l).floor = { w.floor with link := l } := by
  unfold setLink
  split
  · exact aloof_floor.wake _ _
  · rfl

theorem floor_setRegistry (w : World) (r : Registry) (touched : List ViewerId) :
    (w.setRegistry r touched).floor = { w.floor with registry := r } :=
  Aloof.foldl (fun w _ => aloof_floor.wake w _) touched _

theorem floor_passOn (w : World) (hold : Hold) (notice : Notice) :
    (w.passOn hold notice).floor = w.floor := by
  unfold passOn
  split
  · exact aloof_floor.notifyOne w _
  · rfl

/-- Dropping a consumer only concerns the supervisor. -/
theorem floor_dropConsumer (w : World) (t : Topic) :
    (w.dropConsumer t).floor = { w.floor with supervisor := w.supervisor.drop t } := by
  unfold dropConsumer
  cases hslot : w.supervisor.slots.get? t with
  | none => simp [floor, Supervisor.drop, hslot]
  | some g => exact aloof_floor.wake _ _

/-! ### The broker -/

section

variable {τ : Type} {part : World → τ} {x : τ} (aloof : Aloof part)

include aloof

/-- A call of the broker leaves a part alone if all its outcomes do. -/
theorem leaves_onBroker {target : BrokerTarget} {failed : BrokerError → β}
    {hang run : World → Progress β} (hhang : ∀ w : World, part w = x → (hang w).Leaves part x)
    (hrun : ∀ w : World, part w = x → (run w).Leaves part x) (h : part w = x) :
    (w.onBroker target failed hang run).Leaves part x := by
  unfold onBroker
  -- the fault that is used up is not part of it
  cases judge target w.brokerFaults with
  | mk verdict faults =>
    have hfaults : part { w with brokerFaults := faults } = x := (aloof.faults w faults).trans h
    cases verdict with
    | pass => exact hrun _ hfaults
    | fail e => exact hfaults
    | hang => exact hhang _ hfaults

theorem leaves_declare {hang : World → Progress (Except BrokerError Unit)} {t : Topic} {limit : Nat}
    (hhang : ∀ w : World, part w = x → (hang w).Leaves part x) (h : part w = x) :
    (w.declare t limit hang).Leaves part x := by
  refine leaves_onBroker aloof hhang (fun w hw => ?_) h
  simp only [declareNow]
  split
  · exact (aloof.broker w _).trans hw
  · exact hw

/-- Putting a payload into its queue leaves alone what the broker and the wakened tasks are no part of. -/
theorem leaves_put {hang : World → Progress (Except BrokerError Unit)} {t : Topic} {payload : String}
    (hhang : ∀ w : World, part w = x → (hang w).Leaves part x) (h : part w = x) :
    (w.put t payload hang).Leaves part x := by
  refine leaves_onBroker aloof hhang (fun w hw => ?_) h
  simp only [putNow]
  split
  · exact hw
  · rename_i broker _
    have hbroker : part { w with broker } = x := (aloof.broker w broker).trans hw
    split
    · exact (aloof.notifyOne _ _).trans hbroker
    · exact hbroker

/-- Sending a payload leaves alone what the broker and the wakened tasks are no part of. -/
theorem leaves_send {hold : Hold} {t : Topic} {payload : String} (h : part w = x) :
    (w.send hold t payload).Leaves part x := by
  -- neither answering too late nor waiting for it changes anything
  have hlate : ∀ (late : Except BrokerError Unit) (due : Nat) (w : World), part w = x →
      Progress.Leaves part x
        (if due ≤ w.time then .reply late w else .wait (.sleeping due) [] (some due) w) := by
    intro late due w hw
    split <;> exact hw
  unfold send
  split
  · exact hlate _ _ w h
  · simp only
    -- the payload is put only into a queue that was declared in time
    have hdeclare : Progress.Leaves part x (w.declare t 1 _) := leaves_declare aloof (fun w' hw' =>
      hlate (.error (.timeout (.ofMillis (.ofNat w.settings.publishTimeout))))
        (w'.time + w'.settings.publishTimeout) w' hw') h
    split
    · rename_i w₁ hw₁
      rw [hw₁] at hdeclare
      exact leaves_put aloof (fun w' hw' => hlate _ _ w' hw') hdeclare
    · exact hdeclare

end

theorem leaves_connect : w.connect.Leaves floor w.floor := by
  unfold connect
  refine leaves_onBroker aloof_floor (fun _ hw => hw) (fun w' hw' => ?_) rfl
  cases w'.broker.connect
  exact hw'

theorem leaves_read {t : Topic} {queue due : Nat} {also : List Interest} (h : w.floor = f) :
    (w.read t queue due also).Leaves floor f := by
  unfold read
  split
  · exact h
  · split
    · exact h
    · split <;> exact h

/-- Reading from a queue leaves the floor. -/
theorem leaves_receive {hold : Hold} {notice : Notice} {t : Topic} {ms : Nat} {also : List Interest}
    (h : w.floor = f) : (w.receive hold notice t ms also).Leaves floor f := by
  unfold receive
  -- a task that has read already, one that waits and one that begins
  split
  · split
    · exact leaves_read h
    · split <;> exact h
  · exact h
  · refine leaves_onBroker aloof_floor (fun w hw => hw) (fun w hw => ?_) h
    split
    · exact hw
    · split
      · exact hw
      · exact leaves_read hw

/-! ### Requests -/

theorem answers_map {p : Progress β} {act : Luck → γ × Floor} (h : p.Leaves floor f) (g : β → γ)
    (luck : β → Luck) (hluck : ∀ b, act (luck b) = (g b, f)) : (p.map g).Answers f act := by
  cases p with
  | reply b w => exact ⟨luck b, by rw [hluck, h]⟩
  | wait => exact h

theorem answers_of_leaves {p : Progress β} {act : Luck → β × Floor} (h : p.Leaves floor f)
    (luck : β → Luck) (hluck : ∀ b, act (luck b) = (b, f)) : p.Answers f act := by
  cases p with
  | reply b w => exact ⟨luck b, by rw [hluck, h]⟩
  | wait => exact h

/-- **Consumers.** The server answers a consumer as on the floor, with some luck. -/
theorem performConsume_floor (w : World) (hold : Hold) (notice : Notice) (c : ConsumeCall) :
    (w.performConsume hold notice c).Answers w.floor fun luck => w.floor.consume luck c := by
  cases c with
  | declare t =>
    exact answers_of_leaves (leaves_declare aloof_floor (fun _ hw => hw) rfl) (fun r => { declared := r })
      fun _ => rfl
  | receive t g =>
    simp only [performConsume]
    split
    · -- the task stops before it looks at the broker
      rename_i hcancelled
      refine ⟨{}, ?_⟩
      rw [floor_passOn]
      exact if_pos hcancelled
    -- the answer is the one that was read
    · rename_i hlive
      refine answers_map (leaves_receive rfl) _ (fun r => { received := r }) fun r => ?_
      cases r <;> exact if_neg hlive
  | fanOut t payload => exact ⟨{}, by simp only [Floor.consume, floor_setRegistry]; rfl⟩
  | ack t d =>
    exact answers_of_leaves (leaves_onBroker aloof_floor (fun _ hw => hw) (fun _ hw => hw) rfl)
      (fun r => { acked := r }) fun _ => rfl
  | pause g =>
    simp only [performConsume]
    split
    · rename_i hcancelled
      exact ⟨{}, by simp [Floor.consume, floor, hcancelled]⟩
    · rename_i hlive
      have hpass : w.floor.consume {} (.pause g) = (false, w.floor) := by
        change (true && w.supervisor.isCancelled g, w.floor) = (false, w.floor)
        rw [Bool.eq_false_iff.mpr hlive]
        rfl
      -- a pause that is over and one that is not, with or without a due time
      split <;> split
      · exact ⟨{}, hpass⟩
      · rfl
      · exact ⟨{}, hpass⟩
      · rfl
  | count t => exact ⟨{}, rfl⟩
  | retire t g => exact ⟨{}, rfl⟩
  | release t => exact ⟨{}, rfl⟩
  | report e => exact ⟨{}, by simp only [Floor.consume, reportFailure, floor_setLink]; rfl⟩

/-- Each call of a publisher is answered as on the floor. -/
theorem performPublish_floor (w : World) (hold : Hold) (c : PublishCall) :
    (w.performPublish hold c).Answers w.floor fun luck => w.floor.publish luck c := by
  cases c with
  | stamp => exact ⟨{ stamp := w.pending.nextStamp }, rfl⟩
  | linkUp => exact ⟨{}, rfl⟩
  | send t payload => exact answers_of_leaves (leaves_send aloof_floor rfl) (fun r => { sent := r }) fun _ => rfl
  | report e => exact ⟨{}, by simp only [Floor.publish, reportFailure, floor_setLink]; rfl⟩
  | hold t h => exact ⟨{}, rfl⟩
  | settle t => exact ⟨{}, rfl⟩
  | settleSame t stamp => exact ⟨{}, rfl⟩
  | heldTopics => exact ⟨{ heldTopics := w.pending.topics }, rfl⟩
  | held t => exact ⟨{ held := w.pending.held.get? t }, rfl⟩

theorem covering_self (ts : List Topic) : ({ order := ts } : Luck).covering ts = ts :=
  if_pos (List.Subset.refl ts)

theorem answers_sleepOrEnd (w : World) (endsSeen due attempt : Nat) :
    (w.sleepOrEnd endsSeen due).Answers w.floor fun luck => w.floor.manage luck (.backoff attempt) := by
  unfold sleepOrEnd
  split
  · exact ⟨{ ended := false }, rfl⟩
  · split
    · exact ⟨{ ended := true }, rfl⟩
    · rfl

/-- **Managers.** The server answers a manager as on the floor, with some luck. The start of a consumer is
apart: `floor_ensure`. -/
theorem performManage_floor (w : World) (hold : Hold) (endsSeen : Nat) {c : ManageCall}
    (hc : ∀ t, c ≠ .ensure t) :
    (w.performManage hold endsSeen c).Answers w.floor fun luck => w.floor.manage luck c := by
  cases c with
  | become s => exact ⟨{}, by simp only [Floor.manage, floor_setLink]; rfl⟩
  | teardown => exact ⟨{}, by rw [floor_teardownNow]; rfl⟩
  | connect =>
    exact answers_of_leaves leaves_connect (fun r => { connected := r }) fun _ => rfl
  | backoff attempt =>
    cases hold with
    | sleeping due => exact answers_sleepOrEnd w endsSeen due attempt
    | fresh | reading | forever => exact answers_sleepOrEnd w endsSeen _ attempt
  | served =>
    exact ⟨{ order := w.supervisor.slots.keys }, by simp only [Floor.manage, floor, covering_self]⟩
  | drop t => exact ⟨{}, by rw [floor_dropConsumer]; rfl⟩
  | wanted => exact ⟨{ order := w.registry.topics }, by simp only [Floor.manage, floor, covering_self]⟩
  -- a start of a consumer wakes tasks, and is looked at apart
  | ensure t => exact absurd rfl (hc t)
  | publish c => exact performPublish_floor w hold c
  | awaitLoss =>
    change Progress.Answers w.floor _ (if w.link.state = .down then .reply false w
      else if endsSeen < w.ends then .reply true w
      -- down, told to end, or neither, in which case it waits
      else .wait .fresh [.linkDown, .shutdown] none w)
    split
    · exact ⟨{ ended := false }, rfl⟩
    · split
      · exact ⟨{ ended := true }, rfl⟩
      · rfl
  | close => exact ⟨{}, by rw [floor_teardownNow]; rfl⟩

/-- The server starts a consumer in one go: it looks at the link and makes the step on the slot. -/
theorem floor_ensure (w : World) (t : Topic) :
    (w.ensure t).2.floor =
      if w.link.isUp then { w.floor with supervisor := (w.supervisor.ensure t).2 } else w.floor := by
  unfold ensure
  cases hup : w.link.isUp with
  | false => rfl
  | true =>
    -- the slot is held already
    cases hs : (w.supervisor.ensure t).1 with
    | none =>
      simp only [hs, Bool.not_true, Bool.false_eq_true, if_false, if_true]
      rw [(Supervisor.ensure_idle hs).2]
      rfl
    | some g =>
      -- the new consumer is put on the list of tasks, which the floor has no part in
      simp only [hs, Bool.not_true, Bool.false_eq_true, if_false, if_true]
      split
      · exact aloof_floor.wake _ _
      · rfl

end World

end Simulation

end Occupancy
