import Mathlib.Algebra.Group.Nat.Defs
import Occupancy.Fanout.Retry
import Occupancy.Proofs.Broker.Memory
import Occupancy.Proofs.Fanout.Floor
import Occupancy.Simulation.Scheduler

/-!
# Dialling until the broker answers

The manager of the link against a broker in memory that refuses the next attempts to connect. What it does is
noted: the attempts, and the waits between them.

The waits double up to a longest one (`nanos_delay`), and what they are computed from fits into words
(`delayInWords?_eq`). A refused attempt uses up a refusal (`run_dial_refused`) and any other connects
(`run_dial_accepted`), so the manager gets through in the end. Main statement: `establish_reconnects`. A simulated
server makes each attempt in the same way (`advance_dial_accepted` and `advance_dial_refused`).
-/

namespace Occupancy

/-! ## The waits -/

namespace Wait

/-- The shorter of two waits is the one of fewer nanoseconds. -/
theorem nanos_shorter (a b : Wait) : (a.shorter b).nanos = min a.nanos b.nanos := by
  unfold shorter
  split
  · rename_i h
    rw [Nat.min_eq_left h]
  · rename_i h
    rw [Nat.min_eq_right (Nat.le_of_not_le h)]

/-- A product that is out of range is longer than every wait, so a cap of it is the cap alone. -/
theorem nanos_scale?_shorter (a cap : Wait) (factor : Nat) :
    (((a.scale? factor).getD cap).shorter cap).nanos = min (a.nanos * factor) cap.nanos := by
  rw [nanos_shorter]
  unfold scale? ofNanos?
  split
  · rfl
  · have hcap := cap.inRange
    rw [Option.getD_none, Nat.min_self]
    omega

end Wait

namespace RetryPolicy

/-- One, shifted within a word of 32 bits. A shift by the width of the word or more is none. -/
def bit? (n : UInt32) : Option UInt32 :=
  if n < 32 then some (1 <<< n) else none

/-- The wait after `attempt` failed attempts, computed in words. -/
def delayInWords? (p : RetryPolicy) (attempt : UInt32) : Option Wait :=
  (bit? (min attempt 16)).map fun factor =>
    ((p.base.scale? factor.toNat).getD p.longest).shorter p.longest

variable (p : RetryPolicy)

/-- Up to sixteen the shift is the power of two. -/
theorem bit?_of_le {n : UInt32} (h : n.toNat ≤ 16) :
    ∃ factor, bit? n = some factor ∧ factor.toNat = 2 ^ n.toNat := by
  have hlt : n < 32 := UInt32.lt_iff_toNat_lt.mpr (Nat.lt_of_le_of_lt h (by decide))
  have hpow : 2 ^ n.toNat ≤ 2 ^ 16 := Nat.pow_le_pow_right (by decide) h
  refine ⟨_, if_pos hlt, ?_⟩
  rw [UInt32.toNat_shiftLeft, Nat.mod_eq_of_lt (Nat.lt_of_le_of_lt h (by decide)), Nat.shiftLeft_eq]
  exact (congrArg (· % 2 ^ 32) (Nat.one_mul _)).trans (Nat.mod_eq_of_lt (by omega))

/-- No shift and no product leaves its range on the way to a wait. -/
theorem delayInWords?_eq (attempt : UInt32) : p.delayInWords? attempt = some (p.delay attempt.toNat) := by
  have hmin : (min attempt 16).toNat = min attempt.toNat 16 := UInt32.toNat_min attempt 16
  obtain ⟨factor, hfactor, hvalue⟩ := bit?_of_le (n := min attempt 16) (by omega)
  rw [delayInWords?, hfactor, Option.map_some, hvalue, hmin]
  rfl

theorem nanos_delay (k : Nat) :
    (p.delay k).nanos = min (p.base.nanos * 2 ^ min k 16) p.longest.nanos :=
  Wait.nanos_scale?_shorter ..

/-- The waits never get shorter. -/
theorem delay_mono {j k : Nat} (h : j ≤ k) : (p.delay j).nanos ≤ (p.delay k).nanos := by
  rw [nanos_delay, nanos_delay]
  have hpow : 2 ^ min j 16 ≤ 2 ^ min k 16 := Nat.pow_le_pow_right (by decide) (by omega)
  have hscaled := Nat.mul_le_mul_left p.base.nanos hpow
  omega

theorem delay_le_longest (k : Nat) : (p.delay k).nanos ≤ p.longest.nanos := by
  rw [nanos_delay]
  exact Nat.min_le_right _ _

/-- A count of attempts that stops at the greatest word makes no difference. -/
theorem delay_saturated (k : Nat) : p.delay (min k 4294967295) = p.delay k := by
  have hmin : min (min k 4294967295) 16 = min k 16 := by omega
  rw [delay, hmin, delay]

end RetryPolicy

/-! ## Dialling -/

/-- What the manager of the link does while it dials. -/
inductive Dialling.Deed where
  | attempt
  | wait (w : Wait)
deriving DecidableEq

/-- What the manager works with while it dials, and what it did so far. -/
structure Dialling where
  floor : Floor := {}
  broker : MemoryBroker
  deeds : List Dialling.Deed := []

namespace Dialling

open Manage (Dialled)

/-- Answers the manager. The end is not called. -/
def answer (p : RetryPolicy) : (c : ManageCall) → Dialling → c.Reply × Dialling
  | .teardown, d => ((), { d with broker := d.broker.teardown })
  | .connect, d =>
    (d.broker.connect.1, { d with broker := d.broker.connect.2, deeds := d.deeds ++ [.attempt] })
  | .backoff attempt, d => (false, { d with deeds := d.deeds ++ [.wait (p.delay attempt)] })
  | c, d => ((d.floor.manage {} c).1, { d with floor := (d.floor.manage {} c).2 })

/-- The dialling with a state of the link written. -/
def become (d : Dialling) (s : LinkState) : Dialling :=
  { d with floor := { d.floor with link := d.floor.link.become s } }

/-- The dialling after an attempt that was refused, and the wait that follows. -/
def refused (p : RetryPolicy) (attempt : Nat) (d : Dialling) : Dialling :=
  { (d.become .connecting).become .down with
    broker := { d.broker.teardown with refusals := d.broker.refusals - 1 }
    deeds := d.deeds ++ [.attempt, .wait (p.delay attempt)] }

/-- The dialling after an attempt that got through. -/
def accepted (d : Dialling) : Dialling :=
  { (d.become .connecting).become .up with
    broker := { d.broker.teardown with connected := true, connects := d.broker.connects + 1 }
    deeds := d.deeds ++ [.attempt] }

variable {p : RetryPolicy} {d : Dialling} {n : Nat}

theorem connect_refused {b : MemoryBroker} (h : b.refusals ≠ 0) :
    b.teardown.connect =
      (.error (.connect "connection refused"), { b.teardown with refusals := b.refusals - 1 }) := by
  unfold MemoryBroker.connect
  split
  · rename_i hrefusals
    rw [show b.refusals = _ from hrefusals]
    rfl
  · rename_i hrefusals
    exact absurd hrefusals h

/-- An attempt that is not refused connects, for the teardown has cut the connection before. -/
theorem connect_accepted {b : MemoryBroker} (h : b.refusals = 0) :
    b.teardown.connect = (.ok (), { b.teardown with connected := true, connects := b.connects + 1 }) := by
  unfold MemoryBroker.connect
  split
  · rename_i hrefusals
    exact absurd (hrefusals.symm.trans h) (Nat.succ_ne_zero _)
  · rfl

theorem run_dial_refused (h : d.broker.refusals ≠ 0) (attempt : Nat) :
    (Manage.dial attempt).run (answer p) d = (.retry, refused p attempt d) := by
  simp [Manage.dial, Program.run, answer, Floor.manage, connect_refused h, become, refused]

theorem run_dial_accepted (h : d.broker.refusals = 0) (attempt : Nat) :
    (Manage.dial attempt).run (answer p) d = (.up, accepted d) := by
  simp [Manage.dial, Program.run, answer, Floor.manage, connect_accepted h, become, accepted]

/-- Another attempt is only made after a refusal. -/
theorem refusals_lt_of_retry {attempt : Nat} {d' : Dialling}
    (h : (Manage.dial attempt).run (answer p) d = (.retry, d')) :
    d'.broker.refusals < d.broker.refusals := by
  by_cases hrefusals : d.broker.refusals = 0
  · rw [run_dial_accepted hrefusals] at h
    cases h
  · rw [run_dial_refused hrefusals] at h
    cases h
    exact Nat.sub_one_lt hrefusals

/-- Dials until the broker answers or the end is called. -/
def establish (p : RetryPolicy) (attempt : Nat) (d : Dialling) : Dialled × Dialling :=
  match h : (Manage.dial attempt).run (answer p) d with
  | (.retry, d') => establish p (attempt + 1) d'
  | (.up, d') => (.up, d')
  | (.shutdown, d') => (.shutdown, d')
termination_by d.broker.refusals
decreasing_by exact refusals_lt_of_retry h

/-- After a dial that is to be tried again the next one follows. -/
theorem establish_of_retry {attempt : Nat} {d' : Dialling}
    (h : (Manage.dial attempt).run (answer p) d = (.retry, d')) :
    establish p attempt d = establish p (attempt + 1) d' := by
  rw [establish]
  split <;> simp_all

/-- A dial that succeeds ends the manager's efforts. -/
theorem establish_of_up {attempt : Nat} {d' : Dialling}
    (h : (Manage.dial attempt).run (answer p) d = (.up, d')) :
    establish p attempt d = (.up, d') := by
  rw [establish]
  split <;> simp_all

/-- What is done in `n` refused attempts, `attempt` others having failed before. -/
def rounds (p : RetryPolicy) (attempt n : Nat) : List Deed :=
  (List.range' attempt n).flatMap fun k => [.attempt, .wait (p.delay k)]

/-- How a dialling ends that gets through in the end: the broker is connected once more, has nothing declared,
and has just the queues with a message. -/
structure Reconnected (b : MemoryBroker) (d : Dialling) : Prop where
  up : d.floor.link.state = .up
  connected : d.broker.connected = true
  connects : d.broker.connects = b.connects + 1
  refusals : d.broker.refusals = 0
  declared : d.broker.declared = []
  unread : ∀ t q, d.broker.queues.get? t = some q ↔ b.queues.get? t = some q ∧ q.unread ≠ []

/-- After a teardown exactly the queues with something unread are left. -/
theorem get?_queues_teardown {b : MemoryBroker} {t : Topic} {q : Queue} :
    b.teardown.queues.get? t = some q ↔ b.queues.get? t = some q ∧ q.unread ≠ [] := by
  rw [MemoryBroker.teardown, Table.get?_filter_eq_some]
  simp

/-- Dialling gets through right after the last refusal. -/
theorem establish_spec (h : d.broker.refusals = n) (attempt : Nat) :
    ∃ d', establish p attempt d = (.up, d') ∧
      d'.deeds = d.deeds ++ rounds p attempt n ++ [.attempt] ∧ Reconnected d.broker d' := by
  -- induction over the refusals that are left
  induction n generalizing d attempt with
  | zero =>
    refine ⟨_, establish_of_up (run_dial_accepted h attempt), ?_, ?_⟩
    · rw [rounds, List.range'_zero, List.flatMap_nil, List.append_nil]
      rfl
    · exact ⟨rfl, rfl, rfl, h, rfl, fun t q => get?_queues_teardown⟩
  | succ n ih =>
    -- one refusal costs an attempt and a wait, and leaves one fewer
    have hdial := run_dial_refused (p := p) (by rw [h]; exact Nat.succ_ne_zero n) attempt
    have hleft : (refused p attempt d).broker.refusals = n := congrArg (· - 1) h
    obtain ⟨d', hd', hdeeds, hend⟩ := ih hleft (attempt + 1)
    refine ⟨d', (establish_of_retry hdial).trans hd', ?_, ?_⟩
    · rw [hdeeds, rounds, rounds, List.range'_succ, List.flatMap_cons, refused]
      simp only [List.append_assoc]
    · refine ⟨hend.up, hend.connected, hend.connects, hend.refusals, hend.declared, fun t q => ?_⟩
      -- the queues that were without a message are forgotten for good
      rw [hend.unread, refused]
      dsimp only
      rw [get?_queues_teardown, and_assoc, and_self]

/-- **The broker is dialled until it answers.** Whatever state a broker is in that refuses the next `n` attempts to
connect, and nothing else, the manager makes `n + 1` attempts and waits between them, each time as long as the
policy says. Then the link is up, and the broker is connected once more, without declarations and with every
message that was unread. The waits are the exact products with powers of two up to the longest wait; they never
get shorter, and their computation never leaves the range of words. -/
theorem establish_reconnects (p : RetryPolicy) (n : Nat) (floor : Floor) (b : MemoryBroker) :
    (∃ d, establish p 0 { floor, broker := b.refuse n } = (.up, d) ∧
      d.deeds = (List.range n).flatMap (fun k => [.attempt, .wait (p.delay k)]) ++ [.attempt] ∧
      d.deeds.count .attempt = n + 1 ∧ Reconnected b d) ∧
    (∀ attempt : UInt32, p.delayInWords? attempt = some (p.delay attempt.toNat)) ∧
    ∀ k, p.delay (min k 4294967295) = p.delay k ∧
      (p.delay k).nanos = min (p.base.nanos * 2 ^ min k 16) p.longest.nanos ∧
      (∀ j ≤ k, (p.delay j).nanos ≤ (p.delay k).nanos) ∧
      (p.delay k).nanos ≤ p.longest.nanos := by
  refine ⟨?_, p.delayInWords?_eq, fun k =>
    ⟨p.delay_saturated k, p.nanos_delay k, fun j hj => p.delay_mono hj, p.delay_le_longest k⟩⟩
  obtain ⟨d, hd, hdeeds, hend⟩ :=
    establish_spec (p := p) (d := { floor, broker := b.refuse n }) (n := n) rfl 0
  have hdeeds' : d.deeds =
      (List.range n).flatMap (fun k => [.attempt, .wait (p.delay k)]) ++ [.attempt] := by
    rw [hdeeds, rounds, List.range_eq_range']
    rfl
  refine ⟨d, hd, hdeeds', ?_, hend.up, hend.connected, hend.connects, hend.refusals, hend.declared,
    hend.unread⟩
  -- one attempt for each refusal, and the one that succeeds
  rw [hdeeds', List.count_append, List.count_flatMap]
  simp [Function.comp_def]

end Dialling

/-! ## The simulated server -/

namespace Simulation.World

variable {w : World} {id : TaskId} {task : Task}

/-- What tasks that wait for something have no share in. -/
def outside (w : World) : MemoryBroker × List (Fault BrokerTarget BrokerError) × Settings × Nat × Nat :=
  (w.broker, w.brokerFaults, w.settings, w.time, w.ends)

theorem outside_enqueue (w : World) (t : TaskId) : (w.enqueue t).outside = w.outside := by
  unfold enqueue
  split <;> rfl

theorem outside_setLink (w : World) (l : Link) : (w.setLink l).outside = w.outside := by
  unfold setLink
  split
  · exact Aloof.foldl outside_enqueue _ _
  · rfl

/-- A teardown of the world is one of its broker. -/
theorem outside_teardownNow (w : World) :
    w.teardownNow.outside = { w with broker := w.broker.teardown }.outside := by
  have htell (queue : Nat) (w : World) (t : TaskId) : (w.tell .together queue t).outside = w.outside :=
    outside_enqueue _ t
  have hnotify : w.notifyQueues.outside = w.outside :=
    Aloof.foldl (fun w queue => Aloof.foldl (htell queue) _ w) _ w
  simp only [outside, Prod.mk.injEq] at hnotify
  simp [teardownNow, outside, hnotify]

/-- What a program does after a request that is answered. -/
theorem advance_reply {c : Call} {r : c.Reply} {w' : World} {next : c.Reply → Program Calls Next}
    (h : w.perform task c = .reply r w') :
    w.advance id task (.ask c next) = w'.advance id { task with hold := .fresh, notice := .none } (next r) := by
  rw [advance, h]

/-- A program whose request has to wait stays with its task. -/
theorem advance_wait (id : TaskId) {c : Call} {hold : Hold} {interests : List Interest} {due : Option Nat}
    {w' : World} {next : c.Reply → Program Calls Next} (h : w.perform task c = .wait hold interests due w') :
    ∃ w'' task', w.advance id task (.ask c next) = (w'', none) ∧ w''.tasks.get? id = some task' ∧
      task'.due = due ∧ w''.floor = w'.floor ∧ w''.broker = w'.broker := by
  rw [advance, h]
  exact ⟨_, _, rfl, (Table.get?_set ..).trans (if_pos rfl), rfl, rfl, rfl⟩

theorem connect_of_faultless (faultless : w.brokerFaults = []) :
    ∃ w' : World, w.connect = .reply w.broker.connect.1 w' ∧ w'.floor = w.floor ∧
      w'.outside = (w.broker.connect.2, [], w.settings, w.time, w.ends) := by
  unfold connect onBroker
  rw [show (w.count "connect").brokerFaults = [] from faultless]
  exact ⟨_, rfl, rfl, rfl⟩

/-- What the server does with the reply of the broker to an attempt to connect. -/
def dialled (attempt : Nat) (next : Manage.Dialled → Next) : Except BrokerError Unit → Program Calls Next
  | .ok _ => .ask (.manage (.become .up)) fun _ => .done (next .up)
  | .error _ =>
    .ask (.manage (.become .down)) fun _ =>
    .ask (.manage (.backoff attempt)) fun (ended : Bool) =>
      .done (next (if ended then .shutdown else .retry))

/-- A dial of the manager as a task runs it: three calls, and then the outcome decides. -/
theorem managerProgram_dial (attempt : Nat) (next : Manage.Dialled → Next) :
    managerProgram (Manage.dial attempt) next =
      .ask (.manage (.become .connecting)) fun _ =>
      .ask (.manage .teardown) fun _ =>
      .ask (.manage .connect) (dialled attempt next) := by
  refine congrArg (Program.ask (S := Calls) (.manage (.become .connecting))) (funext fun _ =>
    congrArg (Program.ask (S := Calls) (.manage .teardown)) (funext fun _ =>
      congrArg (Program.ask (S := Calls) (.manage .connect)) (funext fun r => ?_)))
  -- only the branch after an error makes further calls
  cases r with
  | ok _ => rfl
  | error e =>
    refine congrArg (Program.ask _) (funext fun _ => congrArg (Program.ask _) (funext fun ended => ?_))
    cases ended <;> rfl

/-- An attempt of the server to connect, up to the reply of the broker. -/
theorem advance_dial (id : TaskId) (task : Task) (faultless : w.brokerFaults = []) (attempt : Nat)
    (next : Manage.Dialled → Next) :
    ∃ w' : World, w'.floor = { w.floor with link := w.link.become .connecting } ∧
      w'.outside = (w.broker.teardown.connect.2, [], w.settings, w.time, w.ends) ∧
      w.advance id task (managerProgram (Manage.dial attempt) next) =
        w'.advance id { task with hold := .fresh, notice := .none }
          (dialled attempt next w.broker.teardown.connect.1) := by
  -- the states in between are named, so that they are not unfolded
  obtain ⟨w₁, hw₁⟩ : ∃ w₁, w₁ = w.setLink (w.link.become .connecting) := ⟨_, rfl⟩
  obtain ⟨w₂, hw₂⟩ : ∃ w₂, w₂ = (w₁.count "teardown").teardownNow := ⟨_, rfl⟩
  have houtside₁ : w₁.outside = w.outside := hw₁ ▸ outside_setLink w _
  have houtside₂ : w₂.outside = (w.broker.teardown, [], w.settings, w.time, w.ends) := by
    simp only [outside, Prod.mk.injEq] at houtside₁
    rw [hw₂, outside_teardownNow]
    simp [outside, count, houtside₁, faultless]
  have hfloor₂ : w₂.floor = { w.floor with link := w.link.become .connecting } := by
    rw [hw₂, floor_teardownNow, ← floor_setLink, ← hw₁]
    rfl
  simp only [outside, Prod.mk.injEq] at houtside₂
  obtain ⟨hbroker₂, hfaults₂, hsettings₂, htime₂, hends₂⟩ := houtside₂
  obtain ⟨w', hconnect, hfloor, houtside⟩ := connect_of_faultless hfaults₂
  rw [hbroker₂] at hconnect houtside
  refine ⟨w', hfloor.trans hfloor₂, by rw [houtside, hsettings₂, htime₂, hends₂], ?_⟩
  -- none of the three calls has to wait
  have hbecome : w.perform task (.manage (.become .connecting)) = .reply () w₁ := hw₁ ▸ rfl
  have hteardown (task : Task) : w₁.perform task (.manage .teardown) = .reply () w₂ := hw₂ ▸ rfl
  have hmanage (task : Task) : w₂.perform task (.manage .connect) = .reply w.broker.teardown.connect.1 w' :=
    hconnect
  rw [managerProgram_dial]
  exact (advance_reply hbecome).trans ((advance_reply (hteardown _)).trans (advance_reply (hmanage _)))

/-- The server gets through as the dialling does. -/
theorem advance_dial_accepted (faultless : w.brokerFaults = []) (h : w.broker.refusals = 0) (attempt : Nat)
    (next : Manage.Dialled → Next) :
    ∃ w' : World, w.advance id task (managerProgram (Manage.dial attempt) next) = (w', some (next .up)) ∧
      w'.floor = (Dialling.accepted ⟨w.floor, w.broker, []⟩).floor ∧
      w'.broker = (Dialling.accepted ⟨w.floor, w.broker, []⟩).broker := by
  obtain ⟨w₁, hfloor, houtside, hdial⟩ := advance_dial id task faultless attempt next
  rw [Dialling.connect_accepted h] at houtside hdial
  have houtside₂ := (outside_setLink w₁ (w₁.link.become .up)).trans houtside
  simp only [outside, Prod.mk.injEq] at houtside₂
  refine ⟨w₁.setLink (w₁.link.become .up), hdial.trans ?_, ?_, ?_⟩
  -- an accepted dial takes one more call, and is done
  · exact advance_reply (c := .manage (.become .up)) rfl
  · rw [floor_setLink, hfloor, show w₁.link = w.link.become .connecting from congrArg Floor.link hfloor]
    rfl
  · exact houtside₂.1

/-- After a refusal the server waits as the dialling does, in whole milliseconds. -/
theorem advance_dial_refused (faultless : w.brokerFaults = []) (h : w.broker.refusals ≠ 0)
    (running : w.ends ≤ task.endsSeen) (attempt : Nat) (waits : (w.settings.retry.delay attempt).nanos ≠ 0)
    (next : Manage.Dialled → Next) :
    ∃ w' task', w.advance id task (managerProgram (Manage.dial attempt) next) = (w', none) ∧
      w'.tasks.get? id = some task' ∧
      task'.due = some (w.time + ceilMillis (w.settings.retry.delay attempt)) ∧
      w'.floor = (Dialling.refused w.settings.retry attempt ⟨w.floor, w.broker, []⟩).floor ∧
      w'.broker = (Dialling.refused w.settings.retry attempt ⟨w.floor, w.broker, []⟩).broker := by
  obtain ⟨w₁, hfloor, houtside, hdial⟩ := advance_dial id task faultless attempt next
  rw [Dialling.connect_refused h] at houtside hdial
  obtain ⟨w₂, hw₂⟩ : ∃ w₂, w₂ = w₁.setLink (w₁.link.become .down) := ⟨_, rfl⟩
  have houtside₂ : w₂.outside = _ := (hw₂ ▸ outside_setLink w₁ _).trans houtside
  have hfloor₂ : w₂.floor = { w.floor with link := (w.link.become .connecting).become .down } := by
    rw [hw₂, floor_setLink, hfloor, show w₁.link = w.link.become .connecting from congrArg Floor.link hfloor]
  have hdown (task : Task) : w₁.perform task (.manage (.become .down)) = .reply () w₂ := hw₂ ▸ rfl
  simp only [outside, Prod.mk.injEq] at houtside₂
  obtain ⟨hbroker₂, -, hsettings₂, htime₂, hends₂⟩ := houtside₂
  -- the wait is not over at once, as it is longer than nothing
  have hdue : ¬ w.time + ceilMillis (w.settings.retry.delay attempt) ≤ w.time := by
    unfold ceilMillis
    omega
  have hsleep : w₂.perform { task with hold := .fresh, notice := .none } (.manage (.backoff attempt)) =
      .wait (.sleeping (w.time + ceilMillis (w.settings.retry.delay attempt))) [.shutdown]
        (some (w.time + ceilMillis (w.settings.retry.delay attempt))) w₂ := by
    change w₂.sleepOrEnd task.endsSeen (w₂.time + ceilMillis (w₂.settings.retry.delay attempt)) = _
    -- the manager was not told to end, so it sleeps
    rw [sleepOrEnd, hsettings₂, htime₂, hends₂, if_neg hdue, if_neg (Nat.not_lt.mpr running)]
    rfl
  obtain ⟨w', task', hwait, htask', hdue', hfloor', hbroker'⟩ := advance_wait id hsleep
  refine ⟨w', task', hdial.trans ((advance_reply (hdown _)).trans hwait), htask', hdue', ?_, ?_⟩
  · exact hfloor'.trans hfloor₂
  · exact hbroker'.trans hbroker₂

end Simulation.World

end Occupancy
