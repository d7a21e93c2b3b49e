import Mathlib.Algebra.Group.Nat.Defs
import Occupancy.Proofs.Broker.Memory
import Occupancy.Proofs.Broker.Register

/-!
# The broker refines the register

A broker whose queues are declared with a bound of one answers every sequence of calls as the register
does, whatever is lost and connected again in between, and the messages that it hands out on a topic are
numbered upwards. `MemoryBroker.Shows` relates the two; `MemoryBroker.Numbered` is what a run keeps of the
numbers. Main statement: `refines_register`.
-/

namespace Occupancy

namespace MemoryBroker

/-- Does a call. A call that fails leaves the broker alone. -/
def serve (b : MemoryBroker) : BrokerCall → BrokerAnswer Delivery × MemoryBroker
  | .connect => (.ofUnit b.connect.1, b.connect.2)
  | .refuse count => (.done, b.refuse count)
  | .sever => (.done, b.sever)
  | .teardown => (.done, b.teardown)
  | .release _ => (.done, b)
  | .declare t =>
    match b.declare t 1 with
    | .ok b' => (.done, b')
    | .error e => (.failed e, b)
  | .publish t payload =>
    match b.publish t payload with
    | .ok b' => (.done, b')
    | .error e => (.failed e, b)
  | .receive t =>
    match b.receive t with
    | .ok (message, b') => (.read message, b')
    | .error e => (.failed e, b)
  | .ack _ _ => (.ofUnit b.ack, b)

def after (calls : List BrokerCall) : MemoryBroker :=
  stateAfter serve {} calls

/-- Calls of a new broker, with their answers. -/
def history (calls : List BrokerCall) : List (BrokerEvent Delivery) :=
  transcript serve {} calls

/-- The payload that waits to be read on a topic. -/
def slot (b : MemoryBroker) (t : Topic) : Option String :=
  (b.queues.get? t).bind fun q => q.unread.head?.map (·.payload)

end MemoryBroker

/-! ## The broker is a register -/

namespace MemoryBroker

variable {b b' : MemoryBroker} {r : Register} {t t' : Topic} {q : Queue}

/-- A broker whose queues have a bound of one stands as a register does. -/
structure Shows (b : MemoryBroker) (r : Register) : Prop where
  connected : b.connected = r.isUp
  refusals : b.refusals = r.refusals
  declared : ∀ t, t ∈ b.declared ↔ r.declared t = true
  /-- A declared topic has its queue. -/
  queued : ∀ t, r.declared t = true → ∃ q, b.queues.get? t = some q
  bounded : ∀ t q, b.queues.get? t = some q → q.limit = 1 ∧ q.unread.length ≤ 1
  slot : ∀ t, b.slot t = r.slot t

theorem slot_of_get? (h : b.queues.get? t = some q) : b.slot t = q.unread.head?.map (·.payload) := by
  rw [slot, h]
  rfl

theorem slot_of_none (h : b.queues.get? t = none) : b.slot t = none := by
  rw [slot, h]
  rfl

theorem slot_congr (h : b'.queues.get? t = b.queues.get? t) : b'.slot t = b.slot t := by
  rw [slot, slot, h]

theorem slot_teardown (b : MemoryBroker) (t : Topic) : b.teardown.slot t = b.slot t := by
  rcases b.get?_teardown_cases t with hsame | ⟨hnone, q, hq, hunread⟩
  · exact slot_congr hsame
  · rw [slot_of_none hnone, slot_of_get? hq, hunread]
    rfl

namespace Shows

/-- A declared topic has a queue with room for one message. -/
theorem queue_ok (h : b.Shows r) (declared : r.declared t = true) :
    ∃ q, b.queues.get? t = some q ∧ b.queue t = .ok q := by
  obtain ⟨q, hq⟩ := h.queued t declared
  refine ⟨q, hq, ?_⟩
  simp only [queue, hq]
  exact if_pos ((h.declared t).mpr declared)

theorem queue_error (h : b.Shows r) (hdeclared : r.declared t = false) :
    b.queue t = .error (undeclared t) := by
  have hnot : t ∉ b.declared := by simp [h.declared, hdeclared]
  unfold queue
  split
  · exact if_neg hnot
  · rfl

theorem depth_le (h : b.Shows r) (t : Topic) : b.depth t ≤ 1 := by
  cases hq : b.queues.get? t with
  | none => simp [depth_of_none hq]
  | some q =>
    rw [depth_of_get? hq]
    exact (h.bounded t q hq).2

/-- A call that changes no queue. -/
theorem same (h : b.Shows r) {r' : Register} (connected : b'.connected = r'.isUp)
    (refusals : b'.refusals = r'.refusals) (hqueues : b'.queues = b.queues)
    (hdeclared : b'.declared = b.declared) (hr : r'.declared = r.declared ∧ r'.slot = r.slot) :
    b'.Shows r' where
  connected := connected
  refusals := refusals
  declared t := by rw [hdeclared, hr.1, h.declared]
  queued t ht := by rw [hqueues]; exact h.queued t (hr.1 ▸ ht)
  bounded t q hq := h.bounded t q (hqueues ▸ hq)
  slot t := by rw [slot_congr (b := b) (by rw [hqueues]), hr.2, h.slot]

/-- A connection is made unless it is refused. -/
theorem serve_connect (h : b.Shows r) :
    (b.serve .connect).1.map (·.payload) = (r.serve .connect).1 ∧
      (b.serve .connect).2.Shows (r.serve .connect).2 := by
  cases hrefusals : r.refusals with
  -- a refusal is used up and nothing else happens
  | succ n =>
    have hb : b.serve .connect = (.failed (.connect "connection refused"), { b with refusals := n }) := by
      simp [MemoryBroker.serve, connect, h.refusals, hrefusals, BrokerAnswer.ofUnit]
    have hr : r.serve .connect = (.failed (.connect "connection refused"), { r with refusals := n }) := by
      simp [Register.serve, hrefusals]
    rw [hb, hr]
    exact ⟨rfl, h.same h.connected rfl rfl rfl ⟨rfl, rfl⟩⟩
  | zero =>
    have hr : r.serve .connect = (.done, { r with isUp := true }) := by simp [Register.serve, hrefusals]
    rw [hr]
    cases hconnected : b.connected with
    | true =>
      have hb : b.serve .connect = (.done, b) := by
        simp [MemoryBroker.serve, connect, h.refusals, hrefusals, hconnected, BrokerAnswer.ofUnit]
      rw [hb]
      exact ⟨rfl, h.same hconnected h.refusals rfl rfl ⟨rfl, rfl⟩⟩
    | false =>
      -- only the link and the count of connects change, and neither is shown
      have hb : b.serve .connect = (.done, { b with connected := true, connects := b.connects + 1 }) := by
        simp [MemoryBroker.serve, connect, h.refusals, hrefusals, hconnected, BrokerAnswer.ofUnit]
      rw [hb]
      exact ⟨rfl, h.same rfl h.refusals rfl rfl ⟨rfl, rfl⟩⟩

/-- A call that needs the connection fails where the register does. -/
theorem whenUp (h : b.Shows r) {result : BrokerAnswer Delivery × MemoryBroker}
    {go : BrokerAnswer String × Register}
    (hdown : b.connected = false → result = (.failed .disconnected, b))
    (hup : b.connected = true → result.1.map (·.payload) = go.1 ∧ result.2.Shows go.2) :
    result.1.map (·.payload) = (r.whenUp go).1 ∧ result.2.Shows (r.whenUp go).2 := by
  unfold Register.whenUp
  rw [← h.connected]
  cases hconnected : b.connected with
  | false =>
    rw [hdown hconnected]
    exact ⟨rfl, h⟩
  | true => exact hup hconnected

/-- The queue of a topic gives way to another one. -/
theorem write (h : b.Shows r) {q : Queue} {waiting : Option String}
    (hbound : q.limit = 1 ∧ q.unread.length ≤ 1) (hwaiting : q.unread.head?.map (·.payload) = waiting)
    (hqueues : b'.queues = b.queues.set t q)
    (hsame : b'.connected = b.connected ∧ b'.refusals = b.refusals ∧ b'.declared = b.declared) :
    b'.Shows { r with slot := Function.update r.slot t waiting } := by
  obtain ⟨hconnected, hrefusals, hdeclared⟩ := hsame
  have hget : ∀ t', b'.queues.get? t' = if t' = t then some q else b.queues.get? t' := by
    intro t'
    rw [hqueues, Table.get?_set]
  refine ⟨hconnected.trans h.connected, hrefusals.trans h.refusals, fun t' => ?_, fun t' ht' => ?_,
    fun t' q' hq' => ?_, fun t' => ?_⟩
  -- the queue that was written stays bounded, the others are as they were
  · rw [hdeclared, h.declared]
  · rw [hget]
    split
    · exact ⟨q, rfl⟩
    · exact h.queued t' ht'
  · rw [hget] at hq'
    split at hq'
    · cases hq'
      exact hbound
    · exact h.bounded t' q' hq'
  -- and its head is the slot
  · show b'.slot t' = Function.update r.slot t waiting t'
    by_cases ht : t' = t
    · subst ht
      rw [slot_of_get? ((hget t').trans (if_pos rfl)), hwaiting, Function.update_self]
    · rw [slot_congr ((hget t').trans (if_neg ht)), h.slot, Function.update_of_ne ht]

/-- A declaration makes room for a message if there is none, and leaves what is unread. -/
theorem serve_declare (h : b.Shows r) (t : Topic) :
    (b.serve (.declare t)).1.map (·.payload) = (r.serve (.declare t)).1 ∧
      (b.serve (.declare t)).2.Shows (r.serve (.declare t)).2 := by
  refine h.whenUp (fun hdown => by simp [MemoryBroker.serve, declare, hdown]) fun hup => ?_
  have hmem : ∀ t', t' ∈ (if t ∈ b.declared then b.declared else b.declared ++ [t]) ↔
      Function.update r.declared t true t' = true := by
    intro t'
    rw [Function.update_apply]
    by_cases ht : t' = t
    · subst ht
      split <;> simp_all
    · split <;> simp [ht, h.declared]
  -- a second declaration changes at most the book
  cases hhas : b.queues.contains t with
  | true =>
    have hb : b.serve (.declare t) =
        (.done, { b with declared := if t ∈ b.declared then b.declared else b.declared ++ [t] }) := by
      simp [MemoryBroker.serve, declare, hup, hhas]
    rw [hb]
    refine ⟨rfl, h.connected, h.refusals, hmem, fun t' ht' => ?_, h.bounded, h.slot⟩
    by_cases ht : t' = t
    · exact Option.isSome_iff_exists.mp (ht ▸ hhas)
    · exact h.queued t' ((Function.update_of_ne ht _ _).symm.trans ht')
  | false =>
    -- no queue yet, so the slot was empty
    have hnone : b.queues.get? t = none := by simpa [Table.contains] using hhas
    have hslot : r.slot t = none := (h.slot t).symm.trans (slot_of_none hnone)
    -- the new queue is as empty as the slot was
    have hnew : Shows { b with queues := b.queues.set t ⟨b.nextQueue, 1, []⟩ }
        { r with slot := Function.update r.slot t none } :=
      h.write ⟨rfl, Nat.zero_le _⟩ rfl rfl ⟨rfl, rfl, rfl⟩
    rw [← hslot, Function.update_eq_self] at hnew
    have hb : b.serve (.declare t) = (.done, { b with
        declared := if t ∈ b.declared then b.declared else b.declared ++ [t]
        queues := b.queues.set t ⟨b.nextQueue, 1, []⟩
        nextQueue := b.nextQueue + 1 }) := by
      simp [MemoryBroker.serve, declare, hup, hhas]
    rw [hb]
    refine ⟨rfl, hnew.connected, hnew.refusals, hmem, fun t' ht' => ?_, hnew.bounded, hnew.slot⟩
    by_cases ht : t' = t
    · exact ⟨_, (Table.get?_set _ _ _ _).trans (if_pos ht)⟩
    · exact hnew.queued t' ((Function.update_of_ne ht _ _).symm.trans ht')

/-- A payload takes the place of what was unread. -/
theorem serve_publish (h : b.Shows r) (t : Topic) (payload : String) :
    (b.serve (.publish t payload)).1.map (·.payload) = (r.serve (.publish t payload)).1 ∧
      (b.serve (.publish t payload)).2.Shows (r.serve (.publish t payload)).2 := by
  refine h.whenUp (fun hdown => by simp [MemoryBroker.serve, publish, hdown]) fun hup => ?_
  cases declared : r.declared t with
  -- refused by both, and nothing changes
  | false =>
    have hb : b.serve (.publish t payload) = (.failed (undeclared t), b) := by
      simp [MemoryBroker.serve, publish, hup, h.queue_error declared]
    rw [hb]
    exact ⟨rfl, h⟩
  | true =>
    obtain ⟨q, hq, hqueue⟩ := h.queue_ok declared
    -- with a limit of one the push leaves the new payload alone in the queue
    have hlimit := (h.bounded t q hq).1
    have hpush := unread_push hlimit ⟨b.nextSerial, payload⟩
    have hb : b.serve (.publish t payload) = (.done, { b with
        queues := b.queues.set t (q.push ⟨b.nextSerial, payload⟩)
        nextSerial := b.nextSerial + 1 }) := by
      simp [MemoryBroker.serve, publish, hup, hqueue]
    rw [hb]
    exact ⟨rfl, h.write (q := q.push ⟨b.nextSerial, payload⟩) ⟨hlimit, by simp [hpush]⟩
      (by simp [hpush]) rfl ⟨rfl, rfl, rfl⟩⟩

/-- A read takes what is unread. -/
theorem serve_receive (h : b.Shows r) (t : Topic) :
    (b.serve (.receive t)).1.map (·.payload) = (r.serve (.receive t)).1 ∧
      (b.serve (.receive t)).2.Shows (r.serve (.receive t)).2 := by
  refine h.whenUp (fun hdown => by simp [MemoryBroker.serve, receive, hdown]) fun hup => ?_
  cases declared : r.declared t with
  | false =>
    have hb : b.serve (.receive t) = (.failed (undeclared t), b) := by
      simp [MemoryBroker.serve, receive, hup, h.queue_error declared]
    rw [hb]
    exact ⟨rfl, h⟩
  | true =>
    obtain ⟨q, hq, hqueue⟩ := h.queue_ok declared
    obtain ⟨hlimit, hlength⟩ := h.bounded t q hq
    have hslot := (slot_of_get? hq).symm.trans (h.slot t)
    cases hunread : q.unread with
    | nil =>
      rw [hunread] at hslot
      have hnone : r.slot t = none := hslot.symm
      have hb : b.serve (.receive t) = (.read none, b) := by
        simp [MemoryBroker.serve, receive, hup, hqueue, pop, hq, hunread]
      -- an empty slot stays as it is
      have hr : Function.update r.slot t none = r.slot := hnone ▸ Function.update_eq_self t r.slot
      rw [hb, hr, hnone]
      exact ⟨rfl, h⟩
    | cons m rest =>
      -- at most one message waits, so reading it leaves the queue empty
      rw [hunread] at hslot hlength
      have hrest : rest = [] := List.eq_nil_of_length_eq_zero (by simpa using hlength)
      have hsome : r.slot t = some m.payload := hslot.symm
      have hb : b.serve (.receive t) =
          (.read (some m.delivery), { b with queues := b.queues.set t { q with unread := rest } }) := by
        simp [MemoryBroker.serve, receive, hup, hqueue, pop, hq, hunread]
      rw [hb, hsome]
      exact ⟨rfl, h.write (q := { q with unread := rest }) ⟨hlimit, by simp [hrest]⟩
        (by simp [hrest]) rfl ⟨rfl, rfl, rfl⟩⟩

/-- One call is answered as the register answers it, and leads where it leads. -/
theorem serve (h : b.Shows r) (c : BrokerCall) :
    (b.serve c).1.map (·.payload) = (r.serve c).1 ∧ (b.serve c).2.Shows (r.serve c).2 := by
  cases c with
  | connect => exact h.serve_connect
  | refuse count => exact ⟨rfl, h.same h.connected rfl rfl rfl ⟨rfl, rfl⟩⟩
  | sever => exact ⟨rfl, h.same rfl h.refusals rfl rfl ⟨rfl, rfl⟩⟩
  | teardown =>
    -- teardown drops the empty queues only, and those showed an empty slot
    refine ⟨rfl, rfl, h.refusals, fun t => ?_, fun t ht => ?_, fun t q hq => ?_, fun t => ?_⟩
    · simp [MemoryBroker.serve, teardown, Register.serve]
    · cases ht
    · exact h.bounded t q (Table.get?_filter_eq_some.mp hq).1
    · exact (slot_teardown b t).trans (h.slot t)
  | release t => exact ⟨rfl, h⟩
  | declare t => exact h.serve_declare t
  | publish t payload => exact h.serve_publish t payload
  | receive t => exact h.serve_receive t
  | ack t d =>
    refine h.whenUp (fun hdown => ?_) fun hup => ?_
    · simp [MemoryBroker.serve, ack, hdown, BrokerAnswer.ofUnit]
    · have hb : b.serve (.ack t d) = (.done, b) := by
        simp [MemoryBroker.serve, ack, hup, BrokerAnswer.ofUnit]
      rw [hb]
      exact ⟨rfl, h⟩

end Shows

/-- After any calls the transcript is the register's, payload for payload, and the queues show its slots. -/
theorem shows_after (calls : List BrokerCall) :
    (history calls).map (fun e => (e.1, e.2.map (·.payload))) = Register.history calls ∧
      (after calls).Shows (Register.after calls) := by
  -- induction from the end: the last call is answered in the state the earlier ones led to
  induction calls using List.reverseRecOn with
  | nil =>
    refine ⟨rfl, rfl, rfl, fun t => ?_, fun t ht => ?_, fun t q hq => ?_, fun t => rfl⟩
    · simp [after, stateAfter, Register.after]
    · cases ht
    · cases hq
  | append_singleton calls c ih =>
    obtain ⟨hlog, hshows⟩ := ih
    obtain ⟨hanswer, hnext⟩ := hshows.serve c
    rw [history, after, Register.history, Register.after, stateAfter_concat, stateAfter_concat,
      transcript_concat, transcript_concat, List.map_append]
    exact ⟨congrArg₂ _ hlog (congrArg (fun answer => [(c, answer)]) hanswer), hnext⟩

end MemoryBroker

/-! ## The numbers of the messages -/

def BrokerEvent.isAccepted : BrokerEvent Delivery → Bool
  | (.publish _ _, .done) => true
  | _ => false

def BrokerEvent.handedOut (t : Topic) : BrokerEvent Delivery → Option Delivery
  | (.receive t', .read message) => if t' = t then message else none
  | _ => none

/-- How many payloads were accepted. -/
def accepted (log : List (BrokerEvent Delivery)) : Nat :=
  log.countP BrokerEvent.isAccepted

/-- The messages that were handed out on a topic, one after another. -/
def received (t : Topic) (log : List (BrokerEvent Delivery)) : List Delivery :=
  log.filterMap (BrokerEvent.handedOut t)

def messageName (serial : Nat) : String :=
  Decimal.text serial ++ "-0"

namespace MemoryBroker

variable {b b' : MemoryBroker} {t : Topic} {q : Queue} {log : List (BrokerEvent Delivery)}

/-- The numbers of the unread messages of a topic. -/
def waiting (b : MemoryBroker) (t : Topic) : List Nat :=
  ((b.queues.get? t).map fun q => q.unread.map (·.serial.toNat)).getD []

theorem waiting_of_get? (h : b.queues.get? t = some q) :
    b.waiting t = q.unread.map (·.serial.toNat) := by
  simp [waiting, h]

theorem waiting_of_none (h : b.queues.get? t = none) : b.waiting t = [] := by
  simp [waiting, h]

theorem waiting_congr (h : b'.queues.get? t = b.queues.get? t) : b'.waiting t = b.waiting t := by
  rw [waiting, waiting, h]

/-- A teardown drops only queues in which nothing waits. -/
theorem waiting_teardown (b : MemoryBroker) (t : Topic) : b.teardown.waiting t = b.waiting t := by
  rcases b.get?_teardown_cases t with hsame | ⟨hnone, q, hq, hunread⟩
  · exact waiting_congr hsame
  · rw [waiting_of_none hnone, waiting_of_get? hq, hunread]
    rfl

/-- Declaring a topic leaves what waits on it. -/
theorem waiting_declare {limit : Nat} (h : b.declare t limit = .ok b') (t' : Topic) :
    b'.waiting t' = b.waiting t' := by
  rcases declare_spec h t' with hsame | ⟨hnone, id, hnew⟩
  · exact waiting_congr hsame
  · rw [waiting_of_none hnone, waiting_of_get? hnew]
    rfl

/-- What a call comes to for the messages: nothing, or it puts one into a queue, or takes one out. -/
theorem serve_cases (b : MemoryBroker) (c : BrokerCall) :
    (BrokerEvent.isAccepted (c, (b.serve c).1) = false ∧
      (∀ t, BrokerEvent.handedOut t (c, (b.serve c).1) = none) ∧
      (b.serve c).2.nextSerial = b.nextSerial ∧ ∀ t, (b.serve c).2.waiting t = b.waiting t) ∨
    (∃ t payload q, c = .publish t payload ∧ b.queues.get? t = some q ∧
      b.serve c = (.done, { b with
        queues := b.queues.set t (q.push ⟨b.nextSerial, payload⟩)
        nextSerial := b.nextSerial + 1 })) ∨
    (∃ t q m rest, c = .receive t ∧ b.queues.get? t = some q ∧ q.unread = m :: rest ∧
      b.serve c =
        (.read (some m.delivery), { b with queues := b.queues.set t { q with unread := rest } })) := by
  -- all calls but an accepted publish and a successful read leave the messages alone
  cases c with
  | connect =>
    have hserial : b.connect.2.nextSerial = b.nextSerial := by
      unfold connect
      split
      · rfl
      · split <;> rfl
    exact .inl ⟨rfl, fun t => rfl, hserial, fun t => waiting_congr (by rw [serve, queues_connect])⟩
  | refuse count => exact .inl ⟨rfl, fun t => rfl, rfl, fun t => rfl⟩
  | sever => exact .inl ⟨rfl, fun t => rfl, rfl, fun t => rfl⟩
  | teardown => exact .inl ⟨rfl, fun t => rfl, rfl, fun t => waiting_teardown b t⟩
  | release t => exact .inl ⟨rfl, fun t => rfl, rfl, fun t => rfl⟩
  | declare t =>
    refine .inl ⟨rfl, fun t => rfl, ?_⟩
    cases hdeclare : b.declare t 1 with
    | error e => simp [serve, hdeclare]
    | ok b' =>
      simp [serve, hdeclare, nextSerial_declare hdeclare, waiting_declare hdeclare]
  | publish t payload =>
    cases hpublish : b.publish t payload with
    | error e => exact .inl (by simp [serve, hpublish, BrokerEvent.isAccepted, BrokerEvent.handedOut])
    | ok b' =>
      obtain ⟨q, hq, rfl⟩ := publish_eq hpublish
      refine .inr (.inl ⟨t, payload, q, rfl, hq, ?_⟩)
      simp [serve, hpublish]
  | receive t =>
    cases hreceive : b.receive t with
    | error e => exact .inl (by simp [serve, hreceive, BrokerEvent.isAccepted, BrokerEvent.handedOut])
    | ok result =>
      obtain ⟨id, -, rfl⟩ := receive_eq_pop hreceive
      -- a read of an empty queue hands nothing out
      rcases b.pop_cases t id with hnone | ⟨q, m, rest, hq, hunread, hpop⟩
      · left
        simp [serve, hreceive, hnone, BrokerEvent.isAccepted, BrokerEvent.handedOut]
      · refine .inr (.inr ⟨t, q, m, rest, rfl, hq, hunread, ?_⟩)
        simp [serve, hreceive, hpop]
  | ack t d => exact .inl ⟨rfl, fun t => rfl, rfl, fun t => rfl⟩

/-- The messages of each topic were handed out in the order of their numbers, before those that wait. -/
structure Numbered (b : MemoryBroker) (log : List (BrokerEvent Delivery)) : Prop where
  next : b.nextSerial.toNat = accepted log
  upwards : ∀ t, ∃ serials : List Nat, (received t log).map (·.id) = serials.map messageName ∧
    (serials ++ b.waiting t).Pairwise (· < ·) ∧ ∀ n ∈ serials ++ b.waiting t, n < accepted log

/-- After a message was put into a queue, what waits on any topic waited before or is that message. -/
theorem sublist_waiting_push {n : Nat} (hq : b.queues.get? t = some q)
    (hn : b.nextSerial.toNat = n) (payload : String) (t' : Topic) :
    (waiting { b with
      queues := b.queues.set t (q.push ⟨b.nextSerial, payload⟩)
      nextSerial := b.nextSerial + 1 } t').Sublist (b.waiting t' ++ [n]) := by
  -- a push may drop messages from the front, which keeps the order of the rest
  by_cases ht : t' = t
  · subst ht
    rw [waiting_of_get? hq, waiting_of_get? ((Table.get?_set _ _ _ _).trans (if_pos rfl)), ← hn]
    simpa [Queue.push] using List.drop_sublist (q.unread.length + 1 - q.limit)
      (q.unread.map (·.serial.toNat) ++ [b.nextSerial.toNat])
  · rw [waiting_congr ((Table.get?_set _ _ _ _).trans (if_neg ht))]
    exact List.sublist_append_left _ _

namespace Numbered

/-- A message that is put into a queue has the greatest number. -/
theorem publish {payload : String} (h : b.Numbered log) (hq : b.queues.get? t = some q)
    (few : accepted log + 1 < 2 ^ 64) :
    Numbered { b with
      queues := b.queues.set t (q.push ⟨b.nextSerial, payload⟩)
      nextSerial := b.nextSerial + 1 } (log ++ [(.publish t payload, .done)]) := by
  have haccepted : accepted (log ++ [(.publish t payload, .done)]) = accepted log + 1 := by
    simp [accepted, BrokerEvent.isAccepted]
  refine ⟨?_, fun t' => ?_⟩
  -- fewer than two to the sixty-four publishes, so the counter has not wrapped
  · rw [haccepted, UInt64.toNat_add, h.next]
    exact Nat.mod_eq_of_lt few
  · have hreceived : received t' (log ++ [(.publish t payload, .done)]) = received t' log := by
      simp [received, BrokerEvent.handedOut]
    obtain ⟨serials, hids, hsorted, hbound⟩ := h.upwards t'
    -- the numbers so far with the new one are still sorted
    have hsorted' : (serials ++ b.waiting t' ++ [accepted log]).Pairwise (· < ·) :=
      List.pairwise_append.mpr ⟨hsorted, by simp, by simpa using hbound⟩
    have hbound' : ∀ n ∈ serials ++ b.waiting t' ++ [accepted log], n < accepted log + 1 := by
      intro n hn
      rcases List.mem_append.mp hn with hn | hn
      · exact Nat.lt_succ_of_lt (hbound n hn)
      · rw [List.mem_singleton.mp hn]
        exact Nat.lt_succ_self _
    -- what waits is among them
    have hsub := (List.Sublist.refl serials).append
      (sublist_waiting_push hq h.next payload t')
    rw [← List.append_assoc] at hsub
    rw [haccepted, hreceived]
    exact ⟨serials, hids, hsorted'.sublist hsub, fun n hn => hbound' n (hsub.mem hn)⟩

/-- A message that is taken out of a queue has the first number that waited. -/
theorem receive {m : Message} {rest : List Message} (h : b.Numbered log)
    (hq : b.queues.get? t = some q) (hunread : q.unread = m :: rest) :
    Numbered { b with queues := b.queues.set t { q with unread := rest } }
      (log ++ [(.receive t, .read (some m.delivery))]) := by
  have haccepted : accepted (log ++ [(.receive t, .read (some m.delivery))]) = accepted log := by
    simp [accepted, BrokerEvent.isAccepted]
  refine ⟨by rw [haccepted]; exact h.next, fun t' => ?_⟩
  obtain ⟨serials, hids, hsorted, hbound⟩ := h.upwards t'
  rw [haccepted]
  by_cases ht : t' = t
  -- the number that waited first moves to the end of those handed out
  · subst ht
    have hreceived : received t' (log ++ [(.receive t', .read (some m.delivery))]) =
        received t' log ++ [m.delivery] := by
      simp [received, BrokerEvent.handedOut]
    have hwaiting : b.waiting t' = m.serial.toNat :: rest.map (·.serial.toNat) := by
      rw [waiting_of_get? hq, hunread, List.map_cons]
    have hwaiting' : waiting { b with queues := b.queues.set t' { q with unread := rest } } t' =
        rest.map (·.serial.toNat) :=
      waiting_of_get? (q := { q with unread := rest }) ((Table.get?_set _ _ _ _).trans (if_pos rfl))
    rw [hwaiting] at hsorted hbound
    rw [hreceived, hwaiting']
    refine ⟨serials ++ [m.serial.toNat], ?_, ?_, ?_⟩
    · rw [List.map_append, hids, List.map_append]
      rfl
    · simpa using hsorted
    · simpa using hbound
  -- another topic's numbers are where they were
  · have hreceived : received t' (log ++ [(.receive t, .read (some m.delivery))]) =
        received t' log := by
      simp [received, BrokerEvent.handedOut, Ne.symm ht]
    have hwaiting : waiting { b with queues := b.queues.set t { q with unread := rest } } t' =
        b.waiting t' :=
      waiting_congr ((Table.get?_set _ _ _ _).trans (if_neg ht))
    rw [hreceived, hwaiting]
    exact ⟨serials, hids, hsorted, hbound⟩

/-- Every call keeps the messages numbered upwards, as long as the counter does not wrap. -/
theorem serve (h : b.Numbered log) (c : BrokerCall)
    (few : accepted (log ++ [(c, (b.serve c).1)]) < 2 ^ 64) :
    (b.serve c).2.Numbered (log ++ [(c, (b.serve c).1)]) := by
  rcases b.serve_cases c with ⟨hnot, hnone, hnext, hwaiting⟩ |
    ⟨t, payload, q, rfl, hq, hserve⟩ | ⟨t, q, m, rest, rfl, hq, hunread, hserve⟩
  · have haccepted : accepted (log ++ [(c, (b.serve c).1)]) = accepted log := by
      simp [accepted, hnot]
    refine ⟨by rw [hnext, haccepted, h.next], fun t => ?_⟩
    have hreceived : received t (log ++ [(c, (b.serve c).1)]) = received t log := by
      simp [received, hnone]
    rw [hreceived, hwaiting, haccepted]
    exact h.upwards t
  · rw [hserve] at few ⊢
    exact h.publish hq (by simpa [accepted, BrokerEvent.isAccepted] using few)
  · rw [hserve]
    exact h.receive hq hunread

end Numbered

theorem numbered_after (calls : List BrokerCall) (few : accepted (history calls) < 2 ^ 64) :
    (after calls).Numbered (history calls) := by
  induction calls using List.reverseRecOn with
  | nil => exact ⟨rfl, fun t => ⟨[], rfl, List.Pairwise.nil, nofun⟩⟩
  | append_singleton calls c ih =>
    rw [history, transcript_concat] at few ⊢
    rw [after, stateAfter_concat]
    refine (ih (Nat.lt_of_le_of_lt ?_ few)).serve c few
    simp [accepted, history]

/-- **A broker whose queues are declared with a bound of one is a register for the latest value.** After
whatever calls were made of a new broker,
* every call was answered as the register answers it;
* the payload that waits on a topic is the one in its slot of the register, and no more than one waits;
* a topic is declared if it was declared since the last teardown, and what waits on it is the payload that was
  accepted last and has not been read, whatever was lost and connected again in between;
* the next call leaves a slot alone if it fails, or does not publish to its topic or read from it;
* the messages that were handed out on a topic are numbered upwards, as long as the numbers do not run out. -/
theorem refines_register (calls : List BrokerCall) :
    (history calls).map (fun e => (e.1, e.2.map (·.payload))) = Register.history calls ∧
      (∀ t, (after calls).slot t = (Register.after calls).slot t ∧ (after calls).depth t ≤ 1) ∧
      (Register.after calls).Logged (Register.history calls) ∧
      (∀ c t, (c.Writes t → ∃ e, ((after calls).serve c).1 = .failed e) →
        ((after calls).serve c).2.slot t = (after calls).slot t) ∧
      (accepted (history calls) < 2 ^ 64 → ∀ t, ∃ serials : List Nat,
        (received t (history calls)).map (·.id) = serials.map messageName ∧ serials.Pairwise (· < ·)) := by
  obtain ⟨hlog, hshows⟩ := shows_after calls
  refine ⟨hlog, fun t => ⟨hshows.slot t, hshows.depth_le t⟩, Register.logged_after calls,
    fun c t hc => ?_, fun few t => ?_⟩
  -- the slot is read off the register, for which the frame is known
  · obtain ⟨hanswer, hnext⟩ := hshows.serve c
    rw [hnext.slot, hshows.slot]
    refine Register.slot_serve fun hwrites => ?_
    obtain ⟨e, he⟩ := hc hwrites
    exact ⟨e, by rw [← hanswer, he]; rfl⟩
  -- those handed out are an initial part of a sorted list
  · obtain ⟨serials, hids, hsorted, -⟩ := (numbered_after calls few).upwards t
    exact ⟨serials, hids, (List.pairwise_append.mp hsorted).1⟩

/-- The latest payload waits through a teardown until the topic is declared again. -/
example : (history [.connect, .declare .allRooms, .publish .allRooms "a", .publish .allRooms "b", .teardown,
      .connect, .receive .allRooms, .declare .allRooms, .receive .allRooms, .receive .allRooms]).map (·.2) =
    [.done, .done, .done, .done, .done, .done, .failed (undeclared .allRooms), .done,
      .read (some ⟨"1-0", "b"⟩), .read none] := by
  rfl

end MemoryBroker

end Occupancy
