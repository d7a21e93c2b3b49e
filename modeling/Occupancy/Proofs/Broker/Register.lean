import Mathlib.Data.List.Induction
import Mathlib.Logic.Function.Basic
import Occupancy.Broker.Memory

/-!
# Registers for the latest value

A register holds one payload for each topic: publishing writes it, reading empties it. `Register.serve` says
what it answers to every call of a broker. Main statements: `logged_after` reads the state of a register off
the calls that were made, with their answers; `slot_serve` says which calls leave a slot alone.
-/

namespace Occupancy

/-! ## Calls -/

/-- A call of the broker. Queues are declared with a bound of one. A read finds what the calls before it have
left, so how long it may wait for a message plays no part. -/
inductive BrokerCall where
  | connect
  /-- Makes the next attempts to connect fail. -/
  | refuse (count : Nat)
  | sever
  | teardown
  | release (t : Topic)
  | declare (t : Topic)
  | publish (t : Topic) (payload : String)
  | receive (t : Topic)
  | ack (t : Topic) (d : Delivery)

/-- What a call answers, with messages of a given kind. -/
inductive BrokerAnswer (μ : Type) where
  | done
  | read (message : Option μ)
  | failed (e : BrokerError)

namespace BrokerAnswer

variable {μ ν : Type}

/-- The answer with a function applied to its message. -/
def map (f : μ → ν) : BrokerAnswer μ → BrokerAnswer ν
  | .done => .done
  | .read message => .read (message.map f)
  | .failed e => .failed e

/-- The answer of a call that yields nothing. -/
def ofUnit (result : Except BrokerError Unit) : BrokerAnswer μ :=
  match result with
  | .ok () => .done
  | .error e => .failed e

end BrokerAnswer

abbrev BrokerEvent (μ : Type) :=
  BrokerCall × BrokerAnswer μ

/-- The failure of a call for a topic that is not declared. -/
def undeclared (t : Topic) : BrokerError :=
  .protocol ("queue " ++ t.text ++ " is not declared")

section Runs

variable {σ μ : Type} (serve : σ → BrokerCall → BrokerAnswer μ × σ) (s : σ)
  (calls : List BrokerCall) (c : BrokerCall)

def stateAfter (calls : List BrokerCall) : σ :=
  calls.foldl (fun s c => (serve s c).2) s

/-- Calls one after another, with their answers. -/
def transcript (s : σ) : List BrokerCall → List (BrokerEvent μ)
  | [] => []
  | c :: rest => (c, (serve s c).1) :: transcript (serve s c).2 rest

theorem stateAfter_concat :
    stateAfter serve s (calls ++ [c]) = (serve (stateAfter serve s calls) c).2 :=
  List.foldl_append

theorem transcript_concat : transcript serve s (calls ++ [c]) =
    transcript serve s calls ++ [(c, (serve (stateAfter serve s calls) c).1)] := by
  induction calls generalizing s with
  | nil => rfl
  | cons first rest ih => rw [List.cons_append, transcript, ih, transcript, List.cons_append]; rfl

end Runs

/-! ## The register -/

/-- A register for the latest value of each topic. -/
structure Register where
  isUp : Bool := false
  /-- How many of the next attempts to connect are refused. -/
  refusals : Nat := 0
  declared : Topic → Bool := fun _ => false
  slot : Topic → Option String := fun _ => none

namespace Register

/-- What needs the connection. -/
def whenUp (r : Register) (go : BrokerAnswer String × Register) : BrokerAnswer String × Register :=
  if r.isUp then go else (.failed .disconnected, r)

/-- What needs the connection and the declaration of a topic. -/
def whenDeclared (r : Register) (t : Topic) (go : BrokerAnswer String × Register) :
    BrokerAnswer String × Register :=
  r.whenUp (if r.declared t then go else (.failed (undeclared t), r))

def serve (r : Register) : BrokerCall → BrokerAnswer String × Register
  | .connect =>
    match r.refusals with
    | n + 1 => (.failed (.connect "connection refused"), { r with refusals := n })
    | 0 => (.done, { r with isUp := true })
  | .refuse count => (.done, { r with refusals := count })
  | .sever => (.done, { r with isUp := false })
  | .teardown => (.done, { r with isUp := false, declared := fun _ => false })
  | .release _ => (.done, r)
  | .declare t => r.whenUp (.done, { r with declared := Function.update r.declared t true })
  | .publish t payload =>
    r.whenDeclared t (.done, { r with slot := Function.update r.slot t (some payload) })
  | .receive t => r.whenDeclared t (.read (r.slot t), { r with slot := Function.update r.slot t none })
  | .ack _ _ => r.whenUp (.done, r)

/-- A call either fails for want of a connection or does what it would do when up. -/
theorem whenUp_cases (r : Register) (go : BrokerAnswer String × Register) :
    (∃ e, r.whenUp go = (.failed e, r)) ∨ r.whenUp go = go := by
  unfold whenUp
  split
  · exact .inr rfl
  · exact .inl ⟨_, rfl⟩

/-- A call either fails for want of a link or a queue, or does what it would do with both. -/
theorem whenDeclared_cases (r : Register) (t : Topic) (go : BrokerAnswer String × Register) :
    (∃ e, r.whenDeclared t go = (.failed e, r)) ∨ r.whenDeclared t go = go := by
  rcases r.whenUp_cases (if r.declared t then go else (.failed (undeclared t), r)) with hfailed | hgo
  · exact .inl hfailed
  · rw [whenDeclared, hgo]
    split
    · exact .inr rfl
    · exact .inl ⟨_, rfl⟩

def after (calls : List BrokerCall) : Register :=
  stateAfter serve {} calls

/-- Calls of a new register, with their answers. -/
def history (calls : List BrokerCall) : List (BrokerEvent String) :=
  transcript serve {} calls

end Register

/-! ## The state of the register, read off the calls -/

section Log

variable {ε : Type} {sets clears : ε → Prop}

/-- Something was set by an event of a log, and not cleared since. -/
def StillSet (sets clears : ε → Prop) (log : List ε) : Prop :=
  ∃ earlier e later, log = earlier ++ e :: later ∧ sets e ∧ ∀ e' ∈ later, ¬ clears e'

theorem stillSet_nil : ¬ StillSet sets clears [] := by
  rintro ⟨earlier, e, later, h, -⟩
  simp at h

/-- What is set after one more event was set by it, or before and is not cleared by it. -/
theorem stillSet_concat {log : List ε} {e : ε} :
    StillSet sets clears (log ++ [e]) ↔ sets e ∨ (StillSet sets clears log ∧ ¬ clears e) := by
  constructor
  -- left to right the log is cut at the event that set it
  · rintro ⟨earlier, e', later, h, hsets, hlater⟩
    rcases List.eq_nil_or_concat later with rfl | ⟨later, last, rfl⟩
    · -- the event that set it is the last one
      obtain ⟨-, hlast⟩ := List.append_inj' h rfl
      cases hlast
      exact .inl hsets
    · rw [List.concat_eq_append] at h hlater
      rw [← List.cons_append, ← List.append_assoc] at h
      obtain ⟨hlog, hlast⟩ := List.append_inj' h rfl
      cases hlast
      exact .inr ⟨⟨earlier, e', later, hlog, hsets, fun x hx => hlater x (by simp [hx])⟩,
        hlater e (by simp)⟩
  · rintro (hsets | ⟨⟨earlier, e', later, rfl, hsets, hlater⟩, hclears⟩)
    -- the newest event stands at the end of the log, or it is one more that clears nothing
    · exact ⟨log, e, [], rfl, hsets, by simp⟩
    · refine ⟨earlier, e', later ++ [e], by simp, hsets, fun x hx => ?_⟩
      rcases List.mem_append.mp hx with hx | hx
      · exact hlater x hx
      · exact List.mem_singleton.mp hx ▸ hclears

end Log

namespace BrokerEvent

/-- The connection was made. -/
def Connects (e : BrokerEvent String) : Prop :=
  e = (.connect, .done)

/-- The connection was lost or dropped. -/
def Disconnects (e : BrokerEvent String) : Prop :=
  e.1 = .sever ∨ e.1 = .teardown

def Declares (t : Topic) (e : BrokerEvent String) : Prop :=
  e = (.declare t, .done)

/-- All declarations were forgotten. -/
def Forgets (e : BrokerEvent String) : Prop :=
  e.1 = .teardown

def Accepts (t : Topic) (payload : String) (e : BrokerEvent String) : Prop :=
  e = (.publish t payload, .done)

/-- A payload was accepted for a topic, or one of its payloads was read. -/
def Replaces (t : Topic) (e : BrokerEvent String) : Prop :=
  (∃ payload, e.Accepts t payload) ∨ ∃ payload, e = (.receive t, .read (some payload))

end BrokerEvent

namespace Register

open BrokerEvent

/-- The state of a register by a log of calls: it is up if it was connected and has not been cut off since,
a topic is declared if it was declared since the last teardown, and the slot of a topic has the payload that
was accepted last, unless that was read. -/
structure Logged (r : Register) (log : List (BrokerEvent String)) : Prop where
  isUp : r.isUp = true ↔ StillSet Connects Disconnects log
  declared : ∀ t, r.declared t = true ↔ StillSet (Declares t) Forgets log
  slot : ∀ t payload, r.slot t = some payload ↔ StillSet (Accepts t payload) (Replaces t) log

namespace Logged

variable {r r' : Register} {log : List (BrokerEvent String)} {e : BrokerEvent String}

/-- An event that neither sets nor clears anything leaves the state as it is. -/
theorem idle (h : r.Logged log) (hup : ¬ e.Connects ∧ ¬ e.Disconnects)
    (hdeclared : (∀ t, ¬ e.Declares t) ∧ ¬ e.Forgets)
    (hslot : ∀ t, (∀ payload, ¬ e.Accepts t payload) ∧ ¬ e.Replaces t)
    (hsame : r'.isUp = r.isUp ∧ r'.declared = r.declared ∧ r'.slot = r.slot) :
    r'.Logged (log ++ [e]) := by
  obtain ⟨same, same', same''⟩ := hsame
  refine ⟨?_, fun t => ?_, fun t payload => ?_⟩ <;> rw [stillSet_concat]
  · simp [hup, same, h.isUp]
  · simp [hdeclared, same', h.declared]
  · simp [hslot, same'', h.slot]

/-- A call that fails says nothing about the state. -/
theorem failed (h : r.Logged log) {c : BrokerCall} (hc : c ≠ .sever ∧ c ≠ .teardown)
    (e : BrokerError) : r.Logged (log ++ [(c, .failed e)]) :=
  h.idle (by simp [Connects, Disconnects, hc]) (by simp [Declares, Forgets, hc])
    (by simp [Accepts, Replaces]) ⟨rfl, rfl, rfl⟩

/-- A call that the link's state decides is logged right if it is when the link is up. -/
theorem whenUp (h : r.Logged log) {c : BrokerCall} (hc : c ≠ .sever ∧ c ≠ .teardown)
    {go : BrokerAnswer String × Register} (hgo : go.2.Logged (log ++ [(c, go.1)])) :
    (r.whenUp go).2.Logged (log ++ [(c, (r.whenUp go).1)]) := by
  rcases r.whenUp_cases go with ⟨e, hfailed⟩ | hdone
  · rw [hfailed]
    exact h.failed hc e
  · rw [hdone]
    exact hgo

/-- A call that needs a declared queue is logged right if it is when there is one. -/
theorem whenDeclared (h : r.Logged log) {c : BrokerCall} (hc : c ≠ .sever ∧ c ≠ .teardown) (t : Topic)
    {go : BrokerAnswer String × Register} (hgo : go.2.Logged (log ++ [(c, go.1)])) :
    (r.whenDeclared t go).2.Logged (log ++ [(c, (r.whenDeclared t go).1)]) := by
  rcases r.whenDeclared_cases t go with ⟨e, hfailed⟩ | hdone
  · rw [hfailed]
    exact h.failed hc e
  · rw [hdone]
    exact hgo

/-- The state follows the log, call by call. -/
theorem serve (h : r.Logged log) (c : BrokerCall) :
    (r.serve c).2.Logged (log ++ [(c, (r.serve c).1)]) := by
  cases c with
  | connect =>
    -- a refused connect changes nothing but the refusals left
    unfold Register.serve
    cases r.refusals with
    | succ n =>
      have hfailed := h.failed (c := .connect) (by simp) (.connect "connection refused")
      exact ⟨hfailed.isUp, hfailed.declared, hfailed.slot⟩
    | zero =>
      refine ⟨?_, fun t => ?_, fun t payload => ?_⟩ <;> rw [stillSet_concat]
      · simp [Connects]
      · simp [Declares, Forgets, h.declared]
      · simp [Accepts, Replaces, h.slot]
  -- calls that are in no clause leave all three alone
  | refuse count =>
    exact h.idle (by simp [Connects, Disconnects]) (by simp [Declares, Forgets])
      (by simp [Accepts, Replaces]) ⟨rfl, rfl, rfl⟩
  -- losing the connection forgets no declaration and no payload
  | sever =>
    refine ⟨?_, fun t => ?_, fun t payload => ?_⟩ <;> rw [stillSet_concat]
    · simp [Register.serve, Connects, Disconnects]
    · simp [Register.serve, Declares, Forgets, h.declared]
    · simp [Register.serve, Accepts, Replaces, h.slot]
  -- only the teardown forgets the declared queues as well
  | teardown =>
    refine ⟨?_, fun t => ?_, fun t payload => ?_⟩ <;> rw [stillSet_concat]
    · simp [Register.serve, Connects, Disconnects]
    · simp [Register.serve, Declares, Forgets]
    · simp [Register.serve, Accepts, Replaces, h.slot]
  | release t =>
    exact h.idle (by simp [Connects, Disconnects]) (by simp [Declares, Forgets])
      (by simp [Accepts, Replaces, Register.serve]) ⟨rfl, rfl, rfl⟩
  | declare t =>
    refine h.whenUp (by simp) ⟨?_, fun t' => ?_, fun t' payload => ?_⟩ <;> rw [stillSet_concat]
    · simp [Connects, Disconnects, h.isUp]
    · rw [← h.declared]
      by_cases ht : t' = t
      · simp [Declares, ht]
      · simp [Declares, Forgets, ht, Ne.symm ht]
    · simp [Accepts, Replaces, h.slot]
  | publish t payload =>
    refine h.whenDeclared (by simp) t ⟨?_, fun t' => ?_, fun t' payload' => ?_⟩ <;> rw [stillSet_concat]
    · simp [Connects, Disconnects, h.isUp]
    · simp [Declares, Forgets, h.declared]
    · rw [← h.slot]
      -- what is written replaces what was there
      by_cases ht : t' = t
      · simp [Accepts, Replaces, ht]
      · simp [Accepts, Replaces, ht, Ne.symm ht]
  | receive t =>
    refine h.whenDeclared (by simp) t ⟨?_, fun t' => ?_, fun t' payload' => ?_⟩ <;> rw [stillSet_concat]
    · simp [Connects, Disconnects, h.isUp]
    · simp [Declares, Forgets, h.declared]
    · rw [← h.slot]
      -- only a slot with a payload is emptied
      by_cases ht : t' = t
      · cases hslot : r.slot t <;> simp [Accepts, Replaces, ht, hslot]
      · simp [Accepts, Replaces, ht, Ne.symm ht]
  | ack t d =>
    exact h.whenUp (by simp) (h.idle (by simp [Connects, Disconnects]) (by simp [Declares, Forgets])
      (by simp [Accepts, Replaces]) ⟨rfl, rfl, rfl⟩)

end Logged

/-- After any calls, the state is what their log says. -/
theorem logged_after (calls : List BrokerCall) :
    (after calls).Logged (history calls) := by
  induction calls using List.reverseRecOn with
  | nil => refine ⟨?_, ?_, ?_⟩ <;> simp [after, stateAfter, history, transcript, stillSet_nil]
  | append_singleton calls c ih =>
    rw [after, history, stateAfter_concat, transcript_concat]
    exact ih.serve c

end Register

/-- The calls that may change the slot of a topic. -/
def BrokerCall.Writes (c : BrokerCall) (t : Topic) : Prop :=
  (∃ payload, c = .publish t payload) ∨ c = .receive t

namespace Register

variable {r : Register} {c : BrokerCall} {t t' : Topic}

/-- What a call leads to when its slot is written, unless it fails. -/
theorem slot_write {go : BrokerAnswer String × Register} (hc : c.Writes t')
    (h : c.Writes t → ∃ e, (r.whenDeclared t' go).1 = .failed e) (hgo : ∀ e, go.1 ≠ .failed e)
    (hslot : ∃ waiting, go.2.slot = Function.update r.slot t' waiting) :
    (r.whenDeclared t' go).2.slot t = r.slot t := by
  -- a failed write leaves every slot alone
  rcases r.whenDeclared_cases t' go with ⟨e, hfailed⟩ | hdone
  · rw [hfailed]
  · obtain ⟨waiting, hslot⟩ := hslot
    rw [hdone] at h ⊢
    -- a write that went through is in the slot it names, and that is not the slot of the statement
    have ht : t ≠ t' := by
      rintro rfl
      obtain ⟨e, he⟩ := h hc
      exact hgo e he
    rw [hslot, Function.update_of_ne ht]

/-- A slot changes only by a call for its topic that does not fail. -/
theorem slot_serve (h : c.Writes t → ∃ e, (r.serve c).1 = .failed e) :
    (r.serve c).2.slot t = r.slot t := by
  -- only a publish or a read writes to a slot
  cases c with
  | connect =>
    unfold serve
    cases r.refusals <;> rfl
  | refuse count => rfl
  | sever => rfl
  | teardown => rfl
  | release t' => rfl
  | declare t' =>
    rcases r.whenUp_cases (.done, { r with declared := Function.update r.declared t' true }) with
      ⟨e, hfailed⟩ | hdone
    · rw [serve, hfailed]
    · rw [serve, hdone]
  | publish t' payload => exact slot_write (.inl ⟨payload, rfl⟩) h (by simp) ⟨_, rfl⟩
  | receive t' => exact slot_write (.inr rfl) h (by simp) ⟨_, rfl⟩
  | ack t' d =>
    rcases r.whenUp_cases (.done, r) with ⟨e, hfailed⟩ | hdone
    · rw [serve, hfailed]
    · rw [serve, hdone]

end Register

end Occupancy
