import Occupancy.Proofs.Fanout.Outbox

/-!
# What programs do to the value of a topic

The value of a topic is what it holds back, or else the last payload that the broker accepted for it. What
a program does to it is said by three predicates on what is left of the program, for every reply to come:
`Manage.Brings` for a publication, and `Manage.Ignores` and `Manage.Respects` for everybody else, as long as
its payload was not seen and after that. Main statements: `Manage.brings_publishView`, and
`Worker.ignores_start` for all jobs.
-/

namespace Occupancy

/-! ## The value of a topic -/

/-- What became of a topic: the payload held back, and the last one that the broker accepted. -/
structure Shelf where
  held : Option Held
  carried : Option String

/-- The payload that a topic is left with. -/
def Shelf.value (s : Shelf) : Option String :=
  (s.held.map (·.payload)).or s.carried

/-- A topic that is left with the payload of `h` stays so: the broker accepts nothing else, nothing else is
held back, and it is given up only once the broker has accepted the payload. -/
structure Shelf.Keeps (h : Held) (s s' : Shelf) : Prop where
  carried : s'.carried = s.carried ∨ s'.carried = some h.payload
  held : s'.held = s.held ∨ s'.held = some h ∨ s'.held = none ∧ s'.carried = some h.payload

namespace Shelf.Keeps

variable {h : Held} {s : Shelf}

theorem refl (s : Shelf) : s.Keeps h s :=
  ⟨.inl rfl, .inl rfl⟩

theorem carry (s : Shelf) : s.Keeps h { s with carried := some h.payload } :=
  ⟨.inr rfl, .inl rfl⟩

theorem hold (s : Shelf) : s.Keeps h { s with held := some h } :=
  ⟨.inl rfl, .inr (.inl rfl)⟩

theorem settle (carried : s.carried = some h.payload) : s.Keeps h { s with held := none } :=
  ⟨.inl rfl, .inr (.inr ⟨rfl, carried⟩)⟩

end Shelf.Keeps

namespace Outbox

/-- The last payload that the broker accepted for a topic. -/
def carried (t : Topic) : List Deed → Option String
  | [] => none
  | ⟨_, t', .accept payload⟩ :: earlier => if t' = t then some payload else carried t earlier
  | ⟨_, _, _⟩ :: earlier => carried t earlier

/-- What became of a topic. -/
def shelf (w : Outbox) (t : Topic) : Shelf :=
  ⟨w.pending.held.get? t, carried t w.log⟩

/-- The payload that a topic is left with. -/
def value (w : Outbox) (t : Topic) : Option String :=
  (w.shelf t).value

end Outbox

namespace Manage

variable {α β : Type} {t : Topic} {h : Held}

/-! ## The publication itself -/

/-- Whatever the replies, and if nobody else touches the topic, it is left with the payload of `h`, and it
is given up only once the broker has accepted that. -/
def Brings (t : Topic) (h : Held) : Duty α → Shelf → Prop
  | .done _, s => s.value = some h.payload
  | .ask (.publish (.send t' payload)) next, s =>
    (t' = t → payload = h.payload) ∧
      ∀ (r : Except BrokerError Unit) (accepted : Bool), (r = .ok () → accepted = true) →
        Brings t h (next r)
          (if t' = t ∧ accepted = true then { s with carried := some payload } else s)
  | .ask (.publish (.hold t' h')) next, s =>
    (t' = t → h' = h) ∧ Brings t h (next ()) (if t' = t then { s with held := some h' } else s)
  | .ask (.publish (.settle t')) next, s =>
    (t' = t → s.carried = some h.payload) ∧
      Brings t h (next ()) (if t' = t then { s with held := none } else s)
  | .ask (.publish (.settleSame t' _)) next, s => t' ≠ t ∧ Brings t h (next ()) s
  | .ask _ next, s => ∀ r, Brings t h (next r) s

/-- A topic that keeps its value does no harm. -/
theorem Brings.keeps {p : Duty α} {s s' : Shelf} (hp : Brings t h p s) (keeps : s.Keeps h s') :
    Brings t h p s' := by
  induction p generalizing s s' with
  | done a =>
    -- what is held back decides, and else what the broker carries
    obtain ⟨held', carried'⟩ := s'
    obtain ⟨hcarried, hheld⟩ := keeps
    simp only [Brings, Shelf.value] at hp hcarried hheld ⊢
    rcases hheld with rfl | rfl | ⟨rfl, hpayload⟩
    · cases hnone : s.held with
      | none =>
        rw [hnone] at hp
        rcases hcarried with rfl | rfl
        · exact hp
        · rfl
      | some x =>
        rw [hnone] at hp
        exact hp
    · rfl
    -- the hold is gone, and what the broker carries is the payload
    · exact hpayload
  | ask c next ih =>
    cases c with
    | publish c =>
      cases c with
      | send t' payload =>
        refine ⟨hp.1, fun r accepted haccepted => ?_⟩
        have hnext := hp.2 r accepted haccepted
        by_cases hsame : t' = t ∧ accepted = true
        · -- both topics carry the payload now, and may differ in what they hold back
          rw [if_pos hsame] at hnext ⊢
          refine ih r hnext ⟨.inl rfl, ?_⟩
          rw [hp.1 hsame.1]
          exact keeps.held.imp_right (Or.imp_right fun hnone => ⟨hnone.1, rfl⟩)
        · rw [if_neg hsame] at hnext ⊢
          exact ih r hnext keeps
      | hold t' h' =>
        -- held back again, so nothing else matters
        refine ⟨hp.1, ?_⟩
        have hnext := hp.2
        by_cases hsame : t' = t
        · rw [if_pos hsame] at hnext ⊢
          exact ih () hnext ⟨keeps.carried, .inl rfl⟩
        · rw [if_neg hsame] at hnext ⊢
          exact ih () hnext keeps
      | settle t' =>
        -- a settled topic has to carry the payload already
        refine ⟨fun htopic => keeps.carried.elim (fun hsame => hsame.trans (hp.1 htopic)) id, ?_⟩
        have hnext := hp.2
        by_cases hsame : t' = t
        · rw [if_pos hsame] at hnext ⊢
          exact ih () hnext ⟨keeps.carried, .inl rfl⟩
        · rw [if_neg hsame] at hnext ⊢
          exact ih () hnext keeps
      | settleSame t' stamp => exact ⟨hp.1, ih () hp.2 keeps⟩
      | stamp | linkUp | report | heldTopics | held => exact fun r => ih r (hp r) keeps
    | _ => exact fun r => ih r (hp r) keeps

/-- A publication that sends brings its payload to all of its topics. -/
theorem brings_sendAll {ts : List Topic} {s : Shelf} (hs : t ∈ ts ∨ s.value = some h.payload)
    (report : PublishReport) : Brings t h (Job.duty (Publish.sendAll h ts report)) s := by
  induction ts generalizing s report with
  | nil =>
    rcases hs with ht | hvalue
    · cases ht
    · exact hvalue
  | cons t' rest ih =>
    refine ⟨fun _ => rfl, fun sent accepted haccepted => ?_⟩
    by_cases htopic : t' = t
    · -- at the topic itself the value is settled one way or the other
      cases sent with
      | ok _ =>
        have htrue : accepted = true := haccepted rfl
        rw [if_pos ⟨htopic, htrue⟩]
        refine ⟨fun _ => rfl, ih (.inr ?_) _⟩
        rw [if_pos htopic]
        rfl
      | error e =>
        refine fun _ => ⟨fun _ => rfl, ih (.inr ?_) _⟩
        rw [if_pos htopic]
        rfl
    · have hrest : t ∈ rest ∨ s.value = some h.payload :=
        hs.imp_left (List.mem_of_ne_of_mem (Ne.symm htopic))
      -- the other topics are settled without touching this one
      rw [if_neg fun hsame => htopic hsame.1]
      cases sent with
      | ok _ =>
        refine ⟨fun hsame => absurd hsame htopic, ?_⟩
        rw [if_neg htopic]
        exact ih hrest _
      | error e =>
        refine fun _ => ⟨fun _ => rfl, ?_⟩
        rw [if_neg htopic]
        exact ih hrest _

/-- A publication that finds the link down brings its payload to all of its topics. -/
theorem brings_holdAll {ts : List Topic} {s : Shelf} (hs : t ∈ ts ∨ s.value = some h.payload)
    (report : PublishReport) :
    Brings t h (Job.duty ((Publish.holdAll h ts).bind fun _ => .done report)) s := by
  induction ts generalizing s with
  | nil =>
    rcases hs with ht | hvalue
    · cases ht
    · exact hvalue
  | cons t' rest ih =>
    -- the topic is among those held, or its value is right already
    refine ⟨fun _ => rfl, ih ?_⟩
    by_cases htopic : t' = t
    · right
      rw [if_pos htopic]
      rfl
    · rw [if_neg htopic]
      exact hs.imp_left (List.mem_of_ne_of_mem (Ne.symm htopic))

/-- What a publication does once it has drawn its stamp. -/
theorem brings_publishView {v : RoomView} (ht : t ∈ v.topics)
    {next : Nat → Duty PublishReport}
    (start : Job.program (.publish v) = .ask (.publish .stamp) next) (stamp : Nat) (s : Shelf) :
    Brings t ⟨v.payload, stamp⟩ (next stamp) s := by
  cases start
  intro up
  cases up with
  | true => exact brings_sendAll (.inl ht) {}
  | false => exact brings_holdAll (.inl ht) _

/-! ## Everybody else -/

/-- Whatever the replies, nothing is held back for the topic under the stamp of `h`, and what is held under
that stamp is given up only once the broker has carried its payload. A stamp is not drawn twice, and `h`
is all that is held for the topic under its stamp. -/
def Respects (t : Topic) (h : Held) : Duty α → Option String → Prop
  | .done _, _ => True
  | .ask (.publish .stamp) next, c => ∀ r : Nat, r ≠ h.stamp → Respects t h (next r) c
  | .ask (.publish (.send t' payload)) next, c =>
    ∀ (r : Except BrokerError Unit) (accepted : Bool), (r = .ok () → accepted = true) →
      Respects t h (next r) (if t' = t ∧ accepted = true then some payload else c)
  | .ask (.publish (.hold t' h')) next, c =>
    (t' = t → h'.stamp ≠ h.stamp) ∧ Respects t h (next ()) c
  | .ask (.publish (.settleSame t' stamp)) next, c =>
    (t' = t → stamp = h.stamp → c = some h.payload) ∧ Respects t h (next ()) c
  | .ask (.publish (.held t')) next, c =>
    ∀ r : Option Held, (t' = t → ∀ h', r = some h' → h'.stamp = h.stamp → h' = h) →
      Respects t h (next r) c
  | .ask _ next, c => ∀ r, Respects t h (next r) c

/-- As long as it is not seen, nothing is done to the topic under the stamp of `h`; and once it is, it is
respected. -/
def Ignores (t : Topic) (h : Held) : Duty α → Prop
  | .done _ => True
  | .ask (.publish .stamp) next => ∀ r : Nat, r ≠ h.stamp → Ignores t h (next r)
  | .ask (.publish (.hold t' h')) next => (t' = t → h'.stamp ≠ h.stamp) ∧ Ignores t h (next ())
  | .ask (.publish (.settleSame t' stamp)) next => (t' = t → stamp ≠ h.stamp) ∧ Ignores t h (next ())
  | .ask (.publish (.held t')) next =>
    (∀ r : Option Held, (t' = t → ∀ h', r = some h' → h'.stamp ≠ h.stamp) → Ignores t h (next r)) ∧
      (t' = t → ∀ c, Respects t h (next (some h)) c)
  | .ask _ next => ∀ r, Ignores t h (next r)

/-- The broker may carry the payload. -/
theorem Respects.carried {p : Duty α} {c : Option String} (hp : Respects t h p c) :
    Respects t h p (some h.payload) := by
  induction p generalizing c with
  | done a => trivial
  -- only a send to the topic makes a difference, and it carries more than before
  | ask call next ih =>
    cases call with
    | publish call =>
      cases call with
      | stamp => exact fun r hr => ih r (hp r hr)
      | send t' payload =>
        intro r accepted haccepted
        have hnext := hp r accepted haccepted
        by_cases hsame : t' = t ∧ accepted = true
        · rw [if_pos hsame] at hnext ⊢
          exact hnext
        · rw [if_neg hsame] at hnext ⊢
          exact ih r hnext
      | hold t' h' => exact ⟨hp.1, ih () hp.2⟩
      | settleSame t' stamp => exact ⟨fun _ _ => rfl, ih () hp.2⟩
      | held t' => exact fun r hr => ih r (hp r hr)
      | linkUp | report | settle | heldTopics => exact fun r => ih r (hp r)
    | _ => exact fun r => ih r (hp r)

/-- Who respects a publication does so on any shelf that keeps it. -/
theorem Respects.keeps {p : Duty α} {s s' : Shelf} (hp : Respects t h p s.carried)
    (keeps : s.Keeps h s') : Respects t h p s'.carried := by
  rcases keeps.carried with hcarried | hcarried
  · rw [hcarried]
    exact hp
  · rw [hcarried]
    exact hp.carried

/-- A program that respects a publication may go on with one that does. -/
theorem Respects.bind {p : Duty β} {f : β → Duty α} {c : Option String} (hp : Respects t h p c)
    (hf : ∀ b c, Respects t h (f b) c) : Respects t h (p.bind f) c := by
  -- by the calls of the first program, each of which keeps its own condition
  induction p generalizing c with
  | done b => exact hf b c
  | ask call next ih =>
    cases call with
    | publish call =>
      cases call with
      | stamp => exact fun r hr => ih r (hp r hr)
      | send t' payload => exact fun r accepted haccepted => ih r (hp r accepted haccepted)
      | hold t' h' => exact ⟨hp.1, ih () hp.2⟩
      | settleSame t' stamp => exact ⟨hp.1, ih () hp.2⟩
      | held t' => exact fun r hr => ih r (hp r hr)
      | linkUp | report | settle | heldTopics => exact fun r => ih r (hp r)
    | _ => exact fun r => ih r (hp r)

/-- Who has not seen it respects it, whatever the broker carries. -/
theorem Ignores.respects {p : Duty α} (hp : Ignores t h p) (c : Option String) : Respects t h p c := by
  induction p generalizing c with
  | done a => trivial
  | ask call next ih =>
    cases call with
    | publish call =>
      cases call with
      | stamp => exact fun r hr => ih r (hp r hr) c
      | send t' payload => exact fun r _ _ => ih r (hp r) _
      | hold t' h' => exact ⟨hp.1, ih () hp.2 c⟩
      | settleSame t' stamp =>
        exact ⟨fun htopic hstamp => absurd hstamp (hp.1 htopic), ih () hp.2 c⟩
      | held t' =>
        intro r hr
        -- the reply is `h` itself, or nothing under its stamp
        by_cases hseen : t' = t ∧ r = some h
        · obtain ⟨htopic, rfl⟩ := hseen
          exact hp.2 htopic c
        · refine ih r (hp.1 r fun htopic h' hr' hstamp => hseen ⟨htopic, ?_⟩) c
          rw [hr', hr htopic h' hr' hstamp]
      | linkUp | report | settle | heldTopics => exact fun r => ih r (hp r) c
    | _ => exact fun r => ih r (hp r) c

/-- A program that ignores a publication may go on with one that does. -/
theorem Ignores.bind {p : Duty β} {f : β → Duty α} (hp : Ignores t h p)
    (hf : ∀ b, Ignores t h (f b)) : Ignores t h (p.bind f) := by
  induction p with
  | done b => exact hf b
  | ask call next ih =>
    cases call with
    | publish call =>
      cases call with
      | stamp => exact fun r hr => ih r (hp r hr)
      | hold t' h' => exact ⟨hp.1, ih () hp.2⟩
      | settleSame t' stamp => exact ⟨hp.1, ih () hp.2⟩
      -- what it ignores is any other reply
      | held t' =>
        exact ⟨fun r hr => ih r (hp.1 r hr),
          fun htopic c => (hp.2 htopic c).bind fun b c => (hf b).respects c⟩
      | send | linkUp | report | settle | heldTopics => exact fun r => ih r (hp r)
    | _ => exact fun r => ih r (hp r)

/-- Who only sees to consumers ignores all that is held back. -/
theorem Tends.ignores {p : Duty α} (hp : Tends p) : Ignores t h p := by
  induction p with
  | done a => trivial
  | ask c next ih =>
    cases c with
    | served | wanted | ensure => exact fun r => ih r (hp r)
    | drop => exact fun _ => ih () hp
    | become | teardown | connect | backoff | publish | awaitLoss | close => exact hp.elim

/-- Sending under another stamp ignores the publication. -/
theorem ignores_sendAll {h' : Held} (other : h'.stamp ≠ h.stamp) (ts : List Topic)
    (report : PublishReport) : Ignores t h (Job.duty (Publish.sendAll h' ts report)) := by
  induction ts generalizing report with
  | nil => trivial
  | cons t' rest ih =>
    intro sent
    cases sent with
    | ok _ => exact fun _ => ih (report.deliver t')
    -- what fails is held back, but under the stamp of the other publication
    | error e => exact fun _ => ⟨fun _ => other, ih (report.fail t')⟩

/-- Holding back under another stamp ignores the publication. -/
theorem ignores_holdAll {h' : Held} (other : h'.stamp ≠ h.stamp) (ts : List Topic)
    (report : PublishReport) :
    Ignores t h (Job.duty ((Publish.holdAll h' ts).bind fun _ => .done report)) := by
  induction ts with
  | nil => trivial
  | cons t' rest ih => exact ⟨fun _ => other, ih⟩

/-- A flush gives up what it has sent, and nothing that took its place meanwhile. -/
theorem ignores_flushTopics (ts : List Topic) (report : PublishReport) :
    Ignores t h (Job.duty (Publish.flushTopics ts report)) := by
  induction ts generalizing report with
  | nil => trivial
  | cons t' rest ih =>
    refine ⟨fun held unseen => ?_, fun htopic c => ?_⟩
    -- it sees nothing of the publication, or goes on under the stamp it saw
    · cases held with
      | none => exact ih report
      | some h' =>
        intro sent
        cases sent with
        | ok _ => exact ⟨fun htopic => unseen htopic h' rfl, ih (report.deliver t')⟩
        | error e => exact fun _ => ih (report.fail t')
    · -- the topic holds `h`, which is sent and then given up
      subst htopic
      intro sent accepted haccepted
      cases sent with
      | ok _ =>
        have htrue : accepted = true := haccepted rfl
        refine ⟨fun _ _ => ?_, (ih (report.deliver t')).respects _⟩
        rw [if_pos ⟨rfl, htrue⟩]
      | error e => exact fun _ => (ih (report.fail t')).respects _

end Manage

/-- No job is followed by a publication. -/
theorem Job.next_ne_publish {v : RoomView} {job : Job} (r : job.Result) :
    job.next r ≠ some (.publish v) := by
  cases job with
  | dial attempt => cases r <;> exact fun h => by cases h
  | serve => cases r <;> exact fun h => by cases h
  | publish | flush | finish => exact fun h => by cases h

/-- Nobody begins with a payload in hand. -/
theorem Worker.ignores_start (j : Job) (t : Topic) (h : Held) : Manage.Ignores t h (start j).rest := by
  cases j with
  | publish v =>
    -- another stamp was drawn, whatever the payload
    intro stamp other up
    cases up with
    | true => exact Manage.ignores_sendAll other _ _
    | false => exact Manage.ignores_holdAll other _ _
  | flush => exact fun ts => Manage.ignores_flushTopics ts {}
  | dial attempt =>
    intro _ _ connected
    cases connected with
    | ok _ => exact fun _ => trivial
    | error e =>
      intro _ ended
      cases ended <;> trivial
  | serve =>
    -- a restart and an ending tend to consumers only, which no publication minds
    refine Manage.tends_restart.ignores.bind fun _ => ?_
    refine Manage.Ignores.bind (fun ts => Manage.ignores_flushTopics ts {}) fun _ _ => trivial
  | finish =>
    refine Manage.tends_stopConsumers.ignores.bind fun _ => ?_
    exact fun _ _ => trivial

end Occupancy
