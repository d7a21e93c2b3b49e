import Occupancy.Proofs.Fanout.Outbox
import Occupancy.Proofs.ListSet
import Occupancy.Proofs.Table

/-!
# Payloads that nobody will send

A payload that is held back while the link is not up is sent by the manager that brings the link up
again. So a payload that stays behind, with the link up and every manager waiting, was held back while
the link was up already: its publication had found the link down, or had lost it, and a manager was
faster than the step that holds the payload back.

What a manager still sends is read off the rest of its program, for every reply to come:
`Manage.Delivers`. Main statements: `stranded_iff_heldWhileUp`, and `not_always_sent` for a run in which
a payload is left behind.
-/

namespace Occupancy

namespace Manage

variable {α β : Type} {t : Topic} {h : Held}

/-! ## What a manager still sends -/

/-- Whatever the replies, as long as the topic holds `h` back: before the duty waits or ends, `h` is given
up or the loss of the connection is reported. The topics listed as held are those that hold something,
and the broker fails by losing the connection only. -/
def Delivers (t : Topic) (h : Held) : Duty α → Prop
  | .done _ => False
  | .ask .awaitLoss _ => False
  | .ask (.publish .heldTopics) next => ∀ ts : List Topic, t ∈ ts → Delivers t h (next ts)
  | .ask (.publish (.held t')) next =>
    ∀ r : Option Held, (t' = t → r = some h) → Delivers t h (next r)
  | .ask (.publish (.send _ _)) next =>
    ∀ r : Except BrokerError Unit, (∀ e, r = .error e → e.isConnectionLoss = true) →
      Delivers t h (next r)
  | .ask (.publish (.settleSame t' stamp)) next =>
    (t' = t ∧ stamp = h.stamp) ∨ Delivers t h (next ())
  | .ask (.publish (.report e)) next => e.isConnectionLoss = true ∨ Delivers t h (next ())
  | .ask _ next => ∀ r, Delivers t h (next r)

/-- What is still to be done is not done by seeing to consumers. -/
theorem delivers_bind {p : Duty β} {f : β → Duty α} (hp : Tends p)
    (hf : ∀ b, Delivers t h (f b)) : Delivers t h (p.bind f) := by
  induction p with
  | done b => exact hf b
  | ask c next ih =>
    cases c with
    | served | wanted | ensure => exact fun r => ih r (hp r)
    | drop => exact fun _ => ih () hp
    | become | teardown | connect | backoff | publish | awaitLoss | close => exact hp.elim

/-- A flush of the topics delivers what is held for one of them. -/
theorem delivers_flushTopics {ts : List Topic} (ht : t ∈ ts) (report : PublishReport)
    (f : PublishReport → Duty β) : Delivers t h ((Job.duty (Publish.flushTopics ts report)).bind f) := by
  induction ts generalizing report with
  | nil => cases ht
  | cons t' rest ih =>
    intro held hheld
    cases held with
    | none =>
      -- nothing is held for this topic, so it is another one
      have hne : t ≠ t' := by
        rintro rfl
        cases hheld rfl
      exact ih (List.mem_of_ne_of_mem hne ht) report
    | some h' =>
      -- sent or lost: a loss is reported, and so described
      intro sent loss
      cases sent with
      | ok _ =>
        by_cases hsame : t' = t
        · left
          cases hheld hsame
          exact ⟨hsame, rfl⟩
        · right
          exact ih (List.mem_of_ne_of_mem (Ne.symm hsame) ht) (report.deliver t')
      | error e => exact .inl (loss e rfl)

theorem delivers_serve (t : Topic) (h : Held) : Delivers t h serve := by
  refine delivers_bind tends_restart fun _ held ht => ?_
  exact delivers_flushTopics ht {} _

/-! ## Who brings the link up -/

/-- Whenever the duty brings the link up, what is left of it is as described. -/
def Raises (described : Duty α → Prop) : Duty α → Prop
  | .done _ => True
  | .ask (.become s) next => (s = .up → described (next ())) ∧ Raises described (next ())
  | .ask _ next => ∀ r, Raises described (next r)

variable {described : Duty α → Prop}

/-- Who raises at most what is described does so after an answer too. -/
theorem Raises.next {c : ManageCall} {next : c.Reply → Duty α}
    (h : Raises described (.ask c next)) (r : c.Reply) : Raises described (next r) := by
  cases c with
  | become s => exact h.2
  | _ => exact h r

theorem raises_bind {p : Duty β} {f : β → Duty α} (hp : Raises (fun _ => False) p)
    (hf : ∀ b, Raises described (f b)) : Raises described (p.bind f) := by
  induction p with
  | done b => exact hf b
  | ask c next ih =>
    cases c with
    -- the first program never brings the link up
    | become s => exact ⟨fun hup => (hp.1 hup).elim, ih () hp.2⟩
    | _ => exact fun r => ih r (hp r)

theorem raises_duty (p : Publish.Publication α) : Raises described (Job.duty p) := by
  induction p with
  | done a => trivial
  | ask c next ih => exact fun r => ih r

/-- Who only sees to consumers does not bring the link up. -/
theorem Tends.raises {p : Duty α} (hp : Tends p) : Raises described p := by
  induction p with
  | done a => trivial
  | ask c next ih =>
    cases c with
    | served | wanted | ensure => exact fun r => ih r (hp r)
    | drop => exact fun _ => ih () hp
    | become | teardown | connect | backoff | publish | awaitLoss | close => exact hp.elim

end Manage

namespace Worker

/-- The worker will send what the topic holds back, or report a loss. A manager that has just connected
is about to serve. -/
def Owes (t : Topic) (h : Held) : Worker → Prop
  | ⟨.dial _, p⟩ => p = .done .up
  | ⟨.serve, p⟩ => Manage.Delivers t h p
  | _ => False

/-- Whenever the worker brings the link up, it owes everything. -/
def Dutiful (k : Worker) : Prop :=
  Manage.Raises (fun p => ∀ t h, Owes t h ⟨k.job, p⟩) k.rest

variable {t : Topic} {h : Held}

/-- Every worker is dutiful when it starts. -/
theorem dutiful_start (j : Job) : (start j).Dutiful := by
  cases j with
  | publish v => exact Manage.raises_duty _
  | flush => exact Manage.raises_duty _
  | dial attempt =>
    refine ⟨fun hup => (by cases hup), fun _ connected => ?_⟩
    cases connected with
    -- the link is up as soon as the connection is there, and the manager goes on to serve
    | ok _ => exact ⟨fun _ _ _ => rfl, trivial⟩
    | error e =>
      -- a refused dial is tried again or given up, but raises nothing
      refine ⟨fun hup => (by cases hup), fun ended => ?_⟩
      cases ended <;> trivial
  | serve =>
    refine Manage.raises_bind Manage.tends_restart.raises fun _ => ?_
    exact Manage.raises_bind (Manage.raises_duty _) fun _ _ => trivial
  | finish =>
    refine Manage.raises_bind Manage.tends_stopConsumers.raises fun _ _ => ?_
    exact ⟨fun hup => (by cases hup), trivial⟩

/-- A manager that waits owes nothing. -/
theorem not_owes_of_isWaiting {k : Worker} (waiting : k.isWaiting = true) : ¬ k.Owes t h := by
  unfold isWaiting at waiting
  split at waiting
  · exact id
  · cases waiting

/-- A worker that has nothing left to do owes nothing. -/
theorem not_owes_of_isDone {k : Worker} (done : k.isDone = true) : ¬ k.Owes t h := by
  unfold isDone at done
  split at done
  · rename_i job r
    cases job with
    | dial => cases r <;> cases done
    | publish | flush | serve | finish => exact id
  · cases done

/-- What a worker owes at the end of a job, it owes at the start of the next. -/
theorem owes_start {job j : Job} {r : job.Result} (next_eq : job.next r = some j)
    (owes : Owes t h ⟨job, .done r⟩) : (start j).Owes t h := by
  cases job with
  | dial attempt =>
    cases owes
    cases next_eq
    exact Manage.delivers_serve t h
  | publish | flush | serve | finish => exact owes.elim

end Worker

namespace Outbox

variable {w w' : Outbox} {i : Nat} {o : Outside} {t : Topic} {h : Held}

/-! ## One turn -/

/-- The payload was held back while the link was up. -/
def HeldWhileUp (w : Outbox) (t : Topic) (h : Held) : Prop :=
  ∃ d ∈ w.log, d.topic = t ∧ d.act = .hold h true

/-- Does the broker fail by losing the connection only, when it is sent something? -/
def Turn.losesOnly : Turn → Bool
  | .work _ { sent := .error e, .. } => e.isConnectionLoss
  | _ => true

theorem Turn.loss {e : BrokerError} (h : (Turn.work i o).losesOnly = true) (sent : o.sent = .error e) :
    e.isConnectionLoss = true := by
  obtain ⟨_, _, _, _, _, _⟩ := o
  cases sent
  exact h

/-- Whatever is held back while the link is up was held back so, or somebody owes it. -/
structure Accounted (w : Outbox) : Prop where
  dutiful : ∀ k ∈ w.workers, k.Dutiful
  owed : ∀ t h, w.pending.held.get? t = some h → w.link.isUp = true →
    w.HeldWhileUp t h ∨ ∃ k ∈ w.workers, k.Owes t h

theorem HeldWhileUp.mono (held : w.HeldWhileUp t h) (log : w.log <:+ w'.log) : w'.HeldWhileUp t h := by
  obtain ⟨d, hd, htopic, hact⟩ := held
  exact ⟨d, log.subset hd, htopic, hact⟩

/-- A manager goes on owing what its topic still holds back, unless the link was lost. -/
theorem delivers_next {α : Type} {c : ManageCall} {next : c.Reply → Manage.Duty α} {r : c.Reply}
    (answered : w.answer? i o c = some (r, w'))
    (losses : ∀ e, o.sent = .error e → e.isConnectionLoss = true)
    (held : w.pending.held.get? t = some h) (still : w'.pending.held.get? t = some h)
    (up : w'.link.isUp = true) (delivers : Manage.Delivers t h (.ask c next)) :
    Manage.Delivers t h (next r) := by
  cases c with
  | publish c =>
    cases c with
    | heldTopics =>
      cases answered
      exact delivers _ (Pending.mem_topics held)
    | held t' =>
      cases answered
      exact delivers _ fun htopic => htopic ▸ held
    | send t' payload =>
      cases answered
      exact delivers _ losses
    | settleSame t' stamp =>
      cases answered
      rcases delivers with ⟨rfl, rfl⟩ | delivers
      · -- the topic does not hold it any more
        change (w.pending.settleSame t' h.stamp).held.get? t' = some h at still
        rw [Pending.get?_settleSame, held, if_pos ⟨rfl, rfl⟩] at still
        cases still
      · exact delivers
    | report e =>
      cases answered
      rcases delivers with loss | delivers
      · -- the link is up, so no loss was reported
        have kept := (Link.isUp_of_report up).2
        rw [loss] at kept
        cases kept
      · exact delivers
    | _ => exact delivers r
  | awaitLoss => exact delivers.elim
  | _ => exact delivers r

/-- Every turn in which only losses befall the sends leaves each payload accounted for. -/
theorem Accounted.step {turn : Turn} (hw : w.Accounted) (losses : turn.losesOnly = true) :
    (w.step turn).Accounted := by
  cases turn with
  | start j =>
    refine ⟨fun k hk => ?_, fun t h held up => ?_⟩
    · rcases List.mem_append.mp hk with hk | hk
      · exact hw.dutiful k hk
      · rw [List.mem_singleton.mp hk]
        exact Worker.dutiful_start j
    -- who owed it before still does
    · rcases hw.owed t h held up with held | ⟨k, hk, owes⟩
      · exact .inl held
      · exact .inr ⟨k, List.mem_append_left _ hk, owes⟩
  | report e => exact ⟨hw.dutiful, fun t h held up => hw.owed t h held (Link.isUp_of_report up).1⟩
  | work i o =>
    have works := w.works i o
    change (w.workerTurn i o).Accounted
    generalize w.workerTurn i o = w' at works ⊢
    cases works with
    | idle => exact hw
    | follow found next_eq =>
      refine ⟨fun k hk => ?_, fun t h held up => ?_⟩
      · rcases List.mem_or_eq_of_mem_set hk with hk | rfl
        · exact hw.dutiful k hk
        · exact Worker.dutiful_start _
      -- whoever owed it goes on to a job that owes it
      · rcases hw.owed t h held up with held | owes
        · exact .inl held
        · exact .inr (exists_mem_set found owes (Worker.owes_start next_eq))
    | @ask job c next r w' found answered =>
      have change := change_of_answer? answered
      have dutiful := hw.dutiful _ (List.mem_of_getElem? found)
      refine ⟨fun k hk => ?_, fun t h held up => ?_⟩
      · rcases List.mem_or_eq_of_mem_set hk with hk | rfl
        · exact hw.dutiful k hk
        · exact dutiful.next r
      · rcases change.held_cases held with before | ⟨rfl, deed⟩
        · rcases change.isUp up with wasUp | rfl
          · rcases hw.owed t h before wasUp with heldUp | owes
            · exact .inl (heldUp.mono change.log_suffix)
            · refine .inr (exists_mem_set found owes ?_)
              -- only a manager that serves owes anything when it asks
              cases job with
              | serve => exact delivers_next answered (fun e => Turn.loss losses) before held up
              | dial => exact fun hdone => (by cases hdone)
              | publish | flush | finish => exact id
          · -- the worker has just brought the link up
            exact .inr ⟨_, List.mem_set (List.getElem?_eq_some_iff.mp found).1 _, dutiful.1 rfl t h⟩
        · -- it was held back in this turn, which does not bring the link up
          rcases change.isUp up with wasUp | hbecome
          · exact .inl ⟨_, deed, rfl, by rw [wasUp]⟩
          · cases hbecome

/-- After any turns in which only losses befall the sends each payload is accounted for. -/
theorem accounted_run {turns : List Turn} (losses : ∀ turn ∈ turns, turn.losesOnly = true) :
    (run turns).Accounted := by
  refine List.foldlRecOn turns step ⟨fun k hk => ?_, fun t h held => ?_⟩
    fun w hw turn hturn => hw.step (losses turn hturn)
  · cases hk
  · cases held

/-! ## Whole runs -/

/-- **Who is left with a payload.** For any interleaving and any losses of the connection: once the link is
up and nobody is at work, a topic holds something back if and only if it was held back while the link was
up, that is, after a manager had connected behind the back of the publication. -/
theorem stranded_iff_heldWhileUp (turns : List Turn) (losses : ∀ turn ∈ turns, turn.losesOnly = true)
    (up : (run turns).link.isUp = true) (resting : (run turns).Resting) (t : Topic) :
    (∃ h, (run turns).pending.held.get? t = some h) ↔
      ∃ h, (run turns).pending.held.get? t = some h ∧ (run turns).HeldWhileUp t h := by
  constructor
  · rintro ⟨h, held⟩
    refine ⟨h, held, ?_⟩
    rcases (accounted_run losses).owed t h held up with heldUp | ⟨k, hk, owes⟩
    · exact heldUp
    · rcases resting k hk with done | waiting
      · exact absurd owes (Worker.not_owes_of_isDone done)
      · exact absurd owes (Worker.not_owes_of_isWaiting waiting)
  · rintro ⟨h, held, -⟩
    exact ⟨h, held⟩

/-- A publication finds the link down; before it holds its view back, a manager connects, finds nothing
to send, and waits. -/
def outrun : List Turn :=
  .start (.publish (freeRoom 0)) :: List.replicate 2 (.work 0 {}) ++
    .start (.dial 0) :: List.replicate 8 (.work 1 {}) ++ List.replicate 3 (.work 0 {})

theorem stranded_iff_heldWhileUp_outrun :
    (run outrun).link.isUp = true ∧ (run outrun).Resting ∧
      ∃ h, (run outrun).pending.held.get? (.room 7) = some h ∧
        (run outrun).HeldWhileUp (.room 7) h := by
  have up : (run outrun).link.isUp = true := by decide +kernel
  have resting : (run outrun).Resting := by decide +kernel
  refine ⟨up, resting, ?_⟩
  exact (stranded_iff_heldWhileUp outrun (by decide) up resting (.room 7)).mp
    (Option.isSome_iff_exists.mp (by decide +kernel))

/-- A payload can be left behind without any failure. -/
theorem not_always_sent :
    ¬ ∀ turns : List Turn, (∀ turn ∈ turns, turn.losesOnly = true) →
      (run turns).link.isUp = true → (run turns).Resting → ∀ t, (run turns).pending.held.get? t = none := by
  intro h
  have hnone := h outrun (by decide) (by decide +kernel) (by decide +kernel) (.room 7)
  have hsome : ((run outrun).pending.held.get? (.room 7)).isSome = true := by decide +kernel
  rw [hnone] at hsome
  cases hsome

end Outbox

end Occupancy
