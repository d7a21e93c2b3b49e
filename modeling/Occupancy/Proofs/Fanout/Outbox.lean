import Occupancy.Proofs.Fanout.Floor
import Occupancy.Proofs.Fanout.Pending
import Occupancy.Proofs.Time

/-!
# Publications, flushes and managers step by step

Everybody who works on the payloads that are held back: publications of views, flushes, and managers of
the link, who flush once they are connected. Others take part by reporting failures. A turn is one
request of one worker, and what the broker replies is left open, so that a list of turns is any
interleaving under any pattern of failures.

The workers run the programs of `Publish` and `Manage` as they are. What they did to which topic is
noted in a log.
-/

namespace Occupancy

/-! ## Duties that only see to consumers -/

namespace Manage

variable {α β : Type}

/-- The duty starts and stops consumers and asks for nothing else. -/
def Tends : Duty α → Prop
  | .done _ => True
  | .ask .served next => ∀ r, Tends (next r)
  | .ask (.drop _) next => Tends (next ())
  | .ask .wanted next => ∀ r, Tends (next r)
  | .ask (.ensure _) next => ∀ r, Tends (next r)
  | .ask _ _ => False

/-- Ending the consumers tends to them only. -/
theorem tends_stopConsumers : Tends stopConsumers := by
  intro ts
  induction ts with
  | nil => trivial
  | cons t rest ih => exact ih

/-- A restart tends to the consumers only. -/
theorem tends_restart : Tends restart := by
  intro ts
  induction ts with
  | nil =>
    intro wanted
    change Tends (ensureAll wanted 0)
    generalize 0 = n
    induction wanted generalizing n with
    | nil => trivial
    -- one consumer at a time, whichever were started
    | cons t rest ih =>
      intro started
      cases started with
      | true => exact ih (n + 1)
      | false => exact ih n
  | cons t rest ih => exact ih

end Manage

/-! ## Workers -/

/-- Work that is done by one program. -/
inductive Job where
  | publish (v : RoomView)
  | flush
  /-- An attempt to connect, after `attempt` failed ones. -/
  | dial (attempt : Nat)
  | serve
  | finish
deriving DecidableEq

namespace Job

abbrev Result : Job → Type
  | .publish _ => PublishReport
  | .flush => PublishReport
  | .dial _ => Manage.Dialled
  | .serve => Bool
  | .finish => Unit

def duty {α : Type} (p : Publish.Publication α) : Manage.Duty α :=
  p.lift fun c => .ask (.publish c) .done

def program : (j : Job) → Manage.Duty j.Result
  | .publish v => duty (Publish.publishView v)
  | .flush => Manage.flush
  | .dial attempt => Manage.dial attempt
  | .serve => Manage.serve
  | .finish => Manage.finish

/-- The job that follows: a manager dials until it is connected, serves until the connection is lost,
and dials again, until the end is called. -/
def next : (j : Job) → j.Result → Option Job
  | .publish _, _ => none
  | .flush, _ => none
  | .dial _, .up => some .serve
  | .dial attempt, .retry => some (.dial (attempt + 1))
  | .dial _, .shutdown => some .finish
  | .serve, true => some .finish
  | .serve, false => some (.dial 0)
  | .finish, _ => none

end Job

/-- A worker: its job and what is left of the program. -/
structure Worker where
  job : Job
  rest : Manage.Duty job.Result

namespace Worker

def start (j : Job) : Worker :=
  ⟨j, j.program⟩

/-- Has the worker nothing left to do? -/
def isDone : Worker → Bool
  | ⟨job, .done r⟩ => (job.next r).isNone
  | ⟨_, .ask _ _⟩ => false

/-- Is the worker a manager that waits for the loss of the connection? -/
def isWaiting : Worker → Bool
  | ⟨.serve, .ask .awaitLoss _⟩ => true
  | _ => false

end Worker

/-! ## What is shared -/

/-- Something done to a topic. -/
inductive Act where
  /-- The broker accepted a payload. -/
  | accept (payload : String)
  /-- A payload was held back, while the link was up or not. -/
  | hold (h : Held) (up : Bool)
  /-- Whatever was held back was given up. -/
  | settle
deriving DecidableEq

/-- What was done to which topic, and the place of the worker who did it. -/
structure Deed where
  worker : Nat
  topic : Topic
  act : Act
deriving DecidableEq

/-- The link and the held payloads, with everybody who works on them, and the deeds so far, the latest
first. -/
structure Outbox where
  link : Link := {}
  pending : Pending := {}
  workers : List Worker := []
  log : List Deed := []

/-- The replies of the surroundings to whatever a worker asks next. -/
structure Outside where
  sent : Except BrokerError Unit := .ok ()
  /-- Did the broker accept the payload although the call failed? -/
  reached : Bool := false
  connected : Except BrokerError Unit := .ok ()
  /-- Was the end called? -/
  ended : Bool := false
  /-- Was a consumer started? -/
  started : Bool := false
  /-- The topics with consumers, or with viewers. -/
  topics : List Topic := []

/-- Does the broker accept a payload that is sent? -/
def Outside.accepts (o : Outside) : Bool :=
  o.reached || o.sent.toBool

namespace Outbox

def note (w : Outbox) (i : Nat) (t : Topic) (act : Act) : Outbox :=
  { w with log := ⟨i, t, act⟩ :: w.log }

/-- Answers a publication or a flush by worker `i`. -/
def publish (w : Outbox) (i : Nat) (o : Outside) : (c : PublishCall) → c.Reply × Outbox
  | .stamp =>
    (w.pending.nextStamp, { w with pending := { w.pending with nextStamp := w.pending.nextStamp + 1 } })
  | .linkUp => (w.link.isUp, w)
  | .send t payload => (o.sent, if o.accepts then w.note i t (.accept payload) else w)
  | .report e => ((), { w with link := w.link.report e })
  | .hold t h => ((), { w with pending := w.pending.hold t h }.note i t (.hold h w.link.isUp))
  | .settle t => ((), { w with pending := w.pending.settle t }.note i t .settle)
  | .settleSame t stamp => ((), { w with pending := w.pending.settleSame t stamp })
  | .heldTopics => (w.pending.topics, w)
  | .held t => (w.pending.held.get? t, w)

/-- Answers worker `i`, unless it has to wait. -/
def answer? (w : Outbox) (i : Nat) (o : Outside) : (c : ManageCall) → Option (c.Reply × Outbox)
  | .become s => some ((), { w with link := w.link.become s })
  | .teardown => some ((), w)
  | .connect => some (o.connected, w)
  | .backoff _ => some (o.ended, w)
  | .served => some (o.topics, w)
  | .drop _ => some ((), w)
  | .wanted => some (o.topics, w)
  | .ensure _ => some (o.started, w)
  | .publish c => some (w.publish i o c)
  | .awaitLoss =>
    if w.link.state = .down then some (false, w)
    else if o.ended then some (true, w)
    else none
  | .close => some ((), w)

def workerTurn (w : Outbox) (i : Nat) (o : Outside) : Outbox :=
  match w.workers[i]? with
  | none => w
  | some ⟨job, .done r⟩ =>
    match job.next r with
    | none => w
    | some j => { w with workers := w.workers.set i (.start j) }
  | some ⟨job, .ask c next⟩ =>
    match w.answer? i o c with
    | none => w
    | some (r, w) => { w with workers := w.workers.set i ⟨job, next r⟩ }

/-- What may happen next. -/
inductive Turn where
  /-- Somebody begins a job. -/
  | start (j : Job)
  | work (i : Nat) (o : Outside)
  /-- Somebody else, such as a consumer, reports a failure. -/
  | report (e : BrokerError)

def step (w : Outbox) : Turn → Outbox
  | .start j => { w with workers := w.workers ++ [.start j] }
  | .work i o => w.workerTurn i o
  | .report e => { w with link := w.link.report e }

/-- The outbox after a list of turns, from nothing at all. -/
def run (turns : List Turn) : Outbox :=
  turns.foldl step {}

/-- The jobs of all workers, in the order in which they began. -/
def jobs (w : Outbox) : List Job :=
  w.workers.map (·.job)

/-- No publication and no flush is under way, and every manager waits for a loss. -/
def Resting (w : Outbox) : Prop :=
  ∀ k ∈ w.workers, k.isDone = true ∨ k.isWaiting = true

instance (w : Outbox) : Decidable w.Resting :=
  inferInstanceAs (Decidable (∀ k ∈ w.workers, _))

/-- The view of a free room, after a number of seconds. -/
def freeRoom (seconds : Fin 60) : RoomView :=
  .idle ⟨7, 1, "studio", .active, none⟩ none
    (⟨seconds * 1000000000, Instant.second_inRange seconds⟩ : Instant)

/-! ## The simulated server -/

end Outbox

namespace Simulation.World

theorem aloof_outbox : Aloof fun w : World => (w.link, w.pending) :=
  ⟨fun _ _ => rfl, fun _ _ => rfl, fun _ _ => rfl, fun _ _ => rfl⟩

theorem outbox_setLink (w : World) (l : Link) :
    ((w.setLink l).link, (w.setLink l).pending) = (l, w.pending) := by
  unfold setLink
  split
  · exact aloof_outbox.wake _ _
  · rfl

/-- **Publications.** The simulated server answers a publication as in an outbox with its link and its held
payloads, with some replies of the surroundings, or it waits and leaves both alone. -/
theorem performPublish_outbox (w : World) (hold : Hold) (c : PublishCall) (i : Nat) (b : Outbox)
    (link : b.link = w.link) (pending : b.pending = w.pending) :
    match w.performPublish hold c with
    | .reply r w' => ∃ o, (b.publish i o c).1 = r ∧ (b.publish i o c).2.link = w'.link ∧
        (b.publish i o c).2.pending = w'.pending
    | .wait _ _ _ w' => w'.link = w.link ∧ w'.pending = w.pending := by
  cases c with
  | stamp => exact ⟨{}, by rw [← pending]; rfl, link, by rw [← pending]; rfl⟩
  | linkUp => exact ⟨{}, by rw [← link]; rfl, link, pending⟩
  | send t payload =>
    have leaves : Progress.Leaves (fun w : World => (w.link, w.pending)) (w.link, w.pending)
        (w.send hold t payload) := leaves_send aloof_outbox rfl
    simp only [performPublish]
    -- the outcome of the send is the one thing the outbox does not decide
    cases hsend : w.send hold t payload with
    | reply r w' =>
      rw [hsend] at leaves
      obtain ⟨hlink, hpending⟩ := Prod.mk.inj leaves
      have hsame : ∀ o : Outside, (b.publish i o (.send t payload)).2.link = b.link ∧
          (b.publish i o (.send t payload)).2.pending = b.pending := by
        intro o
        simp only [Outbox.publish]
        split <;> exact ⟨rfl, rfl⟩
      exact ⟨{ sent := r }, rfl, (hsame _).1.trans (link.trans hlink.symm),
        (hsame _).2.trans (pending.trans hpending.symm)⟩
    | wait hold interests due w' =>
      rw [hsend] at leaves
      -- a send that has to wait has changed neither
      exact Prod.mk.inj leaves
  | report e =>
    obtain ⟨hlink, hpending⟩ := Prod.mk.inj (outbox_setLink w (w.link.report e))
    refine ⟨{}, rfl, ?_, pending.trans hpending.symm⟩
    change b.link.report e = (w.setLink (w.link.report e)).link
    rw [link, hlink]
  | hold t h => exact ⟨{}, rfl, link, by rw [← pending]; rfl⟩
  | settle t => exact ⟨{}, rfl, link, by rw [← pending]; rfl⟩
  | settleSame t stamp => exact ⟨{}, rfl, link, by rw [← pending]; rfl⟩
  | heldTopics => exact ⟨{}, by rw [← pending]; rfl, link, pending⟩
  | held t => exact ⟨{}, by rw [← pending]; rfl, link, pending⟩

end Simulation.World

namespace Outbox

/-! ## What a turn comes to -/

variable {w w' : Outbox} {i : Nat} {o : Outside}

/-- What is shared may be changed by a request in a few ways, and is left alone by any other. -/
inductive Change (w : Outbox) (i : Nat) : ManageCall → Outbox → Prop where
  | same (c : ManageCall) : Change w i c w
  | become (s : LinkState) : Change w i (.become s) { w with link := w.link.become s }
  | report (e : BrokerError) : Change w i (.publish (.report e)) { w with link := w.link.report e }
  | stamp : Change w i (.publish .stamp)
      { w with pending := { w.pending with nextStamp := w.pending.nextStamp + 1 } }
  | accept (t : Topic) (payload : String) :
      Change w i (.publish (.send t payload)) (w.note i t (.accept payload))
  | hold (t : Topic) (h : Held) : Change w i (.publish (.hold t h))
      ({ w with pending := w.pending.hold t h }.note i t (.hold h w.link.isUp))
  | settle (t : Topic) : Change w i (.publish (.settle t))
      ({ w with pending := w.pending.settle t }.note i t .settle)
  | settleSame (t : Topic) (stamp : Nat) : Change w i (.publish (.settleSame t stamp))
      { w with pending := w.pending.settleSame t stamp }

/-- An answer comes with one change, which the call decides. -/
theorem change_of_answer? {c : ManageCall} {r : c.Reply} (h : w.answer? i o c = some (r, w')) :
    Change w i c w' := by
  cases c with
  | publish c =>
    cases c with
    | send t payload =>
      -- the reply does not tell whether the broker accepted the payload
      cases h
      cases o.accepts with
      | true => exact .accept t payload
      | false => exact .same _
    | linkUp | heldTopics | held =>
      cases h
      exact .same _
    | stamp => cases h; exact .stamp
    | report e => cases h; exact .report e
    | hold t h' => cases h; exact .hold t h'
    | settle t => cases h; exact .settle t
    | settleSame t stamp => cases h; exact .settleSame t stamp
  | awaitLoss =>
    simp only [answer?] at h
    split at h
    · cases h
      exact .same _
    · split at h <;> cases h
      exact .same _
  | become s => cases h; exact .become s
  | _ =>
    cases h
    exact .same _

/-- Nobody but the worker itself changes its entry, nor adds one. -/
theorem Change.workers_eq {c : ManageCall} (h : Change w i c w') : w'.workers = w.workers := by
  cases h <;> rfl

theorem Change.log_suffix {c : ManageCall} (h : Change w i c w') : w.log <:+ w'.log := by
  cases h with
  | accept | hold | settle => exact List.suffix_cons _ _
  | _ => exact List.suffix_refl _

/-- A new deed is the worker's own. -/
theorem Change.mem_log {c : ManageCall} (h : Change w i c w') {d : Deed} (hd : d ∈ w'.log) :
    d ∈ w.log ∨ d.worker = i := by
  cases h with
  | accept | hold | settle =>
    rcases List.mem_cons.mp hd with rfl | hd
    · exact .inr rfl
    · exact .inl hd
  | _ => exact .inl hd

/-- No change gives a stamp back. -/
theorem Change.nextStamp_le {c : ManageCall} (h : Change w i c w') :
    w.pending.nextStamp ≤ w'.pending.nextStamp := by
  cases h with
  | stamp => exact Nat.le_succ _
  | settleSame t stamp => exact Nat.le_of_eq Pending.nextStamp_settleSame.symm
  | _ => exact Nat.le_refl _

/-- What a topic holds back after a request, it held back before, or it was told to. -/
theorem Change.held_cases {c : ManageCall} (h : Change w i c w') {t : Topic} {x : Held}
    (held : w'.pending.held.get? t = some x) : w.pending.held.get? t = some x ∨
      c = .publish (.hold t x) ∧ ⟨i, t, .hold x w.link.isUp⟩ ∈ w'.log := by
  cases h with
  | hold t' h' =>
    change (w.pending.hold t' h').held.get? t = some x at held
    rw [Pending.get?_hold] at held
    split at held
    · rename_i htopic
      cases held
      cases htopic
      exact .inr ⟨rfl, List.mem_cons_self⟩
    · exact .inl held
  -- what is given up is held back no more, and other topics are left alone
  | settle t' =>
    change (w.pending.settle t').held.get? t = some x at held
    rw [Pending.get?_settle] at held
    split at held
    · cases held
    · exact .inl held
  | settleSame t' stamp =>
    change (w.pending.settleSame t' stamp).held.get? t = some x at held
    rw [Pending.get?_settleSame] at held
    split at held
    · cases held
    · exact .inl held
  | _ => exact .inl held

/-- The link is brought up by whoever asks for that, and by nobody else. -/
theorem Change.isUp {c : ManageCall} (h : Change w i c w') (hup : w'.link.isUp = true) :
    w.link.isUp = true ∨ c = .become .up := by
  cases h with
  | become s =>
    cases s with
    | up => exact .inr rfl
    | down | connecting => cases hup
  | report e => exact .inl (Link.isUp_of_report hup).1
  | _ => exact .inl hup

/-- What a worker does in its turn. -/
inductive Works (w : Outbox) (i : Nat) (o : Outside) : Outbox → Prop where
  /-- There is nobody, or the worker is done or has to wait. -/
  | idle : Works w i o w
  | follow {job j : Job} {r : job.Result} (found : w.workers[i]? = some ⟨job, .done r⟩)
      (next_eq : job.next r = some j) :
      Works w i o { w with workers := w.workers.set i (.start j) }
  | ask {job : Job} {c : ManageCall} {next : c.Reply → Manage.Duty job.Result} {r : c.Reply}
      {w' : Outbox} (found : w.workers[i]? = some ⟨job, .ask c next⟩)
      (answered : w.answer? i o c = some (r, w')) :
      Works w i o { w' with workers := w.workers.set i ⟨job, next r⟩ }

theorem works (w : Outbox) (i : Nat) (o : Outside) : Works w i o (w.workerTurn i o) := by
  -- idle, on to the next job, or one call further
  unfold workerTurn
  split
  · exact .idle
  · rename_i job r found
    split
    · exact .idle
    · rename_i j next_eq
      exact .follow found next_eq
  · rename_i job c next found
    split
    · exact .idle
    · rename_i r w' answered
      -- the worker's own entry is the only one that changes
      rw [(change_of_answer? answered).workers_eq]
      exact .ask found answered

end Outbox

end Occupancy
