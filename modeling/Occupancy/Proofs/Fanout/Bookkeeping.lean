import Occupancy.Proofs.Fanout.Pending

/-!
# What is held back, to the letter

One publisher makes publications and flushes one after the other. Whether the link is up at a look, and
what becomes of an attempt to send, is left open. Then a topic holds a payload back exactly if it is the
one published there last, and neither that publication nor a flush since got it through.
Main statement: `bookkeeping_exact`.
-/

namespace Occupancy.Publish

/-! ## A publisher at work -/

/-- What a publisher meets: whether the link is up at its look number `n`, and the reply to its attempt
number `n`. A time-out is a reply, too. -/
structure Fortune where
  isUp : Nat → Bool
  reply : Nat → Except BrokerError Unit

/-- An attempt to send a payload, with the reply. -/
structure Attempt where
  topic : Topic
  payload : String
  reply : Except BrokerError Unit

def Attempt.isOk (a : Attempt) : Bool :=
  a.reply.isOk

/-- A publisher: what it holds back, how often it looked at the link and tried to send, and the attempts
of the step under way. -/
structure Clerk where
  pending : Pending := {}
  looks : Nat := 0
  sends : Nat := 0
  attempts : List Attempt := []

/-- What a publisher is told to do. -/
inductive Step where
  | publish (v : RoomView)
  | flush

namespace Step

def program : Step → Publication PublishReport
  | .publish v => publishView v
  | .flush => Publish.flush

/-- The payload that a step brings for a topic. -/
def payload? (t : Topic) : Step → Option String
  | .publish v => if t ∈ v.topics then some v.payload else none
  | .flush => none

end Step

/-- A step that was done: what was held back before, whether the link was up at the next look, the attempts
that were made in it, and the report. -/
structure Entry where
  step : Step
  before : Pending
  isUp : Bool
  attempts : List Attempt
  report : PublishReport

namespace Clerk

variable (x : Fortune)

/-- The publisher after an attempt on a topic. -/
def sent (k : Clerk) (t : Topic) (payload : String) : Clerk :=
  { k with sends := k.sends + 1, attempts := k.attempts ++ [⟨t, payload, x.reply k.sends⟩] }

def answer : (c : PublishCall) → Clerk → c.Reply × Clerk
  | .stamp, k => (k.pending.nextStamp,
      { k with pending := { k.pending with nextStamp := k.pending.nextStamp + 1 } })
  | .linkUp, k => (x.isUp k.looks, { k with looks := k.looks + 1 })
  | .send t payload, k => (x.reply k.sends, k.sent x t payload)
  | .report _, k => ((), k)
  | .hold t h, k => ((), { k with pending := k.pending.hold t h })
  | .settle t, k => ((), { k with pending := k.pending.settle t })
  | .settleSame t stamp, k => ((), { k with pending := k.pending.settleSame t stamp })
  | .heldTopics, k => (k.pending.topics, k)
  | .held t, k => (k.pending.held.get? t, k)

/-- The publisher once it has a stamp for a publication and has looked at the link. -/
def begun (k : Clerk) : Clerk :=
  { k with
    attempts := []
    looks := k.looks + 1
    pending := { k.pending with nextStamp := k.pending.nextStamp + 1 } }

def serve (k : Clerk) (s : Step) : PublishReport × Clerk :=
  s.program.run (answer x) { k with attempts := [] }

def entry (k : Clerk) (s : Step) : Entry :=
  ⟨s, k.pending, x.isUp k.looks, (k.serve x s).2.attempts, (k.serve x s).1⟩

def after (k : Clerk) (steps : List Step) : Clerk :=
  steps.foldl (fun k s => (k.serve x s).2) k

/-- Steps as they are done one after another. -/
def journal (k : Clerk) : List Step → List Entry
  | [] => []
  | s :: rest => k.entry x s :: (k.serve x s).2.journal rest

end Clerk

/-! ## What the books should show -/

def through (as : List Attempt) : List Topic :=
  (as.filter (·.isOk)).map (·.topic)

def lost (as : List Attempt) : List Topic :=
  (as.filter (!·.isOk)).map (·.topic)

/-- A publication is reported topic by topic, in order and without repetition. It is tried on every topic
if the link was up at the start, and else on none. -/
structure PublishedExactly (v : RoomView) (e : Entry) : Prop where
  nodup : v.topics.Nodup
  delivered_sublist : e.report.delivered.Sublist v.topics
  failed_sublist : e.report.failed.Sublist v.topics
  partition : (e.report.delivered ++ e.report.failed).Perm v.topics
  tried : e.isUp = true → e.attempts.map (·.topic) = v.topics ∧
    (∀ a ∈ e.attempts, a.payload = v.payload) ∧
    e.report.delivered = through e.attempts ∧ e.report.failed = lost e.attempts
  held : e.isUp = false → e.attempts = [] ∧ e.report.delivered = [] ∧ e.report.failed = v.topics

/-- A flush tries exactly what was held back, each topic once and in order. -/
structure FlushedExactly (e : Entry) : Prop where
  sorted : (e.attempts.map (·.topic)).Pairwise fun a b => a.le b = true
  once : (e.attempts.map (·.topic)).Nodup
  tried_iff : ∀ t payload, (∃ a ∈ e.attempts, a.topic = t ∧ a.payload = payload) ↔
    (e.before.held.get? t).map (·.payload) = some payload
  delivered : e.report.delivered = through e.attempts
  failed : e.report.failed = lost e.attempts

namespace Entry

/-- A step did exactly what it should. -/
def Exact (e : Entry) : Prop :=
  match e.step with
  | .publish v => PublishedExactly v e
  | .flush => FlushedExactly e

/-- No attempt on a topic succeeded in a step. -/
def Fails (e : Entry) (t : Topic) : Prop :=
  ∀ a ∈ e.attempts, a.topic = t → a.isOk = false

end Entry

/-- By the journal, a topic is owed a payload: it is the one published there last, and neither that
publication got it through nor any flush since. -/
def Owes (journal : List Entry) (t : Topic) (payload : String) : Prop :=
  ∃ earlier e later, journal = earlier ++ e :: later ∧
    (∃ v, e.step = .publish v ∧ t ∈ v.topics ∧ payload = v.payload) ∧ e.Fails t ∧
    ∀ e' ∈ later, (∀ v, e'.step = .publish v → t ∉ v.topics) ∧ e'.Fails t

/-! ## Attempts -/

theorem Attempt.isOk_of_ok {a : Attempt} {u : Unit} (h : a.reply = .ok u) : a.isOk = true := by
  rw [isOk, h]
  rfl

theorem Attempt.isOk_of_error {a : Attempt} {e : BrokerError} (h : a.reply = .error e) :
    a.isOk = false := by
  rw [isOk, h]
  rfl

theorem through_cons_ok {a : Attempt} (ok : a.isOk = true) (as : List Attempt) :
    through (a :: as) = a.topic :: through as := by
  rw [through, through, List.filter_cons_of_pos ok, List.map_cons]

theorem through_cons_error {a : Attempt} (error : a.isOk = false) (as : List Attempt) :
    through (a :: as) = through as := by
  rw [through, through, List.filter_cons_of_neg (Bool.eq_false_iff.mp error)]

theorem lost_cons_ok {a : Attempt} (ok : a.isOk = true) (as : List Attempt) :
    lost (a :: as) = lost as := by
  rw [lost, lost, List.filter_cons_of_neg (by simp [ok])]

theorem lost_cons_error {a : Attempt} (error : a.isOk = false) (as : List Attempt) :
    lost (a :: as) = a.topic :: lost as := by
  rw [lost, lost, List.filter_cons_of_pos (by simp [error]), List.map_cons]

/-- A topic came through if an attempt at it succeeded. -/
theorem mem_through {as : List Attempt} {t : Topic} :
    t ∈ through as ↔ ∃ a ∈ as, a.topic = t ∧ a.isOk = true := by
  simp only [through, List.mem_map, List.mem_filter]
  constructor
  · rintro ⟨a, ⟨ha, ok⟩, ht⟩
    exact ⟨a, ha, ht, ok⟩
  · rintro ⟨a, ha, ht, ok⟩
    exact ⟨a, ⟨ha, ok⟩, ht⟩

/-- An entry fails for a topic unless the topic came through. -/
theorem Entry.fails_iff {e : Entry} {t : Topic} : e.Fails t ↔ t ∉ through e.attempts := by
  rw [mem_through, Fails]
  constructor
  · rintro h ⟨a, ha, ht, hok⟩
    rw [h a ha ht] at hok
    cases hok
  · intro h a ha ht
    exact Bool.eq_false_iff.mpr fun hok => h ⟨a, ha, ht, hok⟩

/-- The topics that got through and those that did not are all topics that were tried. -/
theorem perm_through_lost (as : List Attempt) :
    (through as ++ lost as).Perm (as.map (·.topic)) := by
  rw [through, lost, ← List.map_append]
  exact (List.filter_append_perm _ as).map _

theorem through_sublist (as : List Attempt) : (through as).Sublist (as.map (·.topic)) :=
  List.filter_sublist.map _

theorem lost_sublist (as : List Attempt) : (lost as).Sublist (as.map (·.topic)) :=
  List.filter_sublist.map _

theorem nodup_topics (v : RoomView) : v.topics.Nodup := by
  unfold RoomView.topics
  split <;> simp

/-! ## Stretches of attempts -/

variable {x : Fortune} {k k' : Clerk} {r : PublishReport} {ts : List Topic} {as : List Attempt}

/-- From a publisher and a report on, attempts were made on topics in order, noted and reported. -/
structure Tried (ts : List Topic) (as : List Attempt) (r : PublishReport) (k : Clerk)
    (z : PublishReport × Clerk) : Prop where
  topics : as.map (·.topic) = ts
  attempts : z.2.attempts = k.attempts ++ as
  delivered : z.1.delivered = r.delivered ++ through as
  failed : z.1.failed = r.failed ++ lost as

namespace Tried

variable {z : PublishReport × Clerk} {a : Attempt}

theorem nil (r : PublishReport) (k : Clerk) : Tried [] [] r k (r, k) :=
  ⟨rfl, (List.append_nil _).symm, (List.append_nil _).symm, (List.append_nil _).symm⟩

theorem cons_ok (ok : a.isOk = true) (noted : k'.attempts = k.attempts ++ [a])
    (h : Tried ts as (r.deliver a.topic) k' z) : Tried (a.topic :: ts) (a :: as) r k z where
  topics := congrArg _ h.topics
  attempts := by rw [h.attempts, noted, List.append_assoc, List.singleton_append]
  delivered := by
    rw [h.delivered, through_cons_ok ok]
    exact List.append_assoc _ _ _
  failed := by
    rw [h.failed, lost_cons_ok ok]
    rfl

theorem cons_error (error : a.isOk = false) (noted : k'.attempts = k.attempts ++ [a])
    (h : Tried ts as (r.fail a.topic) k' z) : Tried (a.topic :: ts) (a :: as) r k z where
  topics := congrArg _ h.topics
  attempts := by rw [h.attempts, noted, List.append_assoc, List.singleton_append]
  delivered := by
    rw [h.delivered, through_cons_error error]
    rfl
  failed := by
    rw [h.failed, lost_cons_error error]
    exact List.append_assoc _ _ _

end Tried

/-- A publication while the link is up tries every topic. Afterwards a topic holds nothing if it got the
payload, the payload if it did not, and what it held before if it was not tried. -/
theorem exists_sendAll (x : Fortune) (h : Held) {ts : List Topic} (distinct : ts.Nodup)
    (r : PublishReport) (k : Clerk) :
    ∃ as, Tried ts as r k ((sendAll h ts r).run (Clerk.answer x) k) ∧
      (∀ a ∈ as, a.payload = h.payload) ∧
      ∀ t, ((sendAll h ts r).run (Clerk.answer x) k).2.pending.held.get? t =
        if t ∈ through as then none else if t ∈ ts then some h else k.pending.held.get? t := by
  -- one attempt for one topic; the report and what is pending follow its outcome
  induction ts generalizing r k with
  | nil => exact ⟨[], .nil r k, by simp, fun t => by simp [through, sendAll, Program.run]⟩
  | cons t rest ih =>
    obtain ⟨fresh, distinct⟩ := List.nodup_cons.mp distinct
    let a : Attempt := ⟨t, h.payload, x.reply k.sends⟩
    cases hreply : x.reply k.sends with
    | ok u =>
      have ok : a.isOk = true := Attempt.isOk_of_ok hreply
      let k₁ : Clerk := { k.sent x t h.payload with pending := k.pending.settle t }
      -- a success settles the topic
      obtain ⟨as, tried, same, lookup⟩ := ih distinct (r.deliver t) k₁
      have hrun : (sendAll h (t :: rest) r).run (Clerk.answer x) k =
          (sendAll h rest (r.deliver t)).run (Clerk.answer x) k₁ := by
        simp only [sendAll, Program.run, Clerk.answer, hreply, Clerk.sent, k₁]
      rw [hrun]
      refine ⟨a :: as, tried.cons_ok ok rfl, List.forall_mem_cons.mpr ⟨rfl, same⟩, fun t' => ?_⟩
      rw [lookup, through_cons_ok ok, Pending.get?_settle]
      by_cases ht : t' = t
      · -- the topic does not come again
        subst ht
        simp [a, fresh]
      · simp [a, ht]
    | error e =>
      have error : a.isOk = false := Attempt.isOk_of_error hreply
      -- a failure holds the payload back under the topic
      let k₁ : Clerk := { k.sent x t h.payload with pending := k.pending.hold t h }
      obtain ⟨as, tried, same, lookup⟩ := ih distinct (r.fail t) k₁
      have hrun : (sendAll h (t :: rest) r).run (Clerk.answer x) k =
          (sendAll h rest (r.fail t)).run (Clerk.answer x) k₁ := by
        simp only [sendAll, Program.run, Clerk.answer, hreply, Clerk.sent, k₁]
      rw [hrun]
      refine ⟨a :: as, tried.cons_error error rfl, List.forall_mem_cons.mpr ⟨rfl, same⟩, fun t' => ?_⟩
      rw [lookup, through_cons_error error, Pending.get?_hold]
      by_cases ht : t' = t
      · -- the topic does not come again, and holds what it was given
        subst ht
        simp [fresh]
      · simp [ht]

/-- A publication while the link is not up tries nothing, and its topics hold the payload. -/
theorem run_holdAll (x : Fortune) (h : Held) (ts : List Topic) (k : Clerk) :
    ((holdAll h ts).run (Clerk.answer x) k).2.attempts = k.attempts ∧
    ∀ t, ((holdAll h ts).run (Clerk.answer x) k).2.pending.held.get? t =
      if t ∈ ts then some h else k.pending.held.get? t := by
  induction ts generalizing k with
  | nil => exact ⟨rfl, fun t => by simp [holdAll, Program.run]⟩
  | cons t rest ih =>
    obtain ⟨attempts, lookup⟩ := ih { k with pending := k.pending.hold t h }
    refine ⟨attempts, fun t' => ?_⟩
    rw [holdAll, Program.run]
    refine (lookup t').trans ?_
    rw [Pending.get?_hold]
    -- each of the topics holds the payload, whatever it held before
    by_cases ht : t' = t
    · simp [ht]
    · simp [ht]

/-- A flush tries every topic that it is given, with the payload held back there. A topic that gets it
holds nothing afterwards; all others hold what they held before. -/
theorem exists_flushTopics (x : Fortune) {ts : List Topic} (distinct : ts.Nodup) (r : PublishReport)
    (k : Clerk) (held : ∀ t ∈ ts, (k.pending.held.get? t).isSome = true) :
    ∃ as, Tried ts as r k ((flushTopics ts r).run (Clerk.answer x) k) ∧
      (∀ a ∈ as, (k.pending.held.get? a.topic).map (·.payload) = some a.payload) ∧
      ∀ t, ((flushTopics ts r).run (Clerk.answer x) k).2.pending.held.get? t =
        if t ∈ through as then none else k.pending.held.get? t := by
  induction ts generalizing r k with
  | nil => exact ⟨[], .nil r k, by simp, fun t => by simp [through, flushTopics, Program.run]⟩
  | cons t rest ih =>
    obtain ⟨fresh, distinct⟩ := List.nodup_cons.mp distinct
    obtain ⟨h, hh⟩ := Option.isSome_iff_exists.mp (held t List.mem_cons_self)
    have others : ∀ t' ∈ rest, t' ≠ t := fun t' ht' heq => fresh (heq ▸ ht')
    let a : Attempt := ⟨t, h.payload, x.reply k.sends⟩
    cases hreply : x.reply k.sends with
    | ok u =>
      have ok : a.isOk = true := Attempt.isOk_of_ok hreply
      -- what is held is still the payload that was sent
      have hpending : ∀ t', (k.pending.settleSame t h.stamp).held.get? t' =
          if t' = t then none else k.pending.held.get? t' := fun t' => by
        rw [Pending.get?_settleSame, hh]
        simp
      let k₁ : Clerk := { k.sent x t h.payload with pending := k.pending.settleSame t h.stamp }
      -- settling the one topic leaves the others held
      have held₁ : ∀ t' ∈ rest, (k₁.pending.held.get? t').isSome = true := fun t' ht' => by
        rw [hpending, if_neg (others t' ht')]
        exact held t' (List.mem_cons_of_mem _ ht')
      obtain ⟨as, tried, same, lookup⟩ := ih distinct (r.deliver t) k₁ held₁
      have hrun : (flushTopics (t :: rest) r).run (Clerk.answer x) k =
          (flushTopics rest (r.deliver t)).run (Clerk.answer x) k₁ := by
        simp only [flushTopics, Program.run, Clerk.answer, hh, hreply, Clerk.sent, k₁]
      rw [hrun]
      refine ⟨a :: as, tried.cons_ok ok rfl, ?_, fun t' => ?_⟩
      · refine List.forall_mem_cons.mpr ⟨by rw [hh]; rfl, fun b hb => ?_⟩
        have hrest : b.topic ∈ rest := tried.topics ▸ List.mem_map_of_mem hb
        rw [← same b hb, hpending, if_neg (others b.topic hrest)]
      · rw [lookup, through_cons_ok ok, hpending]
        by_cases ht : t' = t
        · simp [a, ht]
        · simp [a, ht]
    | error e =>
      -- a failure leaves what is held as it is
      have error : a.isOk = false := Attempt.isOk_of_error hreply
      obtain ⟨as, tried, same, lookup⟩ := ih distinct (r.fail t) (k.sent x t h.payload)
        fun t' ht' => held t' (List.mem_cons_of_mem _ ht')
      have hrun : (flushTopics (t :: rest) r).run (Clerk.answer x) k =
          (flushTopics rest (r.fail t)).run (Clerk.answer x) (k.sent x t h.payload) := by
        simp only [flushTopics, Program.run, Clerk.answer, hh, hreply, Clerk.sent]
      rw [hrun]
      refine ⟨a :: as, tried.cons_error error rfl, ?_, fun t' => ?_⟩
      · exact List.forall_mem_cons.mpr ⟨by rw [hh]; rfl, same⟩
      · rw [lookup, through_cons_error error]
        rfl

/-! ## One step -/

/-- A step makes the attempts that it should and reports them, and then a topic holds nothing if it got a
payload, and otherwise the payload that the step brought for it, or else what it held before. -/
def Served (x : Fortune) (k : Clerk) (s : Step) : Prop :=
  (k.entry x s).Exact ∧
  ∀ t, ((k.serve x s).2.pending.held.get? t).map (·.payload) =
    if t ∈ through (k.entry x s).attempts then none
    else (s.payload? t).or ((k.pending.held.get? t).map (·.payload))

/-- A publish while the link is up is booked as the rules say. -/
theorem served_publish_up {v : RoomView} (up : x.isUp k.looks = true) : Served x k (.publish v) := by
  obtain ⟨as, tried, same, lookup⟩ :=
    exists_sendAll x ⟨v.payload, k.pending.nextStamp⟩ (nodup_topics v) {} k.begun
  -- up: each topic of the view is tried
  have hserve : k.serve x (.publish v) =
      (sendAll ⟨v.payload, k.pending.nextStamp⟩ v.topics {}).run (Clerk.answer x) k.begun := by
    simp only [Clerk.serve, Step.program, publishView, Program.run, Clerk.answer, up, Clerk.begun]
  rw [← hserve] at tried lookup
  have hattempts : (k.entry x (.publish v)).attempts = as := tried.attempts
  have hdelivered : (k.entry x (.publish v)).report.delivered = through as := tried.delivered
  have hfailed : (k.entry x (.publish v)).report.failed = lost as := tried.failed
  refine ⟨⟨nodup_topics v, ?_, ?_, ?_, fun _ => ?_, fun down => ?_⟩, fun t => ?_⟩
  · rw [hdelivered, ← tried.topics]
    exact through_sublist as
  · rw [hfailed, ← tried.topics]
    exact lost_sublist as
  · rw [hdelivered, hfailed, ← tried.topics]
    exact perm_through_lost as
  · rw [hattempts]
    exact ⟨tried.topics, same, hdelivered, hfailed⟩
  -- the clause for a link that is down does not apply
  · rw [show (k.entry x (.publish v)).isUp = true from up] at down
    cases down
  · rw [lookup, hattempts]
    split
    · rfl
    · rw [Step.payload?]
      split <;> rfl

/-- A publish while the link is down is booked as the rules say. -/
theorem served_publish_down {v : RoomView} (down : x.isUp k.looks = false) :
    Served x k (.publish v) := by
  obtain ⟨attempts, lookup⟩ := run_holdAll x ⟨v.payload, k.pending.nextStamp⟩ v.topics k.begun
  -- down: nothing is tried, and every topic holds the payload
  have hserve : k.serve x (.publish v) = ({ failed := v.topics },
      ((holdAll ⟨v.payload, k.pending.nextStamp⟩ v.topics).run (Clerk.answer x) k.begun).2) := by
    simp only [Clerk.serve, Step.program, publishView, Program.run, Clerk.answer, down,
      Program.run_bind, Clerk.begun]
  have hattempts : (k.entry x (.publish v)).attempts = [] := by
    rw [Clerk.entry, hserve]
    exact attempts
  have hdelivered : (k.entry x (.publish v)).report.delivered = [] := by
    rw [Clerk.entry, hserve]
  have hfailed : (k.entry x (.publish v)).report.failed = v.topics := by
    rw [Clerk.entry, hserve]
  refine ⟨⟨nodup_topics v, ?_, ?_, ?_, fun up => ?_, fun _ => ?_⟩, fun t => ?_⟩
  · simp only [hdelivered, List.nil_sublist]
  · simp only [hfailed, List.Sublist.refl]
  · simp only [hdelivered, hfailed, List.nil_append, List.Perm.refl]
  · rw [show (k.entry x (.publish v)).isUp = false from down] at up
    cases up
  · exact ⟨hattempts, hdelivered, hfailed⟩
  · rw [hattempts, hserve, lookup, Step.payload?]
    simp only [through, List.filter_nil, List.map_nil, List.not_mem_nil, if_false]
    split <;> rfl

/-- A flush is booked as the rules say. -/
theorem served_flush (x : Fortune) (k : Clerk) : Served x k .flush := by
  obtain ⟨as, tried, same, lookup⟩ := exists_flushTopics x k.pending.nodup_topics {}
    { k with attempts := [] } fun t ht => Pending.mem_topics_iff.mp ht
  have hserve : k.serve x .flush =
      (flushTopics k.pending.topics {}).run (Clerk.answer x) { k with attempts := [] } := by
    simp only [Clerk.serve, Step.program, flush, Program.run, Clerk.answer]
  rw [← hserve] at tried lookup
  have hattempts : (k.entry x .flush).attempts = as := tried.attempts
  -- tried are the topics with something pending, sorted and each once
  refine ⟨⟨?_, ?_, fun t payload => ?_, ?_, ?_⟩, fun t => ?_⟩
  · rw [hattempts, tried.topics]
    exact Topic.pairwise_sort _
  · rw [hattempts, tried.topics]
    exact k.pending.nodup_topics
  · rw [hattempts]
    constructor
    · rintro ⟨a, ha, rfl, rfl⟩
      exact same a ha
    · intro held
      -- whatever is held back is listed, and what is listed is tried
      have listed : t ∈ k.pending.topics := by
        obtain ⟨h, hh, -⟩ := Option.map_eq_some_iff.mp held
        exact Pending.mem_topics hh
      rw [← tried.topics] at listed
      obtain ⟨a, ha, rfl⟩ := List.mem_map.mp listed
      exact ⟨a, ha, rfl, Option.some.inj ((same a ha).symm.trans held)⟩
  · rw [hattempts]
    exact tried.delivered
  · rw [hattempts]
    exact tried.failed
  · rw [hattempts, lookup]
    split <;> rfl

/-- Every step is booked as the rules say. -/
theorem served (x : Fortune) (k : Clerk) (s : Step) : Served x k s := by
  cases s with
  | publish v =>
    cases h : x.isUp k.looks with
    | true => exact served_publish_up h
    | false => exact served_publish_down h
  | flush => exact served_flush x k

/-! ## Runs -/

theorem payload?_eq_some_iff {s : Step} {t : Topic} {payload : String} :
    s.payload? t = some payload ↔ ∃ v, s = .publish v ∧ t ∈ v.topics ∧ payload = v.payload := by
  cases s with
  | publish v => simp [Step.payload?, eq_comm]
  | flush => simp [Step.payload?]

theorem payload?_eq_none_iff {s : Step} {t : Topic} :
    s.payload? t = none ↔ ∀ v, s = .publish v → t ∉ v.topics := by
  cases s with
  | publish v => simp [Step.payload?]
  | flush => simp [Step.payload?]

/-- A longer journal owes what its rest does, or what its first step brought and nothing later touched. -/
theorem owes_cons {e : Entry} {journal : List Entry} {t : Topic} {payload : String} :
    Owes (e :: journal) t payload ↔ Owes journal t payload ∨
      e.step.payload? t = some payload ∧ e.Fails t ∧
        ∀ e' ∈ journal, e'.step.payload? t = none ∧ e'.Fails t := by
  simp only [Owes, ← payload?_eq_some_iff, ← payload?_eq_none_iff]
  constructor
  -- the entry that left the debt is the first one or a later one
  · rintro ⟨earlier, e₁, later, hsplit, brought, fails, rest⟩
    cases earlier with
    | nil =>
      cases hsplit
      exact .inr ⟨brought, fails, rest⟩
    | cons e₀ earlier =>
      cases hsplit
      exact .inl ⟨earlier, e₁, later, rfl, brought, fails, rest⟩
  · rintro (⟨earlier, e₁, later, rfl, brought, fails, rest⟩ | ⟨brought, fails, rest⟩)
    · exact ⟨e :: earlier, e₁, later, rfl, brought, fails, rest⟩
    · exact ⟨[], e, journal, rfl, brought, fails, rest⟩

/-- After a run, a topic holds what the journal owes it, or what it held before if nothing touched that. -/
theorem held_after (x : Fortune) (k : Clerk) (steps : List Step) (t : Topic) (payload : String) :
    ((k.after x steps).pending.held.get? t).map (·.payload) = some payload ↔
      Owes (k.journal x steps) t payload ∨
      (k.pending.held.get? t).map (·.payload) = some payload ∧
        ∀ e ∈ k.journal x steps, e.step.payload? t = none ∧ e.Fails t := by
  -- induction over the steps: the first entry sets the debt for the rest
  induction steps generalizing k with
  | nil => simp [Clerk.after, Clerk.journal, Owes]
  | cons s rest ih =>
    have first := (served x k s).2 t
    refine (ih (k.serve x s).2).trans ?_
    rw [first, Clerk.journal, owes_cons, List.forall_mem_cons, Entry.fails_iff,
      show (k.entry x s).step = s from rfl]
    -- a topic that came through owes nothing, whatever was held before
    by_cases got : t ∈ through (k.entry x s).attempts
    · simp [got]
    · cases s.payload? t with
      | none => simp [got]
      | some brought => simp [got]

theorem exact_journal (x : Fortune) (k : Clerk) (steps : List Step) :
    ∀ e ∈ k.journal x steps, e.Exact := by
  induction steps generalizing k with
  | nil => simp [Clerk.journal]
  | cons s rest ih => exact List.forall_mem_cons.mpr ⟨(served x k s).1, ih _⟩

/-- **The books are exact.** Publications and flushes are done one after another, under any link states and
any replies. Each publication tries all of its topics if the link was up at the start and none if not, and
reports each of them once, in order. Each flush tries exactly what is held back, in order. And at the end a
topic holds a payload back exactly if the journal owes it. -/
theorem bookkeeping_exact (x : Fortune) (steps : List Step) :
    (∀ e ∈ Clerk.journal x {} steps, e.Exact) ∧
    ∀ t payload, ((Clerk.after x {} steps).pending.held.get? t).map (·.payload) = some payload ↔
      Owes (Clerk.journal x {} steps) t payload := by
  refine ⟨exact_journal x {} steps, fun t payload => ?_⟩
  rw [held_after]
  constructor
  · rintro (owed | ⟨held, -⟩)
    · exact owed
    · cases held
  · exact .inl

end Occupancy.Publish
