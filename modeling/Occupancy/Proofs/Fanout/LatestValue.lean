import Occupancy.Proofs.Fanout.Shelf

/-!
# Which payload a topic ends with

Publications run side by side and in any order, and a flush sends what it has read before: so the value that
a topic is left with need not be that of the latest publication. It is, as long as nobody overtakes: once
the publication has first written to the topic, no other worker holds back or gives up anything there, nor
gets another payload accepted.

Main statements: `value_of_not_overtaken`, and `not_always_latest` for a run that ends with an older view.
-/

namespace Occupancy

namespace Outbox

/-! ## Overtaking -/

/-- Did worker `i` do anything to the topic? -/
def Wrote (i : Nat) (t : Topic) (log : List Deed) : Prop :=
  ∃ d ∈ log, d.worker = i ∧ d.topic = t

/-- After worker `i` had first written to the topic, another one did something else there than to get the
same payload accepted. -/
def Overtaken (i : Nat) (t : Topic) (payload : String) : List Deed → Prop
  | [] => False
  | d :: earlier =>
    (d.topic = t ∧ d.worker ≠ i ∧ d.act ≠ .accept payload ∧ Wrote i t earlier) ∨
      Overtaken i t payload earlier

instance (i : Nat) (t : Topic) (log : List Deed) : Decidable (Wrote i t log) :=
  inferInstanceAs (Decidable (∃ d ∈ log, d.worker = i ∧ d.topic = t))

instance decidableOvertaken (i : Nat) (t : Topic) (payload : String) :
    (log : List Deed) → Decidable (Overtaken i t payload log)
  | [] => .isFalse id
  | _ :: earlier =>
    have := decidableOvertaken i t payload earlier
    inferInstanceAs (Decidable (_ ∨ _))

/-- The publication by worker `i` is the last one of a view that concerns the topic. -/
def Latest (w : Outbox) (i : Nat) (v : RoomView) (t : Topic) : Prop :=
  w.jobs[i]? = some (.publish v) ∧ t ∈ v.topics ∧
    ∀ j v', i < j → w.jobs[j]? = some (.publish v') → t ∉ v'.topics

variable {w w' : Outbox} {i j : Nat} {o : Outside} {t : Topic} {h : Held}

/-! ## One request -/

theorem accepts_of_sent (sent : o.sent = .ok ()) : o.accepts = true := by
  simp [Outside.accepts, sent, Except.toBool]

/-- A send carries its payload to the broker, if it is accepted. -/
theorem shelf_send {payload : String} {t' : Topic} {r : Except BrokerError Unit}
    (answered : w.answer? i o (.publish (.send t' payload)) = some (r, w')) (t : Topic) :
    w'.shelf t =
      if t' = t ∧ o.accepts = true then { w.shelf t with carried := some payload } else w.shelf t := by
  cases answered
  cases haccepts : o.accepts with
  | true => by_cases htopic : t' = t <;> simp [shelf, note, carried, htopic]
  | false => simp

/-- Holding a payload back changes the shelf of its topic only. -/
theorem shelf_hold {h : Held} {t' : Topic} {r : Unit}
    (answered : w.answer? i o (.publish (.hold t' h)) = some (r, w')) (t : Topic) :
    w'.shelf t = if t' = t then { w.shelf t with held := some h } else w.shelf t := by
  cases answered
  by_cases htopic : t' = t
  · simp [shelf, note, carried, htopic]
  · simp [shelf, note, carried, htopic, Ne.symm htopic]

/-- Settling a topic empties its shelf only. -/
theorem shelf_settle {t' : Topic} {r : Unit}
    (answered : w.answer? i o (.publish (.settle t')) = some (r, w')) (t : Topic) :
    w'.shelf t = if t' = t then { w.shelf t with held := none } else w.shelf t := by
  cases answered
  by_cases htopic : t' = t
  · simp [shelf, note, carried, htopic]
  · simp [shelf, note, carried, htopic, Ne.symm htopic]

theorem shelf_settleSame {t' : Topic} {stamp : Nat} {r : Unit}
    (answered : w.answer? i o (.publish (.settleSame t' stamp)) = some (r, w')) (t : Topic) :
    w'.shelf t =
      if t' = t ∧ (w.pending.held.get? t).map (·.stamp) = some stamp then
        { w.shelf t with held := none }
      else w.shelf t := by
  cases answered
  by_cases htopic : t' = t
  · subst htopic
    by_cases hsame : (w.pending.held.get? t').map (·.stamp) = some stamp <;> simp [shelf, hsame]
  · simp [shelf, htopic, Ne.symm htopic]

section

variable {α : Type} {c : ManageCall} {next : c.Reply → Manage.Duty α} {r : c.Reply}
  (answered : w.answer? i o c = some (r, w'))

include answered

/-- A worker that ignores a publication keeps ignoring it, as long as it neither draws nor reads its stamp. -/
theorem ignores_next (undrawn : c = .publish .stamp → w.pending.nextStamp ≠ h.stamp)
    (unheld : ∀ h', w.pending.held.get? t = some h' → h'.stamp ≠ h.stamp)
    (hp : Manage.Ignores t h (.ask c next)) : Manage.Ignores t h (next r) := by
  cases c with
  | publish c =>
    cases c with
    | stamp =>
      -- the stamp drawn is another one
      cases answered
      exact hp _ (undrawn rfl)
    | hold | settleSame => exact hp.2
    | held t' =>
      cases answered
      -- the payload looked up is another one
      refine hp.1 _ fun htopic h' hheld => ?_
      subst htopic
      exact unheld h' hheld
    | send | linkUp | report | settle | heldTopics => exact hp r
  | _ => exact hp r

/-- A worker that respects a publication still does after a call, on the shelf as the call leaves it. -/
theorem respects_next (undrawn : w.pending.nextStamp ≠ h.stamp)
    (own : ∀ h', w.pending.held.get? t = some h' → h'.stamp = h.stamp → h' = h)
    (hp : Manage.Respects t h (.ask c next) (w.shelf t).carried) :
    Manage.Respects t h (next r) (w'.shelf t).carried := by
  cases c with
  | publish c =>
    cases c with
    | stamp =>
      cases answered
      exact hp _ undrawn
    | send t' payload =>
      rw [shelf_send answered]
      cases answered
      -- the two cases are whether the send reached the topic's queue
      have hnext := hp o.sent o.accepts accepts_of_sent
      split <;> rename_i hsame
      · rw [if_pos hsame] at hnext
        exact hnext
      · rw [if_neg hsame] at hnext
        exact hnext
    | hold | settleSame =>
      cases answered
      exact hp.2
    | held t' =>
      cases answered
      -- what was read under the topic with this stamp is the publication's own
      refine hp _ fun htopic h' hheld hstamp => ?_
      subst htopic
      exact own h' hheld hstamp
    | linkUp | report | settle | heldTopics =>
      cases answered
      exact hp _
  | awaitLoss =>
    have hsame : w' = w := by
      cases change_of_answer? answered
      rfl
    rw [hsame]
    exact hp r
  | _ =>
    cases answered
    exact hp _

/-- A worker that is to bring a payload still is after a call that does not carry or hold it. -/
theorem brings_next (hp : Manage.Brings t h (.ask c next) (w.shelf t)) :
    Manage.Brings t h (next r) (w'.shelf t) := by
  cases c with
  | publish c =>
    cases c with
    | send t' payload =>
      rw [shelf_send answered]
      cases answered
      exact hp.2 o.sent o.accepts accepts_of_sent
    | hold t' h' =>
      rw [shelf_hold answered]
      exact hp.2
    | settle t' =>
      rw [shelf_settle answered]
      exact hp.2
    | settleSame t' stamp =>
      -- what is given up under this stamp is not of its topic
      rw [shelf_settleSame answered, if_neg fun hsame => hp.1 hsame.1]
      exact hp.2
    | stamp | linkUp | report | heldTopics | held =>
      cases answered
      exact hp _
  | awaitLoss =>
    have hsame : w' = w := by
      cases change_of_answer? answered
      rfl
    rw [hsame]
    exact hp r
  | _ =>
    cases answered
    exact hp _

end

/-! ## Stamps -/

/-- A stamp that was not drawn yet is not in use anywhere, and a worker that is not there has done
nothing. -/
structure Stamped (w : Outbox) : Prop where
  held : ∀ t h, w.pending.held.get? t = some h → h.stamp < w.pending.nextStamp
  ignored : ∀ k ∈ w.workers, ∀ t h, w.pending.nextStamp ≤ h.stamp → Manage.Ignores t h k.rest
  known : ∀ d ∈ w.log, d.worker < w.workers.length

theorem Stamped.step {turn : Turn} (hw : w.Stamped) : (w.step turn).Stamped := by
  cases turn with
  | start j =>
    refine ⟨hw.held, fun k hk t h undrawn => ?_, fun d hd => ?_⟩
    · rcases List.mem_append.mp hk with hk | hk
      · exact hw.ignored k hk t h undrawn
      -- a new worker knows no stamp
      · rw [List.mem_singleton.mp hk]
        exact Worker.ignores_start j t h
    · have := hw.known d hd
      change d.worker < (w.workers ++ [Worker.start j]).length
      rw [List.length_append]
      omega
  | report e => exact ⟨hw.held, hw.ignored, hw.known⟩
  | work i o =>
    have works := w.works i o
    change (w.workerTurn i o).Stamped
    generalize w.workerTurn i o = w' at works ⊢
    cases works with
    | idle => exact hw
    | follow found next_eq =>
      refine ⟨hw.held, fun k hk t h undrawn => ?_, fun d hd => ?_⟩
      · rcases List.mem_or_eq_of_mem_set hk with hk | rfl
        -- nor does a job that follows another
        · exact hw.ignored k hk t h undrawn
        · exact Worker.ignores_start _ t h
      · change d.worker < (w.workers.set i _).length
        rw [List.length_set]
        exact hw.known d hd
    | @ask job c next r w' found answered =>
      have change := change_of_answer? answered
      have ignored := hw.ignored _ (List.mem_of_getElem? found)
      refine ⟨fun t h held => ?_, fun k hk t h undrawn => ?_, fun d hd => ?_⟩
      · rcases change.held_cases held with before | ⟨rfl, -⟩
        · exact Nat.lt_of_lt_of_le (hw.held t h before) change.nextStamp_le
        · -- nothing is held back under a stamp that was not drawn
          refine Nat.lt_of_lt_of_le (Nat.lt_of_not_le fun undrawn => ?_) change.nextStamp_le
          exact (ignored t h undrawn).1 rfl rfl
      · have before : w.pending.nextStamp ≤ h.stamp := Nat.le_trans change.nextStamp_le undrawn
        rcases List.mem_or_eq_of_mem_set hk with hk | rfl
        · exact hw.ignored k hk t h before
        · refine ignores_next answered (fun hstamp => ?_) (fun h' held => ?_) (ignored t h before)
          · subst hstamp
            cases answered
            exact Nat.ne_of_lt undrawn
          · exact Nat.ne_of_lt (Nat.lt_of_lt_of_le (hw.held t h' held) before)
      · change d.worker < (w.workers.set i _).length
        rw [List.length_set]
        rcases change.mem_log hd with hd | rfl
        · exact hw.known d hd
        · exact (List.getElem?_eq_some_iff.mp found).1

theorem stamped_run (turns : List Turn) : (run turns).Stamped := by
  refine List.foldlRecOn turns Outbox.step ⟨fun t h held => ?_, fun k hk => ?_, fun d hd => ?_⟩
    fun w hw turn _ => hw.step
  · cases held
  · cases hk
  · cases hd

/-! ## How far a publication has come -/

/-- The publication of `h` by worker `i` has written to the topic, and nobody has spoilt that. -/
structure Ahead (w : Outbox) (i : Nat) (t : Topic) (h : Held) (p : Manage.Duty PublishReport) :
    Prop where
  shown : (w.shelf t).carried = some h.payload ∨ (w.shelf t).held = some h
  own : ∀ h', (w.shelf t).held = some h' → h'.stamp = h.stamp → h' = h
  others : ∀ j k, j ≠ i → w.workers[j]? = some k →
    Manage.Respects t h k.rest (w.shelf t).carried
  brings : Manage.Brings t h p (w.shelf t)

/-- How far the publication of a view by worker `i` has come with a topic. -/
inductive Stage (w : Outbox) (i : Nat) (v : RoomView) (t : Topic) (p : Manage.Duty PublishReport) :
    Prop where
  /-- It has no stamp yet. -/
  | fresh (start : Job.program (.publish v) = p) (unwritten : ¬ Wrote i t w.log)
  /-- It has its stamp, which nobody else knows as far as the topic is concerned. -/
  | drawn (stamp : Nat) (below : stamp < w.pending.nextStamp) (unwritten : ¬ Wrote i t w.log)
      (unheld : ∀ h, w.pending.held.get? t = some h → h.stamp ≠ stamp)
      (others : ∀ j k, j ≠ i → w.workers[j]? = some k →
        Manage.Ignores t ⟨v.payload, stamp⟩ k.rest)
      (brings : ∀ s, Manage.Brings t ⟨v.payload, stamp⟩ p s)
  /-- It has written to the topic. -/
  | written (stamp : Nat) (below : stamp < w.pending.nextStamp) (wrote : Wrote i t w.log)
      (ahead : ¬ Overtaken i t v.payload w.log → w.Ahead i t ⟨v.payload, stamp⟩ p)

theorem Wrote.mono {log log' : List Deed} (wrote : Wrote i t log) (hlog : log <:+ log') :
    Wrote i t log' := by
  obtain ⟨d, hd, hwho⟩ := wrote
  exact ⟨d, hlog.subset hd, hwho⟩

/-- What was overtaken stays overtaken. -/
theorem Overtaken.mono {payload : String} {log log' : List Deed} (overtaken : Overtaken i t payload log)
    (hlog : log <:+ log') : Overtaken i t payload log' := by
  obtain ⟨later, rfl⟩ := hlog
  induction later with
  | nil => exact overtaken
  | cons d rest ih => exact .inr ih

/-- What is ahead stays so while the topic keeps its value. -/
theorem Ahead.keeps {p p' : Manage.Duty PublishReport} (ahead : w.Ahead i t h p)
    (keeps : (w.shelf t).Keeps h (w'.shelf t))
    (others : ∀ j k, j ≠ i → w'.workers[j]? = some k → Manage.Respects t h k.rest (w'.shelf t).carried)
    (brings : Manage.Brings t h p' (w'.shelf t)) : w'.Ahead i t h p' := by
  refine ⟨?_, ?_, others, brings⟩
  · rcases ahead.shown with hcarried | hheld
    -- whichever place shows the payload keeps doing so, or the other one does by now
    · exact .inl (keeps.carried.elim (fun hsame => hsame.trans hcarried) id)
    · rcases keeps.held with hsame | hown | ⟨-, hcarried⟩
      · exact .inr (hsame.trans hheld)
      · exact .inr hown
      · exact .inl hcarried
  · intro h' hheld hstamp
    rcases keeps.held with hsame | hown | ⟨hnone, -⟩
    · exact ahead.own h' (hsame.symm.trans hheld) hstamp
    · exact Option.some.inj (hheld.symm.trans hown)
    · rw [hnone] at hheld
      cases hheld

section

variable {α : Type} {c : ManageCall} {next : c.Reply → Manage.Duty α} {r : c.Reply}

/-- The publication itself keeps what it brings. -/
theorem keeps_own (answered : w.answer? i o c = some (r, w'))
    (brings : Manage.Brings t h (.ask c next) (w.shelf t)) : (w.shelf t).Keeps h (w'.shelf t) := by
  have change := change_of_answer? answered
  cases c with
  | publish c =>
    cases c with
    | send t' payload =>
      rw [shelf_send answered]
      split
      · rename_i hsame
        -- the payload sent to its own topic is its own
        rw [brings.1 hsame.1]
        exact .carry _
      · exact .refl _
    | hold t' h' =>
      rw [shelf_hold answered]
      -- and so is the one it holds back
      split
      · rename_i htopic
        rw [brings.1 htopic]
        exact .hold _
      · exact .refl _
    | settle t' =>
      rw [shelf_settle answered]
      split
      · rename_i htopic
        exact .settle (brings.1 htopic)
      · exact .refl _
    | settleSame t' stamp =>
      rw [shelf_settleSame answered, if_neg fun hsame => brings.1 hsame.1]
      exact .refl _
    | stamp | linkUp | report | heldTopics | held => cases change <;> exact .refl _
  | _ => cases change <;> exact .refl _

/-- Another worker keeps it too, unless it overtakes. -/
theorem keeps_other {p : Manage.Duty PublishReport} (answered : w.answer? j o c = some (r, w'))
    (other : j ≠ i) (wrote : Wrote i t w.log) (ahead : w.Ahead i t h p)
    (respects : Manage.Respects t h (.ask c next) (w.shelf t).carried)
    (kept : ¬ Overtaken i t h.payload w'.log) : (w.shelf t).Keeps h (w'.shelf t) := by
  have change := change_of_answer? answered
  cases c with
  | publish c =>
    cases c with
    | send t' payload =>
      rw [shelf_send answered]
      split
      · rename_i hsame
        obtain ⟨rfl, haccepts⟩ := hsame
        -- the broker got the same payload once more
        have hpayload : payload = h.payload := by
          cases answered
          rw [haccepts, if_pos rfl] at kept
          refine Decidable.byContradiction fun hne => ?_
          refine kept (.inl ⟨rfl, other, fun hact => hne ?_, wrote⟩)
          cases hact
          rfl
        -- a different payload would have overtaken
        rw [hpayload]
        exact .carry _
      · exact .refl _
    | hold t' h' =>
      rw [shelf_hold answered]
      split
      · rename_i htopic
        cases answered
        -- a later write to the topic would overtake
        exact absurd (.inl ⟨htopic, other, fun hact => (by cases hact), wrote⟩) kept
      · exact .refl _
    | settle t' =>
      rw [shelf_settle answered]
      split
      · rename_i htopic
        cases answered
        exact absurd (.inl ⟨htopic, other, fun hact => (by cases hact), wrote⟩) kept
      · exact .refl _
    | settleSame t' stamp =>
      rw [shelf_settleSame answered]
      split
      · rename_i hsame
        obtain ⟨rfl, hstamp⟩ := hsame
        -- what is given up was sent before, or is not what the publication holds back
        have hcarried : (w.shelf t').carried = some h.payload := by
          rcases ahead.shown with hcarried | hheld
          · exact hcarried
          · refine respects.1 rfl ?_
            change w.pending.held.get? t' = some h at hheld
            rw [hheld] at hstamp
            exact (Option.some.inj hstamp).symm
        exact .settle hcarried
      · exact .refl _
    | stamp | linkUp | report | heldTopics | held => cases change <;> exact .refl _
  | _ => cases change <;> exact .refl _

/-- A publication that has not written to the topic brings its payload all the same. -/
theorem brings_unwritten (answered : w.answer? i o c = some (r, w'))
    (brings : ∀ s, Manage.Brings t h (.ask c next) s) (unwritten : ¬ Wrote i t w'.log) (s : Shelf) :
    Manage.Brings t h (next r) s := by
  cases c with
  | publish c =>
    cases c with
    | send t' payload =>
      cases answered
      have hnext := (brings s).2 o.sent o.accepts accepts_of_sent
      rw [if_neg] at hnext
      · exact hnext
      · rintro ⟨htopic, haccepts⟩
        rw [haccepts, if_pos rfl] at unwritten
        -- the call would have written to the topic
        exact unwritten ⟨_, List.mem_cons_self, rfl, htopic⟩
    | hold t' h' =>
      cases answered
      have hnext := (brings s).2
      rw [if_neg fun htopic => unwritten ⟨_, List.mem_cons_self, rfl, htopic⟩] at hnext
      exact hnext
    | settle t' =>
      cases answered
      have hnext := (brings s).2
      rw [if_neg fun htopic => unwritten ⟨_, List.mem_cons_self, rfl, htopic⟩] at hnext
      exact hnext
    | settleSame t' stamp => exact (brings s).2
    | stamp | linkUp | report | heldTopics | held => exact brings s r
  | _ => exact brings s r

/-- What a publication writes first is its payload. -/
theorem shown_first (answered : w.answer? i o c = some (r, w'))
    (brings : ∀ s, Manage.Brings t h (.ask c next) s)
    (unheld : ∀ h', w.pending.held.get? t = some h' → h'.stamp ≠ h.stamp)
    (unwritten : ¬ Wrote i t w.log) (wrote : Wrote i t w'.log) :
    ((w'.shelf t).carried = some h.payload ∨ (w'.shelf t).held = some h) ∧
      ∀ h', (w'.shelf t).held = some h' → h'.stamp = h.stamp → h' = h := by
  -- the only deed that is new is on the topic the call was about
  have hnew : ∀ {t' : Topic} {act : Act}, Wrote i t (⟨i, t', act⟩ :: w.log) → t' = t := by
    rintro t' act ⟨d, hd, hwho, htopic⟩
    rcases List.mem_cons.mp hd with rfl | hd
    · exact htopic
    · exact absurd ⟨d, hd, hwho, htopic⟩ unwritten
  have hshelf := brings (w.shelf t)
  cases change_of_answer? answered with
  | same | become | report | stamp | settleSame => exact absurd wrote unwritten
  | accept t' payload =>
    cases hnew wrote
    refine ⟨.inl ?_, fun h' hheld hstamp => absurd hstamp (unheld h' hheld)⟩
    rw [← hshelf.1 rfl]
    exact if_pos rfl
  -- held back, and under its own stamp
  | hold t' h' =>
    cases hnew wrote
    have hheld : (w.pending.hold t h').held.get? t = some h := by
      rw [Pending.get?_hold, if_pos rfl, hshelf.1 rfl]
    refine ⟨.inr hheld, fun x hx _ => ?_⟩
    exact Option.some.inj (hx.symm.trans hheld)
  | settle t' =>
    -- nothing is given up before the broker has accepted the payload
    have hnone := (brings ⟨none, none⟩).1 (hnew wrote)
    cases hnone

end

/-- The publication goes on. -/
theorem Stage.own {v : RoomView} {c : ManageCall} {next : c.Reply → Manage.Duty PublishReport}
    {r : c.Reply} {k : Worker} (stamped : w.Stamped) (ht : t ∈ v.topics)
    (answered : w.answer? i o c = some (r, w')) (stage : w.Stage i v t (.ask c next)) :
    Stage { w' with workers := w.workers.set i k } i v t (next r) := by
  have change := change_of_answer? answered
  have hothers : ∀ {P : Worker → Prop}, (∀ j k, j ≠ i → w.workers[j]? = some k → P k) →
      ∀ j k', j ≠ i → (w.workers.set i k)[j]? = some k' → P k' := by
    intro P hP j k' hne hk'
    rw [List.getElem?_set_ne (Ne.symm hne)] at hk'
    exact hP j k' hne hk'
  cases stage with
  | fresh start unwritten =>
    -- it draws its stamp
    cases start
    -- nothing is held under the stamp yet, and nobody else knows it
    cases answered
    refine .drawn w.pending.nextStamp (Nat.lt_succ_self _) unwritten
      (fun h held => Nat.ne_of_lt (stamped.held t h held)) ?_ ?_
    · exact hothers fun j k _ hk => stamped.ignored k (List.mem_of_getElem? hk) t _ (Nat.le_refl _)
    · exact Manage.brings_publishView ht rfl w.pending.nextStamp
  | drawn stamp below unwritten unheld others brings =>
    have below' := Nat.lt_of_lt_of_le below change.nextStamp_le
    -- this may be the first that it does to the topic, and then it is what the payload needs
    by_cases wrote : Wrote i t w'.log
    · obtain ⟨shown, own⟩ := shown_first answered brings unheld unwritten wrote
      -- from here the others need only respect it
      refine .written stamp below' wrote fun _ => ⟨shown, own, ?_, ?_⟩
      · exact hothers fun j k hne hk => (others j k hne hk).respects _
      · have hnext := brings_next answered (brings (w.shelf t))
        exact hnext
    · refine .drawn stamp below' wrote (fun h held => ?_) (hothers others)
        (brings_unwritten answered brings wrote)
      rcases change.held_cases held with before | ⟨-, deed⟩
      · exact unheld h before
      · exact absurd ⟨_, deed, rfl, rfl⟩ wrote
  -- once written, the topic shows the payload until somebody overtakes
  | written stamp below wrote ahead =>
    refine .written stamp (Nat.lt_of_lt_of_le below change.nextStamp_le)
      (wrote.mono change.log_suffix) fun kept => ?_
    have ahead := ahead fun overtaken => kept (overtaken.mono change.log_suffix)
    have keeps := keeps_own answered ahead.brings
    refine ahead.keeps keeps ?_ ?_
    · exact hothers fun j k hne hk => (ahead.others j k hne hk).keeps keeps
    · have hnext := brings_next answered ahead.brings
      exact hnext

/-- Another worker has its turn. -/
theorem Stage.other {v : RoomView} {p : Manage.Duty PublishReport} {job : Job} {c : ManageCall}
    {next : c.Reply → Manage.Duty job.Result} {r : c.Reply} (other : j ≠ i)
    (found : w.workers[j]? = some ⟨job, .ask c next⟩) (answered : w.answer? j o c = some (r, w'))
    (stage : w.Stage i v t p) :
    Stage { w' with workers := w.workers.set j ⟨job, next r⟩ } i v t p := by
  have change := change_of_answer? answered
  have unwritten' : ¬ Wrote i t w.log → ¬ Wrote i t w'.log := by
    rintro unwritten ⟨d, hd, hwho, htopic⟩
    -- a deed of another worker is not its own
    rcases change.mem_log hd with hd | hj
    · exact unwritten ⟨d, hd, hwho, htopic⟩
    · exact other (hj.symm.trans hwho)
  have hothers : ∀ {P : Worker → Prop}, P ⟨job, next r⟩ →
      (∀ j k, j ≠ i → w.workers[j]? = some k → P k) →
      ∀ j' k, j' ≠ i → (w.workers.set j ⟨job, next r⟩)[j']? = some k → P k := by
    intro P hself hP j' k hne hk
    by_cases hj : j = j'
    · subst hj
      rw [List.getElem?_set_self (List.getElem?_eq_some_iff.mp found).1] at hk
      cases hk
      exact hself
    · rw [List.getElem?_set_ne hj] at hk
      exact hP j' k hne hk
  cases stage with
  -- the stages differ in what the other worker may know of the stamp
  | fresh start unwritten => exact .fresh start (unwritten' unwritten)
  | drawn stamp below unwritten unheld others brings =>
    -- who does not know the stamp holds nothing back under it
    have ignores := others j _ other found
    refine .drawn stamp (Nat.lt_of_lt_of_le below change.nextStamp_le) (unwritten' unwritten)
      (fun h held => ?_) (hothers ?_ others) brings
    · rcases change.held_cases held with before | ⟨rfl, -⟩
      · exact unheld h before
      · exact ignores.1 rfl
    · exact ignores_next answered (fun _ => Nat.ne_of_gt below) unheld ignores
  | written stamp below wrote ahead =>
    refine .written stamp (Nat.lt_of_lt_of_le below change.nextStamp_le)
      (wrote.mono change.log_suffix) fun kept => ?_
    have ahead := ahead fun overtaken => kept (overtaken.mono change.log_suffix)
    -- from here on the worker overtakes, or the topic keeps its value
    have respects := ahead.others j _ other found
    have keeps := keeps_other answered other wrote ahead respects kept
    refine ahead.keeps keeps ?_ ?_
    · have hself := respects_next answered (Nat.ne_of_gt below) ahead.own respects
      exact hothers hself fun j' k hne hk => (ahead.others j' k hne hk).keeps keeps
    · exact ahead.brings.keeps keeps

/-! ## Whole runs -/

/-- Every publication is at some stage with each of its topics. -/
def Staged (w : Outbox) : Prop :=
  ∀ i v p t, w.workers[i]? = some ⟨.publish v, p⟩ → t ∈ v.topics → w.Stage i v t p

/-- A publication is not disturbed by others that begin a job, nor by the link. -/
theorem Stage.of_workers {v : RoomView} {p : Manage.Duty PublishReport} {link : Link}
    {workers : List Worker}
    (stage : w.Stage i v t p)
    (others : ∀ j k, j ≠ i → workers[j]? = some k →
      w.workers[j]? = some k ∨ ∀ h, Manage.Ignores t h k.rest) :
    Stage { w with link, workers } i v t p := by
  -- a worker that is new, or begins a new job, knows no stamp
  cases stage with
  | fresh start unwritten => exact .fresh start unwritten
  | drawn stamp below unwritten unheld known brings =>
    refine .drawn stamp below unwritten unheld (fun j k hne hk => ?_) brings
    rcases others j k hne hk with hk | ignores
    · exact known j k hne hk
    · exact ignores _
  | written stamp below wrote ahead =>
    refine .written stamp below wrote fun kept => ?_
    have ahead := ahead kept
    refine ahead.keeps (.refl _) (fun j k hne hk => ?_) ahead.brings
    rcases others j k hne hk with hk | ignores
    · exact ahead.others j k hne hk
    · exact (ignores _).respects _

theorem Staged.step {turn : Turn} (stamped : w.Stamped) (hw : w.Staged) : (w.step turn).Staged := by
  cases turn with
  | start j =>
    intro i v p t found ht
    change (w.workers ++ [Worker.start j])[i]? = some ⟨.publish v, p⟩ at found
    rcases Nat.lt_or_ge i w.workers.length with hlt | hge
    · rw [List.getElem?_append_left hlt] at found
      refine (hw i v p t found ht).of_workers fun j' k _ hk => ?_
      rcases Nat.lt_or_ge j' w.workers.length with hlt' | hge'
      · rw [List.getElem?_append_left hlt'] at hk
        exact .inl hk
      · rw [List.getElem?_append_right hge', List.getElem?_singleton] at hk
        split at hk
        · cases hk
          exact .inr (Worker.ignores_start j t)
        · cases hk
    · rw [List.getElem?_append_right hge, List.getElem?_singleton] at found
      split at found
      · cases found
        refine .fresh rfl ?_
        -- whoever has done something was there before
        rintro ⟨d, hd, rfl, -⟩
        exact absurd (stamped.known d hd) (Nat.not_lt_of_ge hge)
      · cases found
  | report e =>
    intro i v p t found ht
    exact (hw i v p t found ht).of_workers fun j k _ hk => .inl hk
  | work j o =>
    have works := w.works j o
    change (w.workerTurn j o).Staged
    generalize w.workerTurn j o = w' at works ⊢
    cases works with
    | idle => exact hw
    | @follow job job' r found next_eq =>
      intro i v p t hi ht
      by_cases hij : j = i
      · -- a publication does not follow another job
        subst hij
        rw [List.getElem?_set_self (List.getElem?_eq_some_iff.mp found).1] at hi
        cases hi
        exact absurd next_eq (Job.next_ne_publish r)
      · rw [List.getElem?_set_ne hij] at hi
        refine (hw i v p t hi ht).of_workers fun j' k _ hk => ?_
        by_cases hj : j = j'
        · subst hj
          rw [List.getElem?_set_self (List.getElem?_eq_some_iff.mp found).1] at hk
          cases hk
          exact .inr (Worker.ignores_start job' t)
        · rw [List.getElem?_set_ne hj] at hk
          exact .inl hk
    | @ask job c next r w' found answered =>
      intro i v p t hi ht
      by_cases hij : j = i
      · subst hij
        rw [List.getElem?_set_self (List.getElem?_eq_some_iff.mp found).1] at hi
        cases hi
        exact (hw j v _ t found ht).own stamped ht answered
      · rw [List.getElem?_set_ne hij] at hi
        exact (hw i v p t hi ht).other hij found answered

theorem staged_run (turns : List Turn) : (run turns).Staged := by
  -- a stage is kept only along with the stamps
  have hboth : (run turns).Stamped ∧ (run turns).Staged := by
    refine List.foldlRecOn (motive := fun w => w.Stamped ∧ w.Staged) turns Outbox.step
      ⟨stamped_run [], fun i v p t found => ?_⟩ fun w hw turn _ => ⟨hw.1.step, hw.2.step hw.1⟩
    cases found
  exact hboth.2

/-- **Which value remains.** For any interleaving and any failures: a topic of a view whose publication has
returned is left with that view, unless another worker overtook: held back or gave up something there, or
got another payload accepted, after the publication had first written to the topic. -/
theorem value_of_not_overtaken (turns : List Turn) {i : Nat} {v : RoomView} {report : PublishReport}
    (returned : (run turns).workers[i]? = some ⟨.publish v, .done report⟩) {t : Topic}
    (ht : t ∈ v.topics) (inTime : ¬ Overtaken i t v.payload (run turns).log) :
    (run turns).value t = some v.payload := by
  cases staged_run turns i v _ t returned ht with
  | fresh start => cases start
  | drawn stamp below unwritten unheld others brings =>
    -- it would have to leave a payload where it has written nothing
    have hempty := brings ⟨none, none⟩
    cases hempty
  | written stamp below wrote ahead => exact (ahead inTime).brings

/-- One publication after the other, while the link is down. -/
def oneByOne : List Turn :=
  .start (.publish (freeRoom 0)) :: List.replicate 5 (.work 0 {}) ++
    .start (.publish (freeRoom 1)) :: List.replicate 5 (.work 1 {})

/-- While a manager is connected, a publication sends its view of a room, and the broker does not answer. A
later publication is done with the room before the first gives up, loses the link and holds its view back. -/
def stale : List Turn :=
  .start (.dial 0) :: List.replicate 8 (.work 0 {}) ++
    .start (.publish (freeRoom 0)) :: List.replicate 2 (.work 1 {}) ++
    .start (.publish (freeRoom 1)) :: List.replicate 8 (.work 2 {}) ++
    .work 1 { sent := .error .disconnected } :: List.replicate 6 (.work 1 {})

theorem value_of_not_overtaken_oneByOne :
    (run oneByOne).value (.room 7) = some (freeRoom 1).payload :=
  value_of_not_overtaken oneByOne (i := 1) rfl (by decide) (by decide +kernel)

/-- A topic may end with an older view than the latest, though nobody is at work any more. -/
theorem not_always_latest :
    ¬ ∀ (turns : List Turn) (i : Nat) (v : RoomView) (t : Topic), (run turns).Resting →
      (run turns).Latest i v t → (run turns).value t = some v.payload := by
  intro h
  have hjobs : (run stale).jobs = [.serve, .publish (freeRoom 0), .publish (freeRoom 1)] := by
    decide +kernel
  have hlatest : (run stale).Latest 2 (freeRoom 1) (.room 7) := by
    rw [Latest, hjobs]
    refine ⟨rfl, by decide, fun j v' hj hpublish => ?_⟩
    rw [List.getElem?_eq_none (by exact hj)] at hpublish
    cases hpublish
  have hvalue : (run stale).value (.room 7) = some (freeRoom 0).payload := by decide +kernel
  have hsame := h stale 2 (freeRoom 1) (.room 7) (by decide +kernel) hlatest
  rw [hvalue] at hsame
  exact absurd (Option.some.inj hsame) (by decide +kernel)

end Outbox

end Occupancy
