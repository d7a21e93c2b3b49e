import Occupancy.Proofs.Fanout.OnTheWay
import Occupancy.Proofs.Fanout.Pending
import Occupancy.Proofs.Fanout.Timely

/-!
# What a topic accepts is in order

`w.Runs t lower` says that what the topic accepted so far is in the order of its dates, and that the errand
under way goes on so, with nothing older than `lower`. Main statement: `Runs.work`. Every turn of an errand
keeps that, since the errand is timely and the ledger by which it goes tells the truth about the topic.
-/

namespace Occupancy

/-! ## Dates of views that are read -/

/-- A view bears the instant it was read at. -/
theorem Store.generatedAt_of_view {s : Store} {room : RoomId} {now : Instant} {v : RoomView}
    (h : s.view room now = .ok v) : v.generatedAt = (now : Timestamp) := by
  unfold view at h
  split at h
  · cases h
  · split at h
    · rename_i v' hproject
      cases h
      unfold RoomView.project? at hproject
      -- both for a free room and for an occupied one the stamp is the reading of the clock
      split at hproject
      · cases hproject
        rfl
      · obtain ⟨elapsed, -, rfl⟩ := Option.map_eq_some_iff.mp hproject
        rfl
    · cases h

/-- Each of a batch of views bears the instant they were read at. -/
theorem Store.generatedAt_of_views {s : Store} {rooms : List RoomId} {now : Instant}
    {vs : List RoomView} (h : s.views rooms now = .ok vs) :
    ∀ v ∈ vs, v.generatedAt = (now : Timestamp) := by
  induction rooms generalizing vs with
  | nil =>
    cases h
    intro v hv
    cases hv
  | cons room rest ih =>
    unfold views at h
    split at h
    · cases h
    -- a room without a view is passed over
    · exact ih h
    · rename_i v hv
      cases hrest : s.views rest now with
      | error e =>
        rw [hrest] at h
        cases h
      | ok vs' =>
        rw [hrest] at h
        cases h
        intro v' hv'
        rcases List.mem_cons.mp hv' with rfl | hv'
        · exact generatedAt_of_view hv
        · exact ih hrest v' hv'

namespace Venue

variable {w w' : Venue} {t : Topic} {lower : Instant} {p : String} {o : Chance}

/-! ## The ledger of a topic -/

/-- A ledger says how a topic stands. -/
structure Matches (w : Venue) (t : Topic) (l : Ledger) : Prop where
  inOrder : InOrder (w.feed.log t)
  until_last : ∀ p ∈ w.feed.log t, Until l.last p
  kept : Option.Rel (fun h i => Shows h.payload i) (w.pending.held.get? t) l.kept
  read_le : l.read ≤ w.clock

/-- The errand under way is timely for a topic, and nothing older than an instant will be sent there. -/
def Runs (w : Venue) (t : Topic) (lower : Instant) : Prop :=
  ∃ l, w.Matches t l ∧ Timely t (fun _ l' => l'.Fits) w.errand l ∧ lower ≤ l.last

/-- The invariant survives any step that leaves the log, what is pending and the errand, and does not turn the
clock back. -/
theorem Runs.congr (h : w.Runs t lower) (hlog : w'.feed.log t = w.feed.log t)
    (hpending : w'.pending = w.pending) (herrand : w'.errand = w.errand) (hclock : w.clock ≤ w'.clock) :
    w'.Runs t lower := by
  obtain ⟨l, ⟨hinOrder, huntil, hkept, hread⟩, htimely, hlower⟩ := h
  refine ⟨l, ⟨?_, ?_, ?_, Instant.le_trans hread hclock⟩, herrand ▸ htimely, hlower⟩
  · rw [hlog]
    exact hinOrder
  · rw [hlog]
    exact huntil
  · rw [hpending]
    exact hkept

/-- A ledger that suits an idle publisher is one that fits. -/
theorem fits_of_isIdle {l : Ledger} (hidle : w.isIdle = true)
    (h : Timely t (fun _ l' => l'.Fits) w.errand l) : l.Fits := by
  unfold isIdle at hidle
  split at hidle
  · rename_i herrand
    rw [herrand] at h
    exact h
  · cases hidle

/-- Between errands nothing is sent, and the next one reads the clock first. -/
theorem Runs.begin (h : w.Runs t lower) (hidle : w.isIdle = true) (e : Errand) :
    Runs { w with errand := e.program } t lower := by
  obtain ⟨l, ⟨hinOrder, huntil, hkept, hread⟩, htimely, hlower⟩ := h
  -- the ledger is still good if it says that the clock was read just now
  have hlater : l.Later { l with read := w.clock } := ⟨rfl, rfl, hread⟩
  exact ⟨{ l with read := w.clock }, ⟨hinOrder, huntil, hkept, Instant.le_refl _⟩,
    e.timely_program (hlater.fits (fits_of_isIdle hidle htimely)), hlower⟩

/-- Between errands, nothing that was accepted is younger than now. -/
theorem Runs.until_clock (h : w.Runs t lower) (hidle : w.isIdle = true) :
    ∀ p ∈ w.feed.log t, Until w.clock p := by
  obtain ⟨l, hmatches, htimely, -⟩ := h
  have hlast : l.last ≤ w.clock :=
    Instant.le_trans (fits_of_isIdle hidle htimely).last_le hmatches.read_le
  exact fun p hp => (hmatches.until_last p hp).mono hlast

/-- While nothing is under way and nothing is held back, only what is younger than now can be sent. -/
theorem Runs.calm (h : w.Runs t lower) (hidle : w.isIdle = true)
    (hnone : w.pending.held.get? t = none) : w.Runs t w.clock := by
  obtain ⟨l, ⟨hinOrder, huntil, hkept, hread⟩, htimely, -⟩ := h
  -- no errand is under way, so nothing older can be sent any more
  have hfits := fits_of_isIdle hidle htimely
  have hclock : l.last ≤ w.clock := Instant.le_trans hfits.last_le hread
  rw [hnone] at hkept
  -- the ledger may be started anew, since nothing depends on the old one
  refine ⟨⟨w.clock, none, w.clock⟩, ⟨hinOrder, fun p hp => (huntil p hp).mono hclock, ?_,
    Instant.le_refl _⟩, ?_, Instant.le_refl _⟩
  · rw [hnone]
    exact .none
  · have hdone : ∃ u, w.errand = .done u := by
      unfold isIdle at hidle
      split at hidle
      · exact ⟨_, ‹_›⟩
      · cases hidle
    obtain ⟨u, hu⟩ := hdone
    rw [hu]
    exact ⟨Instant.le_refl _, fun _ hk => absurd hk (Option.not_mem_none _)⟩

/-- Is a payload about to be sent to a topic? -/
def Sends (w : Venue) (t : Topic) (p : String) : Prop :=
  ∃ next, w.errand = .ask (.publish (.send t p)) next

theorem Runs.since (h : w.Runs t lower) (hsends : w.Sends t p) : Since lower p := by
  obtain ⟨l, -, htimely, hlower⟩ := h
  obtain ⟨next, herrand⟩ := hsends
  rw [herrand] at htimely
  obtain ⟨i, ⟨hshows, hlast, -⟩, -⟩ := htimely.1 rfl
  exact ⟨i, hshows, Instant.le_trans hlower hlast⟩

/-- A publication changes the feed by what it sends only. -/
theorem moves_publish (h : w.feed.Faithful) (o : Chance) (c : PublishCall) :
    w.feed.Moves (w.publish o c).2.feed fun t p => c = .send t p := by
  cases c with
  | send t p =>
    simp only [publish]
    split
    · exact .refl h
    -- a send declares the queue first, and that publishes nothing
    · have hdeclare := (Feed.moves_step h (.declare t)).mono (Q := fun t' p' =>
        PublishCall.send t p = .send t' p') fun _ _ => nofun
      split
      · refine hdeclare.trans ((Feed.moves_step hdeclare.faithful (.publish t p)).mono ?_)
        rintro t' p' ⟨⟩
        rfl
      · exact hdeclare
  | _ => exact .refl h

/-- One stretch of an errand sends what its next call sends. -/
theorem moves_work (h : w.feed.Faithful) (o : Chance) : w.feed.Moves (w.work o).feed w.Sends := by
  unfold work
  split
  · exact .refl h
  · rename_i c next herrand
    cases c with
    | store c => exact .refl h
    | publish c =>
      refine (moves_publish h o c).mono ?_
      rintro t p rfl
      exact ⟨next, herrand⟩

/-- The clients' lists are not the publisher's to change. -/
theorem clients_work (w : Venue) (o : Chance) : (w.work o).clients = w.clients := by
  have hpublish : ∀ c, (w.publish o c).2.clients = w.clients := by
    intro c
    cases c with
    | send t p =>
      simp only [publish]
      split
      · rfl
      · split <;> rfl
    | _ => rfl
  unfold work
  split
  · rfl
  · rename_i c next herrand
    cases c with
    | store c => rfl
    | publish c => exact hpublish c

theorem log_onFeed {turn : Feed.Turn} (h : ∀ t p, turn ≠ .publish t p) :
    (w.onFeed turn).feed.log = w.feed.log :=
  Feed.log_step h

/-- What follows a publication is timely again. -/
theorem matches_publish {l : Ledger} {c : PublishCall} {k : c.Reply → Ledger → Prop}
    (hmatches : w.Matches t l) (hadmits : l.Admits t (.publish c) k) (o : Chance) :
    ∃ l', (w.publish o c).2.Matches t l' ∧ k (w.publish o c).1 l' ∧ l.last ≤ l'.last := by
  obtain ⟨hinOrder, huntil, hkept, hread⟩ := hmatches
  cases c with
  -- these calls read, and change nothing of the topic
  | stamp | linkUp | report | heldTopics =>
    exact ⟨l, ⟨hinOrder, huntil, hkept, hread⟩, hadmits _, Instant.le_refl _⟩
  | held t' =>
    refine ⟨l, ⟨hinOrder, huntil, hkept, hread⟩, hadmits _ ?_, Instant.le_refl _⟩
    rintro rfl
    exact hkept
  | hold t' x =>
    by_cases ht : t' = t
    · obtain ⟨i, htakes, hk⟩ := hadmits.1 ht
      refine ⟨{ l with kept := some i }, ⟨hinOrder, huntil, ?_, hread⟩, hk, Instant.le_refl _⟩
      change Option.Rel _ ((w.pending.hold t' x).held.get? t) (some i)
      rw [Pending.get?_hold, if_pos ht.symm]
      exact .some htakes.1
    · refine ⟨l, ⟨hinOrder, huntil, ?_, hread⟩, hadmits.2 ht, Instant.le_refl _⟩
      change Option.Rel _ ((w.pending.hold t' x).held.get? t) l.kept
      rw [Pending.get?_hold, if_neg (Ne.symm ht)]
      exact hkept
  | settle t' =>
    by_cases ht : t' = t
    · refine ⟨{ l with kept := none }, ⟨hinOrder, huntil, ?_, hread⟩, hadmits.1 ht, Instant.le_refl _⟩
      change Option.Rel _ ((w.pending.settle t').held.get? t) none
      rw [Pending.get?_settle, if_pos ht.symm]
      exact .none
    · refine ⟨l, ⟨hinOrder, huntil, ?_, hread⟩, hadmits.2 ht, Instant.le_refl _⟩
      change Option.Rel _ ((w.pending.settle t').held.get? t) l.kept
      rw [Pending.get?_settle, if_neg (Ne.symm ht)]
      exact hkept
  | settleSame t' stamp =>
    -- the payload goes or stays, and both were foreseen
    by_cases hgone : t = t' ∧ (w.pending.held.get? t').map (·.stamp) = some stamp
    · refine ⟨{ l with kept := none }, ⟨hinOrder, huntil, ?_, hread⟩, hadmits.2, Instant.le_refl _⟩
      change Option.Rel _ ((w.pending.settleSame t' stamp).held.get? t) none
      rw [Pending.get?_settleSame, if_pos hgone]
      exact .none
    · refine ⟨l, ⟨hinOrder, huntil, ?_, hread⟩, hadmits.1, Instant.le_refl _⟩
      change Option.Rel _ ((w.pending.settleSame t' stamp).held.get? t) l.kept
      rw [Pending.get?_settleSame, if_neg hgone]
      exact hkept
  | send t' p =>
    have hdeclared : (w.onFeed (.declare t')).feed.log = w.feed.log := log_onFeed fun _ _ => nofun
    -- a payload that did not come through may count as sent all the same
    have hlost : ∀ (w' : Venue) (e : BrokerError), w'.feed.log = w.feed.log → w'.pending = w.pending →
        w'.clock = w.clock → ∃ l', w'.Matches t l' ∧ k (.error e) l' ∧ l.last ≤ l'.last := by
      intro w' e hlog hpending hclock
      have hold : w'.Matches t l := by
        refine ⟨?_, ?_, ?_, hclock ▸ hread⟩
        · rw [hlog]
          exact hinOrder
        -- the log is as before, and so are the bounds
        · rw [hlog]
          exact huntil
        · rw [hpending]
          exact hkept
      by_cases ht : t' = t
      · -- a bound that is too high does no harm
        obtain ⟨i, ⟨-, hlast, -⟩, hk⟩ := hadmits.1 ht
        exact ⟨{ l with last := i }, ⟨hold.inOrder, fun q hq => (hold.until_last q hq).mono hlast,
          hold.kept, hold.read_le⟩, hk _, hlast⟩
      · exact ⟨l, hold, hadmits.2 ht _, Instant.le_refl _⟩
    simp only [publish]
    split
    · exact hlost w _ rfl rfl rfl
    · split
      · rename_i broker hpublish
        have hlog := Feed.log_publish hpublish t
        by_cases ht : t' = t
        · subst ht
          obtain ⟨i, ⟨hshows, hlast, -⟩, hk⟩ := hadmits.1 rfl
          -- nothing that the topic accepted before is younger
          have hbounded : ∀ q ∈ w.feed.log t', Until i q := fun q hq => (huntil q hq).mono hlast
          rw [if_pos rfl, hdeclared] at hlog
          refine ⟨{ l with last := i }, ⟨?_, ?_, hkept, hread⟩, hk _, hlast⟩
          · change InOrder (Feed.log (Feed.step _ _) t')
            rw [hlog]
            exact hinOrder.concat hbounded hshows
          · change ∀ q ∈ Feed.log (Feed.step _ _) t', _
            rw [hlog]
            intro q hq
            rcases List.mem_append.mp hq with hq | hq
            · exact hbounded q hq
            · exact ⟨i, List.mem_singleton.mp hq ▸ hshows, Instant.le_refl _⟩
        · rw [if_neg (Ne.symm ht), hdeclared] at hlog
          refine ⟨l, ⟨?_, ?_, hkept, hread⟩, hadmits.2 ht _, Instant.le_refl _⟩
          · change InOrder (Feed.log (Feed.step _ _) t)
            rw [hlog]
            exact hinOrder
          · change ∀ q ∈ Feed.log (Feed.step _ _) t, _
            rw [hlog]
            exact huntil
      · exact hlost _ _ hdeclared rfl rfl

/-- A turn of the errand leaves it timely. -/
theorem Runs.work (h : w.Runs t lower) (o : Chance) : (w.work o).Runs t lower := by
  obtain ⟨l, hmatches, htimely, hlower⟩ := h
  unfold Venue.work
  split
  · exact ⟨l, hmatches, htimely, hlower⟩
  · rename_i c next herrand
    -- the errand goes on after its next call
    rw [herrand] at htimely
    cases c with
    | store c =>
      obtain ⟨hinOrder, huntil, hkept, hread⟩ := hmatches
      cases c with
      -- the instant that is read is the newest so far, and views read at it bear it
      | now =>
        exact ⟨{ l with read := w.clock }, ⟨hinOrder, huntil, hkept, Instant.le_refl _⟩,
          htimely w.clock hread, hlower⟩
      | view room now =>
        exact ⟨l, ⟨hinOrder, huntil, hkept, hread⟩,
          htimely _ fun v hv => Store.generatedAt_of_view hv, hlower⟩
      | views rooms now =>
        exact ⟨l, ⟨hinOrder, huntil, hkept, hread⟩,
          htimely _ fun vs hvs => Store.generatedAt_of_views hvs, hlower⟩
      | assign | apply | finalizeExpired | setActive =>
        exact ⟨l, ⟨hinOrder, huntil, hkept, hread⟩, htimely _, hlower⟩
    | publish c =>
      -- what a call of the publisher does to the ledger is what the errand foresaw
      obtain ⟨l', ⟨hinOrder, huntil, hkept, hread⟩, hnext, hle⟩ :=
        matches_publish hmatches htimely o
      exact ⟨l', ⟨hinOrder, huntil, hkept, hread⟩, hnext, Instant.le_trans hlower hle⟩

end Venue

end Occupancy
