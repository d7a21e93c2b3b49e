import Occupancy.Proofs.Redis.Desk

/-!
# Groups that are left behind

Operations are carried out one after another, whatever the network does, and the broker is closed at the end. The
groups that it still has written down are destroyed. These are the ones that have stood since the latest
teardown, which is not all that were created: a teardown forgets groups that the server goes on to hold. Main
statement: `close_destroys`; `not_always_destroyed` has a group that is left behind.
-/

namespace Occupancy.Redis

variable {group : String} {limit : Wait} {network : List Turn → Network}

/-! ## What the server holds and what the book holds -/

/-- The server has acknowledged that it created the group of a topic, and has not answered since that the group
is not there. -/
def Outstanding (group : String) (log : List Turn) (t : Topic) : Prop :=
  Since (Turn.Acknowledges group t) (Turn.Disowns group t) log

/-- The group of a topic has been confirmed, and nothing has made the book forget it since. -/
def Standing (group : String) (log : List Turn) (t : Topic) : Prop :=
  Since (Turn.Confirms group t) (fun x => x.Disowns group t ∨ x.Clears) log

/-- A group that is outstanding is standing exactly if it was confirmed since the latest teardown. -/
theorem Outstanding.standing_iff {log : List Turn} {t : Topic} (h : Outstanding group log t) :
    Standing group log t ↔ Confirmed group log t := by
  constructor
  · rintro ⟨before, x, after, hlog, hx, hafter⟩
    exact ⟨before, x, after, hlog, hx, fun y hy hclears => hafter y hy (.inr hclears)⟩
  -- from the last turn backwards, as the last one that tells of the topic decides
  · induction log using List.reverseRecOn with
    | nil => exact fun hnone => absurd hnone not_since_nil
    | append_singleton log x ih =>
      unfold Outstanding Standing Confirmed at *
      rw [since_snoc] at h ⊢
      rw [since_snoc]
      rintro (hx | ⟨hclears, hbefore⟩)
      · -- a creation that was acknowledged is a confirmation
        exact .inl hx
      · rcases h with hx | ⟨hdisowns, hout⟩
        · exact .inl hx.confirms
        · exact .inr ⟨fun h => h.elim hdisowns hclears, ih hout hbefore⟩

/-- The book has written down what is standing, each topic once. -/
structure Exact (group : String) (d : Desk) : Prop where
  nodup : d.book.declared.Nodup
  mem_iff : ∀ t, t ∈ d.book.declared ↔ Standing group d.log t

/-! ## Within a call -/

/-- The book has written down what is standing, but for what the turn before has told. -/
structure Tracks (group : String) (last : Option Turn) (d : Desk) : Prop where
  nodup : d.book.declared.Nodup
  settled : ¬ Owes group last → ∀ t, t ∈ d.book.declared ↔ Standing group d.log t
  confirmed : ∀ x ∈ last, ∀ t, x.Confirms group t →
    Standing group d.log t ∧ ∀ t' ≠ t, t' ∈ d.book.declared ↔ Standing group d.log t'
  disowned : ∀ x ∈ last, ∀ t, x.Disowns group t →
    ¬ Standing group d.log t ∧ ∀ t' ≠ t, t' ∈ d.book.declared ↔ Standing group d.log t'

section

variable {d : Desk} {last : Option Turn} {n : Network}

/-- Where nothing is owed, nothing is left out. -/
theorem Exact.tracks (h : Exact group d) (hlast : ¬ Owes group last) : Tracks group last d where
  nodup := h.nodup
  settled _ := h.mem_iff
  confirmed x hx t hconfirms := absurd ⟨x, hx, t, .inl hconfirms⟩ hlast
  disowned x hx t hdisowns := absurd ⟨x, hx, t, .inr hdisowns⟩ hlast

theorem Tracks.exact (h : Tracks group last d) (hlast : ¬ Owes group last) : Exact group d :=
  ⟨h.nodup, h.settled hlast⟩

/-- A section other than a teardown changes nothing about what is standing. -/
theorem standing_book {log : List Turn} {s : Section} {r : s.Reply} (hs : s ≠ .clear) (t : Topic) :
    Standing group (log ++ [⟨.book s, r⟩]) t ↔ Standing group log t :=
  ⟨fun h => h.of_snoc id, fun h => h.snoc fun hx => hx.elim id hs⟩

/-- A section keeps the book exact, once what the turn before has told is written down. -/
theorem Tracks.section (h : Tracks group last d) {s : Section} (hfollows : Follows group last (.book s)) :
    Exact group (d.serve n (.book s)).2 := by
  cases s with
  | clear =>
    -- the book is empty, and no turn before counts any more
    refine ⟨List.nodup_nil, fun t => ⟨fun hmem => absurd hmem List.not_mem_nil, fun hstanding => ?_⟩⟩
    rcases since_snoc.mp hstanding with hx | ⟨hx, -⟩
    · exact hx.elim
    · exact absurd (.inr rfl) hx
  | declare t =>
    obtain ⟨x, hx, hconfirms⟩ := hfollows
    -- the confirmation just before stands for the new topic, and the others are as they were
    obtain ⟨hstanding, hothers⟩ := h.confirmed x hx t hconfirms
    refine ⟨Book.nodup_declare h.nodup, fun t' => Iff.trans ?_ (standing_book (by simp) t').symm⟩
    refine Book.mem_declare.trans ?_
    by_cases heq : t' = t
    · subst heq
      exact ⟨fun _ => hstanding, fun _ => .inr rfl⟩
    · rw [← hothers t' heq]
      exact or_iff_left heq
  | forget t =>
    -- what was disowned just before is no longer standing
    obtain ⟨x, hx, hdisowns⟩ := hfollows
    obtain ⟨hstanding, hothers⟩ := h.disowned x hx t hdisowns
    refine ⟨h.nodup.filter _, fun t' => Iff.trans ?_ (standing_book (by simp) t').symm⟩
    show t' ∈ d.book.declared.filter (· ≠ t) ↔ _
    rw [List.mem_filter, decide_eq_true_eq]
    by_cases heq : t' = t
    · subst heq
      exact ⟨fun h => absurd rfl h.2, fun h => absurd h hstanding⟩
    · rw [← hothers t' heq]
      exact and_iff_left heq
  | keepConsumer t c =>
    obtain ⟨x, hx, hdials⟩ := hfollows
    -- a dial owes nothing, so the book was exact already
    have hlast : ¬ Owes group last := by
      rintro ⟨y, hy, hsome⟩
      cases hx.symm.trans hy
      rcases x with ⟨_ | _ | _, reply⟩
      · exact hdials
      · exact not_owes_dial ⟨_, rfl, hsome⟩
      · exact hdials
    have hbook : (d.book.keepConsumer t c).2.declared = d.book.declared := Book.declared_keepConsumer
    have hexact := h.exact hlast
    exact ⟨(congrArg List.Nodup hbook).mpr hexact.nodup, fun t' =>
      (iff_of_eq (congrArg (t' ∈ ·) hbook)).trans ((hexact.mem_iff t').trans (standing_book (by simp) t').symm)⟩
  | shared | keepShared c | reading t | isDeclared t | release t | declared =>
    have hexact := h.exact hfollows
    exact ⟨hexact.nodup, fun t' => (hexact.mem_iff t').trans (standing_book (by simp) t').symm⟩

/-- What a command is told is the only thing that is not written down after it. -/
theorem Exact.command (h : Exact group d) (c : Connection) (words : List String) (limit : Wait) :
    Tracks group (some ⟨.command c words limit, n.outcome⟩) (d.serve n (.command c words limit)).2 := by
  have hsnoc : ∀ t, Standing group (d.log ++ [⟨.command c words limit, n.outcome⟩]) t ↔
      Turn.Confirms group t ⟨.command c words limit, n.outcome⟩ ∨
        ¬ Turn.Disowns group t ⟨.command c words limit, n.outcome⟩ ∧ Standing group d.log t := by
    intro t
    unfold Standing
    rw [since_snoc]
    exact or_congr_right (and_congr_left' (not_congr (or_iff_left id)))
  -- a topic of which nothing is told
  have hother : ∀ t, ¬ Turn.Confirms group t ⟨.command c words limit, n.outcome⟩ →
      ¬ Turn.Disowns group t ⟨.command c words limit, n.outcome⟩ →
      (t ∈ d.book.declared ↔ Standing group (d.log ++ [⟨.command c words limit, n.outcome⟩]) t) := by
    intro t hconfirms hdisowns
    rw [hsnoc, h.mem_iff]
    exact ⟨fun hstanding => .inr ⟨hdisowns, hstanding⟩, fun h => (h.resolve_left hconfirms).2⟩
  refine ⟨h.nodup, fun hnone t => hother t ?_ ?_, ?_, ?_⟩
  · exact fun hconfirms => hnone ⟨_, rfl, t, .inl hconfirms⟩
  · exact fun hdisowns => hnone ⟨_, rfl, t, .inr hdisowns⟩
  · -- the command confirms one topic, and tells nothing of the others
    rintro x ⟨⟩ t hconfirms
    refine ⟨(hsnoc t).mpr (.inl hconfirms), fun t' hne => hother t' ?_ hconfirms.not_disowns⟩
    exact fun hconfirms' => hne (hconfirms'.topic_eq hconfirms)
  · -- it disowns one topic, which stands no longer
    rintro x ⟨⟩ t hdisowns
    refine ⟨fun hstanding => ?_, fun t' hne => hother t' (fun hconfirms => hconfirms.not_disowns hdisowns) ?_⟩
    · rcases (hsnoc t).mp hstanding with hconfirms | ⟨hnot, -⟩
      · exact hconfirms.not_disowns hdisowns
      · exact hnot hdisowns
    · exact fun hdisowns' => hne (hdisowns'.topic_eq hdisowns)

/-- A turn of a call that is prompt. -/
theorem Tracks.serve (h : Tracks group last d) {c : Call} (hfollows : Follows group last c) :
    Tracks group (some ⟨c, (d.serve n c).1⟩) (d.serve n c).2 := by
  cases c with
  | book s => exact (h.section hfollows).tracks not_owes_book
  | command c words limit => exact (h.exact hfollows).command c words limit
  -- the log grows by a turn that tells nothing of any topic
  | dial =>
    have hexact := h.exact hfollows
    refine Exact.tracks ⟨?_, fun t => ?_⟩ not_owes_dial
    · rw [Desk.book_serve_dial]
      exact hexact.nodup
    · rw [Desk.book_serve_dial, Desk.log_serve, hexact.mem_iff]
      exact ⟨fun h => h.snoc fun hx => hx.elim id id, fun h => h.of_snoc id⟩

end

/-! ## Operations one after another -/

namespace Desk

/-- Carries out a program to its end. What the network does on a request may depend on all turns before. -/
def run {α : Type} (network : List Turn → Network) (p : Program Calls α) (d : Desk) : α × Desk :=
  Program.run (S := Calls) (fun c d => serve (network d.log) c d) p d

def after (group : String) (limit : Wait) (network : List Turn → Network) (ops : List Operation) : Desk :=
  ops.foldl (fun d op => (run network (op.program group limit) d).2) {}

theorem after_append (ops more : List Operation) :
    after group limit network (ops ++ more) =
      more.foldl (fun d op => (run network (op.program group limit) d).2) (after group limit network ops) :=
  List.foldl_append

end Desk

theorem Tracks.run {α : Type} {p : Program Calls α} {last : Option Turn} {d : Desk} (h : Tracks group last d)
    (hprompt : Prompt group last p) : Exact group (Desk.run network p d).2 := by
  -- between two turns the book may lag behind by what the first has told
  induction p generalizing last d with
  | done a => exact h.exact hprompt
  | ask c next ih => exact ih _ (h.serve hprompt.1) (hprompt.2 _)

/-- Between operations the book is exact. -/
theorem exact_after (ops : List Operation) : Exact group (Desk.after group limit network ops) := by
  induction ops using List.reverseRecOn with
  | nil =>
    exact ⟨List.nodup_nil, fun t => ⟨fun hmem => absurd hmem List.not_mem_nil, fun h => absurd h not_since_nil⟩⟩
  | append_singleton ops op ih =>
    rw [Desk.after_append]
    exact (ih.tracks not_owes_none).run (prompt_program op)

/-! ## Closing -/

/-- Groups are destroyed one after another, whatever the replies. -/
theorem run_destroyAll (group : String) (limit : Wait) (network : List Turn → Network) (c : Connection)
    (topics : List Topic) (d : Desk) :
    ∃ later, (Desk.run network (destroyAll group limit c topics) d).2 = { d with log := d.log ++ later } ∧
      sent later = topics.map fun t => (c, destroyCommand group t) := by
  induction topics generalizing d with
  | nil => exact ⟨[], by simp [Desk.run, destroyAll, Program.run], rfl⟩
  | cons t rest ih =>
    obtain ⟨later, hrun, hsent⟩ := ih (d.serve (network d.log) (.command c (destroyCommand group t) limit)).2
    refine ⟨⟨.command c (destroyCommand group t) limit, (network d.log).outcome⟩ :: later, ?_, ?_⟩
    · refine hrun.trans ?_
      simp [Desk.serve]
    · exact congrArg ((c, destroyCommand group t) :: ·) hsent

/-- Closing destroys the groups that are written down and empties the book. -/
theorem run_close (group : String) (limit : Wait) (network : List Turn → Network) {d : Desk} {c : Connection}
    (held : d.book.shared = some c) :
    ∃ later, (Desk.run network (close group limit) d).2 = { d with book := {}, log := d.log ++ later } ∧
      sent later = d.book.declared.map fun t => (c, destroyCommand group t) := by
  obtain ⟨inner, hrun, hsent⟩ := run_destroyAll group limit network c
    d.book.declared (d.serve (network d.log) (.book .declared)).2
  -- the topics are listed, destroyed one after the other, and the book is cleared
  have hclose : (Desk.run network (close group limit) d).2 = (Desk.run network teardown
      (Desk.run network (destroyAll group limit c d.book.declared)
        (d.serve (network d.log) (.book .declared)).2).2).2 := by
    obtain ⟨⟨shared, consumers, declared⟩, dials, log⟩ := d
    cases held
    show (Desk.run network ((destroyAll group limit c declared).bind fun _ => teardown) _).2 = _
    exact congrArg Prod.snd (Program.run_bind _ _ _ _)
  refine ⟨⟨.book .declared, (d.book.shared, d.book.declared)⟩ :: (inner ++ [⟨.book .clear, ()⟩]), ?_, ?_⟩
  · rw [hclose, hrun]
    show Desk.mk {} d.dials ((d.log ++ [_] ++ inner) ++ [_]) = _
    simp
  · show sent (inner ++ [⟨.book .clear, ()⟩]) = _
    rw [sent, List.filterMap_append]
    exact (List.append_nil _).trans hsent

/-- **What closing destroys.** Operations are carried out one after another, whatever the network does, and the
broker is closed while it holds a connection. Closing sends one command to destroy a group for each topic whose
group is standing and no other command, whatever the replies, and the book is empty after it. The groups that the
server holds are destroyed exactly if they were confirmed since the latest teardown. -/
theorem close_destroys {ops : List Operation} {c : Connection}
    (held : (Desk.after group limit network ops).book.shared = some c) :
    let d := Desk.after group limit network ops
    let closed := (Desk.run network (close group limit) d).2
    closed.book = {} ∧
      ∃ (topics : List Topic) (later : List Turn), closed.log = d.log ++ later ∧
        sent later = topics.map (fun t => (c, destroyCommand group t)) ∧ topics.Nodup ∧
        (∀ t, t ∈ topics ↔ Standing group d.log t) ∧
        ∀ t, Outstanding group d.log t → (t ∈ topics ↔ Confirmed group d.log t) := by
  intro d closed
  have hexact : Exact group d := exact_after ops
  obtain ⟨later, hclosed, hsent⟩ := run_close group limit network held
  exact ⟨congrArg Desk.book hclosed, d.book.declared, later, congrArg Desk.log hclosed, hsent, hexact.nodup,
    hexact.mem_iff, fun t hout => (hexact.mem_iff t).trans hout.standing_iff⟩

/-- A network on which every dial succeeds and every command is answered with a status. -/
def calm : List Turn → Network :=
  fun _ => ⟨none, .reply (.status "OK")⟩

/-- A group is created and then destroyed. -/
theorem close_destroys_rooms :
    let limit : Wait := .ofSeconds 5
    let d := Desk.after "rooms-1" limit calm [.connect, .declare .allRooms]
    let closed := (Desk.run calm (close "rooms-1" limit) d).2
    d.book.shared = some 1 ∧
      ∃ later, closed.log = d.log ++ later ∧ (1, destroyCommand "rooms-1" .allRooms) ∈ sent later := by
  intro limit d
  -- the connection of the first dial is still the one that is shared
  have held : d.book.shared = some 1 := by decide
  have hlog : d.log = d.log.take 6 ++
      ⟨.command 1 (createCommand "rooms-1" .allRooms) limit, .reply (.status "OK")⟩ ::
      [⟨.book (.declare .allRooms), ()⟩] := rfl
  have houtstanding : Outstanding "rooms-1" d.log .allRooms :=
    ⟨_, _, _, hlog, ⟨rfl, _, rfl⟩, by simp [Turn.Disowns]⟩
  have hconfirmed : Confirmed "rooms-1" d.log .allRooms :=
    ⟨_, _, _, hlog, ⟨rfl, rfl⟩, by simp [Turn.Clears]⟩
  obtain ⟨-, topics, later, hclosed, hsent, -, -, hdestroyed⟩ := close_destroys held
  refine ⟨held, later, ?_, ?_⟩
  · rw [hclosed]
  · rw [hsent]
    exact List.mem_map_of_mem ((hdestroyed .allRooms houtstanding).mpr hconfirmed)

/-- A group is created, and the broker is torn down and connects again. Closing sends nothing, although the server
still holds the group. -/
theorem not_always_destroyed :
    let limit : Wait := .ofSeconds 5
    let d := Desk.after "rooms-1" limit calm [.connect, .declare .allRooms, .teardown, .connect]
    let closed := (Desk.run calm (close "rooms-1" limit) d).2
    d.book.shared = some 2 ∧ Outstanding "rooms-1" d.log .allRooms ∧
      ∃ later, closed.log = d.log ++ later ∧ sent later = [] := by
  intro limit d
  let created : Turn := ⟨.command 1 (createCommand "rooms-1" .allRooms) limit, .reply (.status "OK")⟩
  let first : List Turn :=
    [⟨.book .shared, none⟩, ⟨.dial, .ok 1⟩, ⟨.command 1 pingCommand limit, .reply (.status "OK")⟩,
      ⟨.book (.keepShared 1), ()⟩, ⟨.book (.isDeclared .allRooms), false⟩, ⟨.book .shared, some 1⟩]
  have hfirst : Desk.after "rooms-1" limit calm [.connect, .declare .allRooms] =
      ⟨{ shared := some 1, declared := [.allRooms] }, 1, first ++ created :: [⟨.book (.declare .allRooms), ()⟩]⟩ := rfl
  have hd : d = ⟨{ shared := some 2 }, 2, first ++ created ::
      [⟨.book (.declare .allRooms), ()⟩, ⟨.book .clear, ()⟩, ⟨.book .shared, none⟩, ⟨.dial, .ok 2⟩,
        ⟨.command 2 pingCommand limit, .reply (.status "OK")⟩, ⟨.book (.keepShared 2), ()⟩]⟩ := by
    refine (Desk.after_append [.connect, .declare .allRooms] [.teardown, .connect]).trans ?_
    rw [hfirst]
    rfl
  -- the teardown has emptied the book, so the closing has nothing to destroy
  have held : d.book.shared = some 2 := by rw [hd]
  have hforgotten : d.book.declared = [] := by rw [hd]
  have houtstanding : Outstanding "rooms-1" d.log .allRooms :=
    ⟨first, created, _, by rw [hd], ⟨rfl, _, rfl⟩, by simp [Turn.Disowns, pingCommand, readCommand]⟩
  obtain ⟨later, hclosed, hsent⟩ := run_close "rooms-1" limit calm held
  rw [hforgotten] at hsent
  refine ⟨held, houtstanding, later, ?_, hsent⟩
  rw [hclosed]

end Occupancy.Redis
