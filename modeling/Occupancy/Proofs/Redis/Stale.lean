import Occupancy.Proofs.Redis.Desk

/-!
# What outlives a teardown

Calls to the broker are in flight together, and the requests of one come between those of another. A teardown
empties the book, but a call that has been told something and has not written it down yet does so afterwards. Main
statement: `fresh_iff` says when nothing in the book is older than the latest teardown, now and until the next one;
`not_always_fresh` has a declaration and a connection that outlive their link.
-/

namespace Occupancy.Redis

variable {group : String} {limit : Wait}

/-! ## Freshness -/

/-- What a section writes into the book has been told since the latest teardown. -/
def Backed (group : String) (log : List Turn) : Section → Prop
  | .declare t => Confirmed group log t
  | .keepConsumer _ c => Dialled log c
  | _ => True

/-- Nothing in the book is older than the latest teardown: groups were confirmed since, and connections for
reading were dialled since. -/
structure Fresh (group : String) (d : Desk) : Prop where
  declared : ∀ t ∈ d.book.declared, Confirmed group d.log t
  consumers : ∀ t c, d.book.consumers.get? t = some c → Dialled d.log c

/-- What is backed remains so until the next teardown. -/
theorem Backed.snoc {log : List Turn} {s : Section} (h : Backed group log s) {x : Turn} (hx : ¬ x.Clears) :
    Backed group (log ++ [x]) s := by
  cases s with
  | declare t => exact Since.snoc h hx
  | keepConsumer t c => exact Since.snoc h hx
  | _ => trivial

/-- A turn backs what it tells. -/
theorem backed_of_follows {log : List Turn} {x : Turn} {s : Section} (h : Follows group (some x) (.book s)) :
    Backed group (log ++ [x]) s := by
  cases s with
  | declare t =>
    obtain ⟨y, ⟨⟩, hy⟩ := h
    exact since_snoc.mpr (.inl hy)
  | keepConsumer t c =>
    obtain ⟨y, ⟨⟩, hy⟩ := h
    exact since_snoc.mpr (.inl hy)
  | _ => trivial

section

variable {d : Desk} {n : Network}

/-- A section keeps the book fresh if what it writes is backed. -/
theorem Fresh.section (h : Fresh group d) {s : Section} (backed : Backed group d.log s)
    (hclears : ¬ Turn.Clears ⟨.book s, (d.serve n (.book s)).1⟩) : Fresh group (d.serve n (.book s)).2 := by
  have hdeclared : ∀ t ∈ d.book.declared, Confirmed group (d.serve n (.book s)).2.log t := fun t ht =>
    (h.declared t ht).snoc hclears
  have hconsumers : ∀ t c, d.book.consumers.get? t = some c → Dialled (d.serve n (.book s)).2.log c :=
    fun t c hc => (h.consumers t c hc).snoc hclears
  cases s with
  | clear => exact absurd rfl hclears
  | declare t =>
    refine ⟨fun t' ht' => ?_, hconsumers⟩
    rcases Book.mem_declare.mp ht' with hold | rfl
    · exact hdeclared t' hold
    · -- the new topic is the one the section writes, which the log confirms
      exact backed.snoc hclears
  | keepConsumer t c =>
    refine ⟨fun t' ht' => hdeclared t' (Book.declared_keepConsumer ▸ ht'), fun t' c' hc' => ?_⟩
    rcases Book.consumers_keepConsumer hc' with hold | rfl
    · exact hconsumers t' c' hold
    · -- a topic without a connection gets the one that was dialled
      exact backed.snoc hclears
  | forget t =>
    exact ⟨fun t' ht' => hdeclared t' (List.mem_of_mem_filter ht'), hconsumers⟩
  | release t =>
    -- a release takes away, so what is left was held before
    refine ⟨hdeclared, fun t' c hc => hconsumers t' c ?_⟩
    change (d.book.consumers.erase t).get? t' = some c at hc
    rw [Table.get?_erase] at hc
    split at hc
    · cases hc
    · exact hc
  | shared | keepShared c | reading t | isDeclared t | declared => exact ⟨hdeclared, hconsumers⟩

theorem Fresh.noted (h : Fresh group d) {d' : Desk} {x : Turn} (hbook : d'.book = d.book)
    (hlog : d'.log = d.log ++ [x]) (hx : ¬ x.Clears) : Fresh group d' := by
  constructor <;> rw [hbook, hlog]
  · exact fun t ht => (h.declared t ht).snoc hx
  · exact fun t c hc => (h.consumers t c hc).snoc hx

/-- A request keeps the book fresh if what it writes is backed, unless it is a teardown. -/
theorem Fresh.serve (h : Fresh group d) {c : Call} (backed : ∀ s, c = .book s → Backed group d.log s)
    (hclears : ¬ Turn.Clears ⟨c, (d.serve n c).1⟩) : Fresh group (d.serve n c).2 := by
  cases c with
  | book s => exact h.section (backed s rfl) hclears
  | dial => exact h.noted Desk.book_serve_dial (Desk.log_serve _) hclears
  | command c words limit => exact h.noted rfl rfl hclears

end

/-! ## Calls in flight -/

/-- The desk, and what is left of the calls that were started. -/
structure Bench where
  desk : Desk := {}
  calls : List (Program Calls Unit) := []

/-- What may happen next: a call is started, or one of those in flight makes its next request. -/
inductive Move where
  | start (op : Operation)
  | step (i : Nat) (n : Network)

namespace Bench

def move (group : String) (limit : Wait) (b : Bench) : Move → Bench
  | .start op => { b with calls := b.calls ++ [op.program group limit] }
  | .step i n =>
    match b.calls[i]? with
    | some (.ask c next) =>
      { desk := (b.desk.serve n c).2, calls := b.calls.set i (next (b.desk.serve n c).1) }
    | _ => b

def after (group : String) (limit : Wait) (b : Bench) (moves : List Move) : Bench :=
  moves.foldl (move group limit) b

theorem move_step {b : Bench} {i : Nat} {n : Network} {c : Call} {next : c.Reply → Program Calls Unit}
    (hcall : b.calls[i]? = some (.ask c next)) :
    b.move group limit (.step i n) =
      { desk := (b.desk.serve n c).2, calls := b.calls.set i (next (b.desk.serve n c).1) } := by
  simp only [move, hcall]

/-- A move notes at most one turn. -/
theorem log_move (group : String) (limit : Wait) (b : Bench) (m : Move) :
    (b.move group limit m).desk.log = b.desk.log ∨
      ∃ x, (b.move group limit m).desk.log = b.desk.log ++ [x] := by
  cases m with
  | start op => exact .inl rfl
  | step i n =>
    simp only [move]
    split
    · exact .inr ⟨_, Desk.log_serve _⟩
    · exact .inl rfl

theorem log_after (group : String) (limit : Wait) (b : Bench) (moves : List Move) :
    ∃ later, (b.after group limit moves).desk.log = b.desk.log ++ later := by
  induction moves generalizing b with
  | nil => exact ⟨[], (List.append_nil _).symm⟩
  | cons m rest ih =>
    obtain ⟨later, hlater⟩ := ih (b := b.move group limit m)
    rcases log_move group limit b m with h | ⟨x, h⟩
    · exact ⟨later, hlater.trans (by rw [h])⟩
    · exact ⟨x :: later, hlater.trans (by rw [h, List.append_assoc, List.singleton_append])⟩

end Bench

/-- Whatever is in flight is prompt. -/
theorem prompt_after (moves : List Move) :
    ∀ p ∈ (Bench.after group limit {} moves).calls, ∃ last, Prompt group last p := by
  induction moves using List.reverseRecOn with
  | nil => simp [Bench.after]
  | append_singleton moves m ih =>
    rw [Bench.after, List.foldl_append]
    intro p hp
    cases m with
    | start op =>
      rcases List.mem_append.mp hp with hold | hnew
      · exact ih p hold
      · -- a started call owes nothing yet
        rw [List.mem_singleton.mp hnew]
        exact ⟨none, prompt_program op⟩
    | step i n =>
      simp only [List.foldl_cons, List.foldl_nil, Bench.move] at hp
      split at hp
      · rename_i c next hcall
        rcases List.mem_or_eq_of_mem_set hp with hold | rfl
        · exact ih p hold
        · -- the call that moved goes on after its reply
          obtain ⟨last, hprompt⟩ := ih _ (List.mem_of_getElem? hcall)
          exact ⟨_, hprompt.2 _⟩
      · exact ih p hp

/-- The next request of a call is a section. -/
def Carries (p : Program Calls Unit) (s : Section) : Prop :=
  ∃ next, p = .ask (.book s) next

/-- The book is fresh, calls in flight are prompt, and what they write next is backed. -/
structure Sound (group : String) (b : Bench) : Prop where
  fresh : Fresh group b.desk
  prompt : ∀ p ∈ b.calls, ∃ last, Prompt group last p
  backed : ∀ p ∈ b.calls, ∀ s, Carries p s → Backed group b.desk.log s

/-- Nothing becomes stale until the next teardown. -/
theorem Sound.move {b : Bench} (h : Sound group b) (m : Move)
    (hclears : ∀ x, (b.move group limit m).desk.log = b.desk.log ++ [x] → ¬ x.Clears) :
    Sound group (b.move group limit m) := by
  cases m with
  | start op =>
    refine ⟨h.fresh, fun p hp => ?_, fun p hp s hs => ?_⟩ <;> rcases List.mem_append.mp hp with hold | hnew
    · exact h.prompt p hold
    · rw [List.mem_singleton.mp hnew]
      exact ⟨none, prompt_program op⟩
    · exact h.backed p hold s hs
    · -- a call that has just been started has been told nothing, and writes nothing
      rw [List.mem_singleton.mp hnew] at hs
      obtain ⟨next, hnext⟩ := hs
      have hprompt : Prompt group none (op.program group limit) := prompt_program op
      rw [hnext] at hprompt
      have hfollows : Follows group none (.book s) := hprompt.1
      cases s with
      | declare t =>
        obtain ⟨x, ⟨⟩, -⟩ := hfollows
      | keepConsumer t c =>
        obtain ⟨x, ⟨⟩, -⟩ := hfollows
      | _ => trivial
  | step i n =>
    simp only [Bench.move] at hclears ⊢
    split at hclears
    · rename_i c next hcall
      have hmem := List.mem_of_getElem? hcall
      have hx := hclears _ (Desk.log_serve c)
      obtain ⟨last, hprompt⟩ := h.prompt _ hmem
      -- what this call writes now is backed, and the reply backs what it writes next
      have hbacked : ∀ s, c = .book s → Backed group b.desk.log s := by
        rintro s rfl
        exact h.backed _ hmem s ⟨next, rfl⟩
      -- the calls but the one that moves are as they were, and so is what backs them
      refine ⟨h.fresh.serve hbacked hx,
        fun p hp => ?_, fun p hp s hs => ?_⟩ <;> rcases List.mem_or_eq_of_mem_set hp with hold | rfl
      · exact h.prompt p hold
      · exact ⟨_, hprompt.2 _⟩
      · rw [Desk.log_serve]
        exact (h.backed p hold s hs).snoc hx
      · rw [Desk.log_serve]
        obtain ⟨next', hnext'⟩ := hs
        have hfollows := hprompt.2 (b.desk.serve n c).1
        rw [hnext'] at hfollows
        exact backed_of_follows hfollows.1
    · exact h

/-! ## Until the next teardown -/

/-- No teardown comes with some moves. -/
def Bench.Quiet (group : String) (limit : Wait) (b : Bench) (moves : List Move) : Prop :=
  ∀ later, (b.after group limit moves).desk.log = b.desk.log ++ later → ∀ x ∈ later, ¬ x.Clears

theorem Sound.after {b : Bench} (h : Sound group b) {moves : List Move} (quiet : b.Quiet group limit moves) :
    Sound group (b.after group limit moves) := by
  -- the run is taken from its first move, which the bench of the induction absorbs
  induction moves generalizing b with
  | nil => exact h
  | cons m rest ih =>
    obtain ⟨rests, hrests⟩ := Bench.log_after group limit (b.move group limit m) rest
    have hall : ∀ first, (b.move group limit m).desk.log = b.desk.log ++ first →
        ∀ x ∈ first ++ rests, ¬ x.Clears := by
      intro first hfirst
      refine quiet (first ++ rests) ?_
      rw [← List.append_assoc, ← hfirst]
      exact hrests
    refine ih (h.move m fun x hx => hall [x] hx x (by simp)) fun later hlater x hx => ?_
    rw [List.append_cancel_left (hlater.symm.trans hrests)] at hx
    rcases Bench.log_move group limit b m with hsame | ⟨y, hy⟩
    · -- the first move wrote nothing
      exact hall [] (by rw [hsame, List.append_nil]) x hx
    · exact hall [y] hy x (List.mem_append_right _ hx)

/-- A group that is about to be declared is declared, however long ago it was confirmed. -/
theorem exists_stale_declaration {b : Bench} {i : Nat} {t : Topic} {next : Unit → Program Calls Unit}
    (hi : b.calls[i]? = some (.ask (.book (.declare t)) next)) (unbacked : ¬ Confirmed group b.desk.log t) :
    ∃ moves, b.Quiet group limit moves ∧ ¬ Fresh group (b.after group limit moves).desk := by
  -- the write is done next, and what the server says in between does not matter
  let n : Network := ⟨none, .lost⟩
  have hafter : (b.after group limit [.step i n]).desk = (b.desk.serve n (.book (.declare t))).2 := by
    show (b.move group limit (.step i n)).desk = _
    rw [Bench.move_step hi]
  refine ⟨[.step i n], fun later hlater x hx => ?_, fun hfresh => unbacked ?_⟩
  · -- the one turn of this run is the write, which clears nothing
    rw [hafter, Desk.log_serve] at hlater
    rw [← List.append_cancel_left hlater, List.mem_singleton] at hx
    rw [hx]
    nofun
  · rw [hafter] at hfresh
    have hmem : t ∈ (b.desk.book.declare t).declared := Book.mem_declare.mpr (.inr rfl)
    exact (hfresh.declared t hmem).of_snoc id

/-- A connection that is about to be kept is kept, however long ago it was dialled. One that the topic has got
meanwhile is released before. -/
theorem exists_stale_consumer {b : Bench} {i : Nat} {t : Topic} {c : Connection}
    {next : Connection → Program Calls Unit} (hi : b.calls[i]? = some (.ask (.book (.keepConsumer t c)) next))
    (unbacked : ¬ Dialled b.desk.log c) :
    ∃ moves, b.Quiet group limit moves ∧ ¬ Fresh group (b.after group limit moves).desk := by
  let n : Network := ⟨none, .lost⟩
  let released : Desk := (b.desk.serve n (.book (.release t))).2
  let waiting : Bench := ⟨released, (b.calls ++ [release t]).set b.calls.length (.done ())⟩
  have hlt : i < b.calls.length := (List.getElem?_eq_some_iff.mp hi).1
  -- a release is started and carried out first, so that the topic has no connection
  have hrelease : (b.move group limit (.start (.release t))).move group limit (.step b.calls.length n) =
      waiting := by
    have hcall : (b.calls ++ [release t])[b.calls.length]? = some (release t) := by simp
    exact Bench.move_step hcall
  have hkeep : waiting.calls[i]? = some (.ask (.book (.keepConsumer t c)) next) := by
    rw [List.getElem?_set_ne (Nat.ne_of_gt hlt), List.getElem?_append_left hlt, hi]
  have hafter : (b.after group limit [.start (.release t), .step b.calls.length n, .step i n]).desk =
      (released.serve n (.book (.keepConsumer t c))).2 := by
    show (((b.move group limit (.start (.release t))).move group limit (.step b.calls.length n)).move group
      limit (.step i n)).desk = _
    rw [hrelease, Bench.move_step hkeep]
  have hlog : (released.serve n (.book (.keepConsumer t c))).2.log = b.desk.log ++
      [⟨.book (.release t), ()⟩] ++ [⟨.book (.keepConsumer t c), (released.book.keepConsumer t c).1⟩] := rfl
  refine ⟨[.start (.release t), .step b.calls.length n, .step i n], fun later hlater x hx => ?_,
    fun hfresh => unbacked ?_⟩
  · rw [hafter, hlog, List.append_assoc] at hlater
    rw [← List.append_cancel_left hlater] at hx
    simp only [List.singleton_append, List.mem_cons, List.not_mem_nil, or_false] at hx
    rcases hx with rfl | rfl <;> nofun
  -- the connection is in the book then, and nothing in the log accounts for it
  · rw [hafter] at hfresh
    have hget : (released.book.keepConsumer t c).2.consumers.get? t = some c := by
      have hnone : released.book.consumers.get? t = none :=
        (Table.get?_erase b.desk.book.consumers t t).trans (if_pos rfl)
      unfold Book.keepConsumer
      rw [hnone]
      exact (Table.get?_set _ _ _ _).trans (if_pos rfl)
    have hdialled := hfresh.consumers t c hget
    rw [hlog] at hdialled
    exact (Since.of_snoc hdialled id).of_snoc id

/-- Where a call is about to write something that is not backed, it can. -/
theorem exists_stale {b : Bench} {p : Program Calls Unit} (hp : p ∈ b.calls) {s : Section} (hs : Carries p s)
    (unbacked : ¬ Backed group b.desk.log s) :
    ∃ moves, b.Quiet group limit moves ∧ ¬ Fresh group (b.after group limit moves).desk := by
  obtain ⟨i, hi⟩ := List.mem_iff_getElem?.mp hp
  obtain ⟨next, rfl⟩ := hs
  cases s with
  | declare t => exact exists_stale_declaration hi unbacked
  | keepConsumer t c => exact exists_stale_consumer hi unbacked
  | _ => exact absurd trivial unbacked

/-- **When nothing outlives a teardown.** Calls are started and make their requests in any order, and the network
does what it likes. From then on nothing in the book is older than the latest teardown, until the next one comes,
exactly if nothing is so already and no call in flight is about to write a group or a connection that it was told
of before the latest teardown. -/
theorem fresh_iff (group : String) (limit : Wait) (moves : List Move) :
    let b := Bench.after group limit {} moves
    (∀ more, b.Quiet group limit more → Fresh group (b.after group limit more).desk) ↔
      Fresh group b.desk ∧ ∀ p ∈ b.calls, ∀ s, Carries p s → Backed group b.desk.log s := by
  intro b
  constructor
  · intro h
    refine ⟨h [] fun later hlater x hx => ?_, fun p hp s hs => ?_⟩
    · -- the empty run keeps the book as it is
      rw [List.self_eq_append_right.mp hlater] at hx
      cases hx
    · by_contra unbacked
      obtain ⟨more, hquiet, hstale⟩ := exists_stale hp hs unbacked
      exact hstale (h more hquiet)
  · rintro ⟨hfresh, hbacked⟩ more hquiet
    have hsound : Sound group b := ⟨hfresh, prompt_after moves, hbacked⟩
    exact (hsound.after hquiet).fresh

/-- A declaration and a read are under way when the broker is torn down and connects again. The group of the one
was created and the connection of the other was dialled before, and both are written down after. The next
declaration of the topic asks the server for nothing. -/
theorem not_always_fresh :
    let n : Network := ⟨none, .reply (.status "OK")⟩
    let four (i : Nat) : List Move := List.replicate 4 (.step i n)
    let moves : List Move :=
      .start .connect :: four 0 ++
      [.start (.declare .allRooms), .step 1 n, .step 1 n, .step 1 n,
        .start (.receive .allRooms (.ofSeconds 1)), .step 2 n, .step 2 n,
        .start .teardown, .step 3 n, .start .connect] ++ four 4 ++
      [.step 1 n, .step 2 n, .start (.declare .allRooms)] ++ four 5
    let d := (Bench.after "rooms-1" (.ofSeconds 5) {} moves).desk
    d.book.shared = some 3 ∧
      (.allRooms ∈ d.book.declared ∧ ¬ Confirmed "rooms-1" d.log .allRooms) ∧
      (d.book.consumers.get? .allRooms = some 2 ∧ ¬ Dialled d.log 2) ∧
      sent d.log = [(1, pingCommand), (1, createCommand "rooms-1" .allRooms), (3, pingCommand)] := by
  decide +kernel

end Occupancy.Redis
