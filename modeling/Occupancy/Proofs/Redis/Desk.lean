import Mathlib.Data.List.Induction
import Mathlib.Data.List.Nodup
import Occupancy.Proofs.Reading.Topics
import Occupancy.Redis.Client

/-!
# Calls to the broker and what they are told

The broker's book together with the turns of its calls: every request with the reply to it, in order. What a
reply means for a group (it was confirmed, or it is not there) and for a connection (it was dialled) is said of
turns, so that the book can be compared with what the server has told. Main statement: `prompt_program`. Every
call writes into the book what a reply has told it, and does so before anything else.
-/

namespace Occupancy.Redis

/-! ## Operations -/

/-- What the broker can be asked to do. -/
inductive Operation where
  | connect
  | teardown
  | declare (t : Topic)
  | publish (t : Topic) (payload : String)
  | receive (t : Topic) (wait : Wait)
  | ack (t : Topic) (id : String)
  | release (t : Topic)
  | close

/-- The program of an operation. What it results in is left out. -/
def Operation.program (group : String) (limit : Wait) : Operation → Program Calls Unit
  | .connect => (Redis.connect limit).bind fun _ => .done ()
  | .teardown => Redis.teardown
  | .declare t => (Redis.declare group limit t).bind fun _ => .done ()
  | .publish t payload => (Redis.publish limit t payload).bind fun _ => .done ()
  | .receive t wait => (Redis.receive group limit t wait).bind fun _ => .done ()
  | .ack t id => (Redis.ack group limit t id).bind fun _ => .done ()
  | .release t => Redis.release t
  | .close => Redis.close group limit

/-! ## Turns -/

abbrev Turn :=
  (c : Call) × c.Reply

namespace Turn

/-- The server confirms that the group of a topic is there: it has created it, or it had it already. -/
def Confirms (group : String) (t : Topic) : Turn → Prop
  | ⟨.command _ words limit, outcome⟩ =>
    words = createCommand group t ∧ created (answered limit outcome) = .ok ()
  | _ => False

/-- The server acknowledges that it has created the group of a topic. -/
def Acknowledges (group : String) (t : Topic) : Turn → Prop
  | ⟨.command _ words limit, outcome⟩ =>
    words = createCommand group t ∧ ∃ r, answered limit outcome = .ok r
  | _ => False

/-- The server answers a read that the group of a topic is not there. -/
def Disowns (group : String) (t : Topic) : Turn → Prop
  | ⟨.command _ words limit, outcome⟩ =>
    (∃ milliseconds, words = readCommand group t milliseconds) ∧
      ∃ text, answered limit outcome = .error (.refused text) ∧ Reply.code text = "NOGROUP"
  | _ => False

def Dials (c : Connection) : Turn → Prop
  | ⟨.dial, reply⟩ => reply = .ok c
  | _ => False

/-- The book is cleared, as a teardown does. -/
def Clears : Turn → Prop
  | ⟨.book s, _⟩ => s = .clear
  | _ => False

instance (group : String) (t : Topic) : DecidablePred (Confirms group t)
  | ⟨.command _ words limit, outcome⟩ =>
    if hwords : words = createCommand group t then
      match hcreated : created (answered limit outcome) with
      | .ok () => isTrue ⟨hwords, hcreated⟩
      | .error _ => isFalse fun h => by cases hcreated.symm.trans h.2
    else isFalse fun h => hwords h.1
  | ⟨.book _, _⟩ => isFalse id
  | ⟨.dial, _⟩ => isFalse id

instance (c : Connection) : DecidablePred (Dials c)
  | ⟨.dial, reply⟩ => @decEq (Except DialFault Connection) _ reply (.ok c)
  | ⟨.command _ _ _, _⟩ => isFalse id
  | ⟨.book _, _⟩ => isFalse id

instance : DecidablePred Clears
  | ⟨.book s, _⟩ => inferInstanceAs (Decidable (s = .clear))
  | ⟨.dial, _⟩ => isFalse id
  | ⟨.command _ _ _, _⟩ => isFalse id

variable {group : String} {t t' : Topic}

theorem Acknowledges.confirms {x : Turn} (h : x.Acknowledges group t) : x.Confirms group t := by
  rcases x with ⟨c, reply⟩
  cases c with
  | book s => exact h
  | dial => exact h
  | command c words limit =>
    obtain ⟨hwords, r, hr⟩ := h
    exact ⟨hwords, by rw [hr]; rfl⟩

theorem createCommand_injective (h : createCommand group t = createCommand group t') : t = t' := by
  simp only [createCommand, List.cons.injEq] at h
  exact Topic.text_injective h.2.2.1

theorem readCommand_injective {m m' : Nat} (h : readCommand group t m = readCommand group t' m') : t = t' := by
  simp only [readCommand, List.cons.injEq] at h
  exact Topic.text_injective h.2.2.2.2.2.2.2.2.2.1

theorem createCommand_ne_readCommand {m : Nat} : createCommand group t ≠ readCommand group t' m := by
  simp [createCommand, readCommand]

theorem Confirms.topic_eq {x : Turn} (h : x.Confirms group t) (h' : x.Confirms group t') : t = t' := by
  rcases x with ⟨c, reply⟩
  cases c with
  | book s => exact h.elim
  | dial => exact h.elim
  | command c words limit => exact createCommand_injective (h.1.symm.trans h'.1)

theorem Disowns.topic_eq {x : Turn} (h : x.Disowns group t) (h' : x.Disowns group t') : t = t' := by
  rcases x with ⟨c, reply⟩
  cases c with
  | book s => exact h.elim
  | dial => exact h.elim
  | command c words limit =>
    -- each of the two is the read of its topic, and equal commands name equal topics
    obtain ⟨⟨m, hm⟩, -⟩ := h
    obtain ⟨⟨m', hm'⟩, -⟩ := h'
    exact readCommand_injective (hm.symm.trans hm')

/-- What confirms a group does not say that one is not there. -/
theorem Confirms.not_disowns {x : Turn} (h : x.Confirms group t) : ¬ x.Disowns group t' := by
  intro h'
  rcases x with ⟨c, reply⟩
  cases c with
  | book s => exact h
  | dial => exact h
  | command c words limit =>
    obtain ⟨⟨m, hm⟩, -⟩ := h'
    exact createCommand_ne_readCommand (h.1.symm.trans hm)

end Turn

/-! ## The log of turns -/

/-- Some turn of a log has one property, and none after it the other. -/
def Since (p q : Turn → Prop) (log : List Turn) : Prop :=
  ∃ before x after, log = before ++ x :: after ∧ p x ∧ ∀ y ∈ after, ¬ q y

section

variable {p q : Turn → Prop} {log : List Turn} {x : Turn}

@[simp] theorem not_since_nil : ¬ Since p q [] := by
  rintro ⟨before, x, after, h, -⟩
  simp at h

/-- The last turn either has the first property, or it keeps what is so before it. -/
theorem since_snoc : Since p q (log ++ [x]) ↔ p x ∨ (¬ q x ∧ Since p q log) := by
  constructor
  · rintro ⟨before, y, after, h, hy, hafter⟩
    -- the turn that counts is the last one, or it stands in the log before
    rcases List.eq_nil_or_concat after with rfl | ⟨inner, z, rfl⟩
    · obtain ⟨-, hxy⟩ := List.append_inj' h rfl
      rw [List.cons.inj hxy |>.1]
      exact .inl hy
    · rw [List.concat_eq_append, ← List.cons_append, ← List.append_assoc] at h
      obtain ⟨hlog, hxz⟩ := List.append_inj' h rfl
      rw [List.concat_eq_append] at hafter
      rw [List.cons.inj hxz |>.1]
      exact .inr ⟨hafter z (by simp), before, y, inner, hlog, hy,
        fun w hw => hafter w (List.mem_append_left _ hw)⟩
  · rintro (hx | ⟨hx, before, y, after, rfl, hy, hafter⟩)
    · exact ⟨log, x, [], rfl, hx, by simp⟩
    · refine ⟨before, y, after ++ [x], by simp, hy, fun z hz => ?_⟩
      rcases List.mem_append.mp hz with hz | hz
      · exact hafter z hz
      · rw [List.mem_singleton.mp hz]
        exact hx

theorem Since.snoc (h : Since p q log) (hx : ¬ q x) : Since p q (log ++ [x]) :=
  since_snoc.mpr (.inr ⟨hx, h⟩)

theorem Since.of_snoc (h : Since p q (log ++ [x])) (hx : ¬ p x) : Since p q log :=
  (since_snoc.mp h).elim (absurd · hx) And.right

/-- Whether it is so is found in one pass through the log. -/
instance [DecidablePred p] [DecidablePred q] (log : List Turn) : Decidable (Since p q log) :=
  decidable_of_iff (log.foldl (fun found x => decide (p x) || (!decide (q x) && found)) false = true) <| by
    induction log using List.reverseRecOn with
    | nil => simp
    | append_singleton log x ih => simp [since_snoc, ← ih]

end

/-- The group of a topic has been confirmed since the latest teardown. -/
def Confirmed (group : String) (log : List Turn) (t : Topic) : Prop :=
  Since (Turn.Confirms group t) Turn.Clears log

/-- A connection has been dialled since the latest teardown. -/
def Dialled (log : List Turn) (c : Connection) : Prop :=
  Since (Turn.Dials c) Turn.Clears log

instance (group : String) (log : List Turn) (t : Topic) : Decidable (Confirmed group log t) :=
  inferInstanceAs (Decidable (Since _ _ log))

instance (log : List Turn) (c : Connection) : Decidable (Dialled log c) :=
  inferInstanceAs (Decidable (Since _ _ log))

/-- The commands in turns, with their connections. -/
def sent (turns : List Turn) : List (Connection × List String) :=
  turns.filterMap fun
    | ⟨.command c words _, _⟩ => some (c, words)
    | _ => none

/-! ## The book -/

namespace Book

variable {b : Book} {t t' : Topic} {c c' : Connection}

theorem mem_declare : t' ∈ (b.declare t).declared ↔ t' ∈ b.declared ∨ t' = t := by
  unfold declare
  split
  · rename_i hold
    exact ⟨.inl, fun h => h.elim id fun heq => heq ▸ hold⟩
  · simp

/-- A topic is declared once. -/
theorem nodup_declare (h : b.declared.Nodup) : (b.declare t).declared.Nodup := by
  unfold declare
  split
  -- a topic that is there already leaves the list alone
  · exact h
  · rename_i hnew
    refine List.nodup_append.mpr ⟨h, List.nodup_singleton _, ?_⟩
    rintro a ha x hx rfl
    exact hnew (List.mem_singleton.mp hx ▸ ha)

theorem declared_keepConsumer : (b.keepConsumer t c).2.declared = b.declared := by
  unfold keepConsumer
  split <;> rfl

/-- A connection in the book was there before, or it is the one that is kept. -/
theorem consumers_keepConsumer (h : (b.keepConsumer t c).2.consumers.get? t' = some c') :
    b.consumers.get? t' = some c' ∨ c' = c := by
  unfold keepConsumer at h
  split at h
  · exact .inl h
  · rw [Table.get?_set] at h
    -- the topic that was asked for got the connection, every other kept its own
    split at h
    · exact .inr (Option.some.inj h).symm
    · exact .inl h

end Book

/-! ## The desk -/

/-- What the network does on a request. -/
structure Network where
  /-- What keeps connections from being dialled, if anything does. -/
  dialFault : Option DialFault := none
  /-- What becomes of a command? -/
  outcome : Outcome

/-- The book, the number of connections that were dialled, and the turns so far. Connections have numbers of
their own. -/
structure Desk where
  book : Book := {}
  dials : Nat := 0
  log : List Turn := []

namespace Desk

/-- Serves a request, and notes the turn. -/
def serve (n : Network) : (c : Call) → Desk → c.Reply × Desk
  | .book s, d =>
    let (r, book) := d.book.perform s
    (r, { d with book, log := d.log ++ [⟨.book s, r⟩] })
  | .dial, d =>
    match n.dialFault with
    | none => (.ok (d.dials + 1), { d with dials := d.dials + 1, log := d.log ++ [⟨.dial, .ok (d.dials + 1)⟩] })
    | some e => (.error e, { d with log := d.log ++ [⟨.dial, .error e⟩] })
  | .command c words limit, d => (n.outcome, { d with log := d.log ++ [⟨.command c words limit, n.outcome⟩] })

variable {n : Network} {d : Desk}

theorem log_serve (c : Call) : (d.serve n c).2.log = d.log ++ [⟨c, (d.serve n c).1⟩] := by
  cases c with
  | book s => rfl
  | dial =>
    unfold serve
    split <;> rfl
  | command c words limit => rfl

theorem book_serve_dial : (d.serve n .dial).2.book = d.book := by
  unfold serve
  split <;> rfl

end Desk

/-! ## Prompt calls -/

section

variable {α β : Type} {group : String} {limit : Wait} {last : Option Turn}

/-- A reply has to be written into the book. -/
def Owes (group : String) (last : Option Turn) : Prop :=
  ∃ x ∈ last, ∃ t, x.Confirms group t ∨ x.Disowns group t

/-- What a call may ask next, given its turn before. A group is declared where it was confirmed, it is forgotten
where it is not there, and a connection is kept where it was dialled; anything else waits until what has to be
written is written. -/
def Follows (group : String) (last : Option Turn) : Call → Prop
  | .book (.declare t) => ∃ x ∈ last, x.Confirms group t
  | .book (.forget t) => ∃ x ∈ last, x.Disowns group t
  | .book (.keepConsumer _ c) => ∃ x ∈ last, x.Dials c
  | _ => ¬ Owes group last

/-- A call writes into the book what its turn before has told it, at once and nothing else. -/
def Prompt (group : String) : Option Turn → Program Calls α → Prop
  | last, .done _ => ¬ Owes group last
  | last, .ask c next => Follows group last c ∧ ∀ reply, Prompt group (some ⟨c, reply⟩) (next reply)

theorem not_owes_none : ¬ Owes group none := by
  rintro ⟨x, ⟨⟩, -⟩

theorem not_owes_book {s : Section} {r : s.Reply} : ¬ Owes group (some ⟨.book s, r⟩) := by
  rintro ⟨x, ⟨⟩, t, h | h⟩ <;> exact h

theorem not_owes_dial {dial : Except DialFault Connection} : ¬ Owes group (some ⟨.dial, dial⟩) := by
  rintro ⟨x, ⟨⟩, t, h | h⟩ <;> exact h

/-- Only creating and reading tell something to be written. -/
theorem not_owes_command {c : Connection} {words : List String} {outcome : Outcome}
    (hcreate : ∀ t, words ≠ createCommand group t) (hread : ∀ t m, words ≠ readCommand group t m) :
    ¬ Owes group (some ⟨.command c words limit, outcome⟩) := by
  rintro ⟨x, ⟨⟩, t, h | ⟨⟨m, h⟩, -⟩⟩
  · exact hcreate t h.1
  · exact hread t m h

/-- What is made of the result of a call does not matter. -/
theorem Prompt.map {p : Program Calls α} (h : Prompt group last p) (f : α → β) :
    Prompt group last (p.bind fun a => .done (f a)) := by
  induction p generalizing last with
  | done a => exact h
  | ask c next ih => exact ⟨h.1, fun reply => ih reply (h.2 reply)⟩

/-! ### One operation after the other -/

theorem prompt_connect : Prompt group none (connect limit) := by
  refine ⟨not_owes_none, fun (shared : Option Connection) => ?_⟩
  rcases shared with _ | c
  · -- no connection is shared yet, so one is dialled
    refine ⟨not_owes_book, fun (dial : Except DialFault Connection) => ?_⟩
    rcases dial with (_ | _) | c
    · exact not_owes_dial
    · exact not_owes_dial
    · refine ⟨not_owes_dial, fun outcome => ?_⟩
      have hping : ¬ Owes group (some ⟨.command c pingCommand limit, outcome⟩) :=
        not_owes_command (by simp [pingCommand, createCommand]) (by simp [pingCommand, readCommand])
      -- an answered ping is followed by the writing of the connection
      simp only [Program.done_bind]
      split
      · exact hping
      · exact ⟨hping, fun _ => not_owes_book⟩
  · exact not_owes_book

/-- A call that needs the shared connection begins with asking for it. -/
theorem prompt_withShared {next : Connection → Exchange α}
    (hlast : ¬ Owes group last) (hnext : ∀ c, Prompt group (some ⟨.book .shared, some c⟩) (next c)) :
    Prompt group last (withShared next) := by
  refine ⟨hlast, fun (shared : Option Connection) => ?_⟩
  rcases shared with _ | c
  · exact not_owes_book
  · exact hnext c

theorem prompt_declare (t : Topic) : Prompt group none (declare group limit t) := by
  refine ⟨not_owes_none, fun (known : Bool) => ?_⟩
  -- a topic of the book sends nothing, any other sends its creation first
  rcases known with _ | _
  · refine prompt_withShared not_owes_book fun c => ⟨not_owes_book, fun outcome => ?_⟩
    simp only [Program.done_bind]
    split
    · rename_i e hcreated
      -- what is not confirmed is not written
      rintro ⟨x, ⟨⟩, t', ⟨-, h⟩ | h⟩
      · cases hcreated.symm.trans h
      · obtain ⟨⟨m, h⟩, -⟩ := h
        exact Turn.createCommand_ne_readCommand h
    · rename_i hcreated
      exact ⟨⟨_, rfl, rfl, hcreated⟩, fun _ => not_owes_book⟩
  · exact not_owes_book

/-- A command that neither creates nor reads has nothing to be written. -/
theorem prompt_command {c : Connection} {words : List String} {f : Except Failure Reply → Except Failure α}
    (hlast : ¬ Owes group last) (hcreate : ∀ t, words ≠ createCommand group t)
    (hread : ∀ t m, words ≠ readCommand group t m) :
    Prompt group last ((command c words limit).bind fun result => .done (f result)) :=
  ⟨hlast, fun _ => not_owes_command hcreate hread⟩

theorem prompt_publish (t : Topic) (payload : String) : Prompt group none (publish limit t payload) :=
  prompt_withShared not_owes_none fun _ =>
    prompt_command not_owes_book (by simp [addCommand, createCommand]) (by simp [addCommand, readCommand])

theorem prompt_ack (t : Topic) (id : String) : Prompt group none (ack group limit t id) :=
  prompt_withShared not_owes_none fun _ =>
    prompt_command not_owes_book (by simp [ackCommand, createCommand]) (by simp [ackCommand, readCommand])

/-- A connection that has been dialled is kept at once. -/
theorem prompt_consumer {t : Topic} {k : Except Failure Connection → Program Calls α}
    (hnext : ∀ last result, ¬ Owes group last → Prompt group last (k result)) :
    Prompt group none ((consumer limit t).bind k) := by
  refine ⟨not_owes_none, fun (reading : Reading) => ?_⟩
  rcases reading with _ | c | _
  · -- the topic has a connection, or none is to be had
    exact hnext _ _ not_owes_book
  · exact hnext _ _ not_owes_book
  -- a connection is dialled, and kept when the dial goes through
  · refine ⟨not_owes_book, fun (dial : Except DialFault Connection) => ?_⟩
    rcases dial with (_ | _) | c
    · exact hnext _ _ not_owes_dial
    · exact hnext _ _ not_owes_dial
    · exact ⟨⟨_, rfl, rfl⟩, fun _ => hnext _ _ not_owes_book⟩

theorem prompt_receive (t : Topic) (wait : Wait) : Prompt group none (receive group limit t wait) := by
  refine prompt_consumer fun last result hlast => ?_
  rcases result with e | c
  · exact hlast
  · refine ⟨hlast, fun outcome => ?_⟩
    -- nothing is owed unless the group is not there
    have hfound : (∀ text, answered (readLimit limit wait) outcome = .error (.refused text) →
        Reply.code text ≠ "NOGROUP") →
        ¬ Owes group (some ⟨.command c (readCommand group t (blockMilliseconds wait)) (readLimit limit wait),
          outcome⟩) := by
      rintro hthere ⟨x, ⟨⟩, t', h | ⟨-, text, h, hcode⟩⟩
      · exact Turn.createCommand_ne_readCommand h.1.symm
      · exact hthere text h hcode
    simp only [Program.done_bind]
    split
    · rename_i text hrefused
      split
      · -- the group is not there, so the topic is forgotten next
        rename_i hcode
        exact ⟨⟨_, rfl, ⟨_, rfl⟩, text, hrefused, hcode⟩, fun _ => not_owes_book⟩
      · rename_i hcode
        refine hfound fun text' h => ?_
        cases hrefused.symm.trans h
        exact hcode
    · rename_i e hother hrefused
      refine hfound fun text h => ?_
      cases hrefused.symm.trans h
      exact absurd rfl (hother text)
    · rename_i r hreply
      refine hfound fun text h => ?_
      cases hreply.symm.trans h

theorem prompt_destroyAll {c : Connection} {topics : List Topic} (hlast : ¬ Owes group last) :
    Prompt group last ((destroyAll group limit c topics).bind fun _ => teardown) := by
  -- the turn before changes with every command that is sent
  induction topics generalizing last with
  | nil => exact ⟨hlast, fun _ => not_owes_book⟩
  | cons t rest ih =>
    exact ⟨hlast, fun _ => ih (not_owes_command (by simp [destroyCommand, createCommand])
      (by simp [destroyCommand, readCommand]))⟩

theorem prompt_close : Prompt group none (close group limit) := by
  refine ⟨not_owes_none, fun (known : Option Connection × List Topic) => ?_⟩
  rcases known with ⟨_ | c, topics⟩
  · exact ⟨not_owes_book, fun _ => not_owes_book⟩
  · exact prompt_destroyAll not_owes_book

/-- **Every call is prompt.** Whatever it is told, an operation declares a group only where the server has just
confirmed it, forgets one only where the server has just said that it is not there, and keeps a connection only
where it has just been dialled; and where it is told such a thing of a group, it writes it down at once. -/
theorem prompt_program (op : Operation) : Prompt group none (op.program group limit) := by
  cases op with
  | connect => exact prompt_connect.map _
  | teardown => exact ⟨not_owes_none, fun _ => not_owes_book⟩
  | declare t => exact (prompt_declare t).map _
  | publish t payload => exact (prompt_publish t payload).map _
  | receive t wait => exact (prompt_receive t wait).map _
  | ack t id => exact (prompt_ack t id).map _
  | release t => exact ⟨not_owes_none, fun _ => not_owes_book⟩
  | close => exact prompt_close

end

end Occupancy.Redis
