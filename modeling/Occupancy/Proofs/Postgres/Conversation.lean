import Occupancy.Postgres.Client

/-!
# Conversations with the database

What a program of the store asks, with what it is told, for any database whatever: `Converses` relates a
program to the turns of a conversation and to the result that they lead to. Every database makes one
conversation out of a program (`converses_run`), so that what holds of all conversations holds of all databases.
Main statement: `Exchange.Tells.of_transaction` says how
transactions begin and end.
-/

namespace Occupancy.Postgres

/-- A request of the store, with the reply of the database. -/
inductive Turn where
  | start (reply : Except String Unit)
  | commit (reply : Except String Unit)
  | rollback
  | createTables (reply : Except String Unit)
  | statement (s : Statement) (reply : Except String Result)

def Turn.of : (c : Call) → c.Reply → Turn
  | .start, reply => .start reply
  | .commit, reply => .commit reply
  | .rollback, _ => .rollback
  | .createTables, reply => .createTables reply
  | .execute s, reply => .statement s reply

/-- Given the replies of some turns, a program makes their requests and ends with a result. -/
inductive Converses {α : Type} : Program Calls α → List Turn → α → Prop where
  | done (a : α) : Converses (.done a) [] a
  | ask {c : Call} {next : c.Reply → Program Calls α} {reply : c.Reply} {turns : List Turn} {a : α}
      (rest : Converses (next reply) turns a) : Converses (.ask c next) (.of c reply :: turns) a

section Runs

variable {α σ : Type} (answer : (c : Call) → σ → c.Reply × σ)

def turns : Program Calls α → σ → List Turn
  | .done _, _ => []
  | .ask c next, s => .of c (answer c s).1 :: turns (next (answer c s).1) (answer c s).2

/-- What a database makes of a program is a conversation. -/
theorem converses_run (p : Program Calls α) (s : σ) :
    Converses p (turns answer p s) (p.run answer s).1 := by
  induction p generalizing s with
  | done a => exact .done a
  | ask c next ih => exact .ask (ih _ _)

end Runs

/-! ## What conversations are about -/

section Inversion

variable {α β : Type} {ts : List Turn}

theorem Converses.of_done {a b : α} (h : Converses (.done a) ts b) : ts = [] ∧ b = a := by
  cases h
  exact ⟨rfl, rfl⟩

/-- A program that asks comes to an end by way of the reply. -/
theorem Converses.of_ask {c : Call} {next : c.Reply → Program Calls α} {a : α}
    (h : Converses (.ask c next) ts a) :
    ∃ reply rest, ts = .of c reply :: rest ∧ Converses (next reply) rest a := by
  cases h with
  | ask rest => exact ⟨_, _, rfl, rest⟩

/-- A conversation about one program after another is one about the first and then one about the second. -/
theorem Converses.of_bind {p : Program Calls α} {f : α → Program Calls β} {b : β}
    (h : Converses (p.bind f) ts b) :
    ∃ a first rest, ts = first ++ rest ∧ Converses p first a ∧ Converses (f a) rest b := by
  induction p generalizing ts with
  | done a => exact ⟨a, [], ts, rfl, .done a, h⟩
  | ask c next ih =>
    obtain ⟨reply, rest, rfl, hrest⟩ := h.of_ask
    obtain ⟨a, first, last, rfl, hp, hf⟩ := ih reply hrest
    exact ⟨a, .of c reply :: first, last, rfl, .ask hp, hf⟩

end Inversion

/-- A conversation about a program of the store, which may fail. -/
def Exchange.Tells {α : Type} (p : Exchange α) (ts : List Turn) (r : Except Failure α) : Prop :=
  Converses p.run ts r

namespace Exchange.Tells

variable {α β : Type} {ts : List Turn}

theorem of_given {value r : Except Failure α} (h : (given value).Tells ts r) : ts = [] ∧ r = value :=
  h.of_done

theorem of_execute {s : Statement} {r : Except Failure Result} (h : (execute s).Tells ts r) :
    ∃ reply, ts = [.statement s reply] ∧ r = orDatabase reply := by
  obtain ⟨reply, rest, rfl, hrest⟩ := Converses.of_ask h
  obtain ⟨rfl, rfl⟩ := hrest.of_done
  exact ⟨reply, rfl, rfl⟩

/-- What follows is left out where the first part fails. -/
theorem of_bind {p : Exchange α} {f : α → Exchange β} {r : Except Failure β} (h : (p >>= f).Tells ts r) :
    (∃ e, p.Tells ts (.error e) ∧ r = .error e) ∨
    ∃ a first rest, ts = first ++ rest ∧ p.Tells first (.ok a) ∧ (f a).Tells rest r := by
  obtain ⟨result, first, rest, rfl, hp, hf⟩ := Converses.of_bind h
  cases result with
  | error e =>
    obtain ⟨rfl, rfl⟩ := hf.of_done
    rw [List.append_nil]
    exact .inl ⟨e, hp, rfl⟩
  | ok a => exact .inr ⟨a, first, rest, rfl, hp, hf⟩

/-- A value that is needed is there, or it decides the failure. -/
theorem of_given_bind {value : Except Failure α} {f : α → Exchange β} {r : Except Failure β}
    (h : (given value >>= f).Tells ts r) :
    (∃ e, value = .error e ∧ ts = [] ∧ r = .error e) ∨ ∃ a, value = .ok a ∧ (f a).Tells ts r := by
  rcases of_bind h with ⟨e, hgiven, rfl⟩ | ⟨a, first, rest, rfl, hgiven, hrest⟩ <;>
    obtain ⟨rfl, hvalue⟩ := of_given hgiven
  · exact .inl ⟨e, hvalue.symm, rfl, rfl⟩
  · exact .inr ⟨a, hvalue.symm, hrest⟩

/-- A statement is answered with an error, or its result is used. -/
theorem of_execute_bind {s : Statement} {f : Result → Exchange β} {r : Except Failure β}
    (h : (execute s >>= f).Tells ts r) :
    (∃ code, ts = [.statement s (.error code)] ∧ r = .error (.database code)) ∨
    ∃ result rest, ts = .statement s (.ok result) :: rest ∧ (f result).Tells rest r := by
  rcases of_bind h with ⟨e, hexecute, rfl⟩ | ⟨result, first, rest, rfl, hexecute, hrest⟩ <;>
    obtain ⟨reply, rfl, hreply⟩ := of_execute hexecute <;>
    cases reply <;>
    cases hreply
  · exact .inl ⟨_, rfl, rfl⟩
  · exact .inr ⟨_, rest, rfl, hrest⟩

/-- How a transaction goes: it may not start; it is rolled back where its body fails, and committed where it
does not; and a commit that fails is followed by a rollback. -/
theorem of_transaction {body : Exchange α} {r : Except Failure α} (h : (transaction body).Tells ts r) :
    (∃ code, ts = [.start (.error code)] ∧ r = .error (.database code)) ∨
    (∃ e inner, body.Tells inner (.error e) ∧ ts = .start (.ok ()) :: inner ++ [.rollback] ∧
      r = .error e) ∨
    (∃ a inner, body.Tells inner (.ok a) ∧ ts = .start (.ok ()) :: inner ++ [.commit (.ok ())] ∧
      r = .ok a) ∨
    (∃ a inner code, body.Tells inner (.ok a) ∧
      ts = .start (.ok ()) :: inner ++ [.commit (.error code), .rollback] ∧
      r = .error (.database code)) := by
  obtain ⟨started, rest, rfl, hstarted⟩ := Converses.of_ask h
  -- it was never begun
  cases started with
  | error code =>
    obtain ⟨rfl, rfl⟩ := hstarted.of_done
    exact .inl ⟨code, rfl, rfl⟩
  | ok _ =>
    right
    obtain ⟨result, inner, last, rfl, hbody, hlast⟩ := Converses.of_bind hstarted
    cases result with
    | error e =>
      -- the body failed, so it is rolled back
      obtain ⟨_, _, rfl, hend⟩ := hlast.of_ask
      obtain ⟨rfl, rfl⟩ := hend.of_done
      exact .inl ⟨e, inner, hbody, rfl, rfl⟩
    | ok a =>
      right
      obtain ⟨committed, _, rfl, hcommitted⟩ := hlast.of_ask
      -- committed, or the commit failed and it is rolled back
      cases committed with
      | ok _ =>
        obtain ⟨rfl, rfl⟩ := hcommitted.of_done
        exact .inl ⟨a, inner, hbody, rfl, rfl⟩
      | error code =>
        obtain ⟨_, _, rfl, hend⟩ := hcommitted.of_ask
        obtain ⟨rfl, rfl⟩ := hend.of_done
        exact .inr ⟨a, inner, code, hbody, rfl, rfl⟩

end Exchange.Tells

end Occupancy.Postgres
