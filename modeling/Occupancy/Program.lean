/-!
# Programs

What a task does, as a tree of requests to its surroundings: each request has a type of reply, and
the rest of the program depends on it. A program says nothing about who answers. The same program is
run against a store that works, a store that fails, or step by step beside other programs, where one
request is one indivisible step.
-/

namespace Occupancy

/-- The requests that a kind of program makes, each with its type of reply. -/
structure Signature where
  Call : Type
  Reply : Call → Type

/-- A finished program with its result, or a request with what follows its reply. -/
inductive Program (S : Signature) (α : Type) : Type where
  | done (a : α)
  | ask (c : S.Call) (next : S.Reply c → Program S α)

namespace Program

variable {S T : Signature} {α β : Type}

/-- The program that makes one request and results in its reply. -/
def call (c : S.Call) : Program S (S.Reply c) :=
  .ask c .done

/-- One program after another. -/
def bind (p : Program S α) (f : α → Program S β) : Program S β :=
  match p with
  | .done a => f a
  | .ask c next => .ask c fun r => (next r).bind f

instance : Monad (Program S) where
  pure := .done
  bind := bind

/-- The program with every request replaced by a program of another kind. -/
def lift (f : (c : S.Call) → Program T (S.Reply c)) : Program S α → Program T α
  | .done a => .done a
  | .ask c next => (f c).bind fun r => (next r).lift f

/-- Runs a program alone, each request answered at once from a state. -/
def run {σ : Type} (answer : (c : S.Call) → σ → S.Reply c × σ) : Program S α → σ → α × σ
  | .done a, s => (a, s)
  | .ask c next, s =>
    let (r, s) := answer c s
    (next r).run answer s

/-! ## Laws -/

@[simp] theorem done_bind (a : α) (f : α → Program S β) : (done a).bind f = f a :=
  rfl

@[simp] theorem ask_bind (c : S.Call) (next : S.Reply c → Program S α) (f : α → Program S β) :
    (ask c next).bind f = ask c fun r => (next r).bind f :=
  rfl

theorem bind_done (p : Program S α) : p.bind done = p := by
  induction p with
  | done a => rfl
  | ask c next ih => simp [ih]

theorem bind_assoc {γ : Type} (p : Program S α) (f : α → Program S β) (g : β → Program S γ) :
    (p.bind f).bind g = p.bind fun a => (f a).bind g := by
  induction p with
  | done a => rfl
  | ask c next ih => simp [ih]

/-- Running one program after another passes the state on. -/
theorem run_bind {σ : Type} (answer : (c : S.Call) → σ → S.Reply c × σ) (p : Program S α)
    (f : α → Program S β) (s : σ) :
    (p.bind f).run answer s = (f (p.run answer s).1).run answer (p.run answer s).2 := by
  induction p generalizing s with
  | done a => rfl
  | ask c next ih => simp [run, ih]

end Program

end Occupancy
