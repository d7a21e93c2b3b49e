import Occupancy.Program

/-!
# Programs made of programs

A program whose requests are replaced by programs runs as those programs do.
-/

namespace Occupancy.Program

variable {S T : Signature} {α β : Type}

/-- A request is answered, and the rest runs with the reply. -/
theorem run_ask {σ : Type} {answer : (c : S.Call) → σ → S.Reply c × σ} {c : S.Call}
    {next : S.Reply c → Program S α} {r : S.Reply c} {s s' : σ} (h : answer c s = (r, s')) :
    (ask c next).run answer s = (next r).run answer s' := by
  rw [run, h]

/-- Replacing the requests of a program amounts to answering them by the replacements. -/
theorem run_lift {σ : Type} (f : (c : S.Call) → Program T (S.Reply c))
    (answer : (c : T.Call) → σ → T.Reply c × σ) (p : Program S α) (s : σ) :
    (p.lift f).run answer s = p.run (fun c => (f c).run answer) s := by
  induction p generalizing s with
  | done a => rfl
  | ask c next ih =>
    rw [lift, run_bind, run]
    exact ih _ _

/-- A replacement of requests goes through both of two programs. -/
theorem lift_bind (f : (c : S.Call) → Program T (S.Reply c)) (p : Program S α) (g : α → Program S β) :
    (p.bind g).lift f = (p.lift f).bind fun a => (g a).lift f := by
  induction p with
  | done a => rfl
  | ask c next ih =>
    rw [lift, bind_assoc, ask_bind, lift]
    exact congrArg _ (funext ih)

end Occupancy.Program
