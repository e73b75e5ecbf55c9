import Tokenable.Async.Prog

/-!
# The commands that a program issues

`trace` lists the commands of a program that is played to its end, each with the state that it acts
on. A sequence issues the commands of its first part, and those of the second when the first succeeds.
-/

namespace Async.Prog
variable {σ C : Type} {R : C → Type} {ε ε' α β : Type}

def trace (H : σ → (c : C) → R c × σ) : Prog C R ε α → σ → List (σ × C)
  | ret _, _ => []
  | call c next, s => (s, c) :: trace H (next (H s c).1) (H s c).2

variable (H : σ → (c : C) → R c × σ)

theorem trace_settle (p : Prog C R ε α) (k : Except ε α → Prog C R ε' β) (s : σ) :
    (p.settle k).trace H s = p.trace H s ++ (k (p.play H s).1).trace H (p.play H s).2 := by
  induction p generalizing s with
  | ret r => rfl
  | call c next ih =>
    have hrest := ih (H s c).1 (H s c).2
    rw [settle_call, trace, hrest]
    rfl

theorem trace_bind (p : Prog C R ε α) (f : α → Prog C R ε β) (s : σ) :
    (p >>= f).trace H s = p.trace H s ++ (onOk f (p.play H s).1).trace H (p.play H s).2 :=
  trace_settle H p (onOk f) s

/-- The commands that a program issues are among those that it can issue. -/
theorem issued_of_mem_trace {P : C → Prop} {p : Prog C R ε α} (hp : p.Issues P) {s : σ}
    {m : σ × C} (hm : m ∈ p.trace H s) : P m.2 := by
  induction p generalizing s with
  | ret r => exact absurd hm List.not_mem_nil
  | call c next ih =>
    rcases List.mem_cons.mp hm with rfl | hrest
    · exact hp.1
    · exact ih _ (hp.2 _) hrest

end Async.Prog
