import Mathlib.Data.List.Basic
import Mathlib.Logic.Function.Basic

/-!
# Async functions as programs over awaited commands

A `Prog C R ε α` is an async function that settles with `Except ε α`. Between two `await`s it
runs without interruption, so the only places where another function can act are its `call`s:
each issues one command `c : C` of the signature and continues with the response in `R c`.

`settle` continues on either outcome, the monad continues on success only, and `tryCatch` on
failure only. `throwIf` is the guard form used by validations.
-/

namespace Async

inductive Prog (C : Type) (R : C → Type) (ε α : Type) : Type where
  | ret (r : Except ε α) : Prog C R ε α
  | call (c : C) (next : R c → Prog C R ε α) : Prog C R ε α

namespace Prog

variable {C : Type} {R : C → Type} {ε ε' α β γ : Type}

def settle : Prog C R ε α → (Except ε α → Prog C R ε' β) → Prog C R ε' β
  | ret r, k => k r
  | call c next, k => call c (fun r => settle (next r) k)

def onOk (f : α → Prog C R ε β) : Except ε α → Prog C R ε β
  | .ok a => f a
  | .error e => ret (.error e)

def onError (h : ε → Prog C R ε' α) : Except ε α → Prog C R ε' α
  | .ok a => ret (.ok a)
  | .error e => h e

instance : Monad (Prog C R ε) where
  pure a := ret (.ok a)
  bind p f := p.settle (onOk f)

instance : MonadExceptOf ε (Prog C R ε) where
  throw e := ret (.error e)
  tryCatch p h := p.settle (onError h)

/-- Throw `e` when the condition holds; otherwise go on. -/
def throwIf (b : Bool) (e : ε) : Prog C R ε Unit :=
  if b then ret (.error e) else ret (.ok ())

/-- The value of an optional row, or the error `e`. -/
def orThrow (e : ε) : Option α → Prog C R ε α
  | some a => ret (.ok a)
  | none => ret (.error e)

/-- Run `p` and continue whether or not it throws: the `.catch(() => …)` of a logged failure. -/
def swallow (p : Prog C R ε α) : Prog C R ε' Unit := p.settle (fun _ => ret (.ok ()))

/-- Forget what the function returns; an error stays an error. -/
def discard (p : Prog C R ε α) : Prog C R ε Unit := p.settle (onOk fun _ => ret (.ok ()))

/-- Run `p`, then `fin` on either outcome, and settle as `p` did. -/
def finallyDo (p : Prog C R ε α) (fin : Prog C R ε Unit) : Prog C R ε α :=
  p.settle (fun r => fin.settle (fun _ => ret r))

def isSettled : Prog C R ε α → Bool
  | ret _ => true
  | call .. => false

theorem isSettled_iff {p : Prog C R ε α} : p.isSettled = true ↔ ∃ r, p = ret r := by
  cases p <;> simp [isSettled]

/-- Run to the end on an environment that answers each command and changes its own state. -/
def play {σ : Type} (H : σ → (c : C) → R c × σ) : Prog C R ε α → σ → Except ε α × σ
  | ret r, s => (r, s)
  | call c next, s => play H (next (H s c).1) (H s c).2

/-- Every command of the program satisfies `P`, whatever the responses are. -/
def Issues (P : C → Prop) : Prog C R ε α → Prop
  | ret _ => True
  | call c next => P c ∧ ∀ r, Issues P (next r)

/-- The program can settle with the outcome when each command is answered as `Ans` allows. -/
def Yields (Ans : (c : C) → R c → Prop) : Prog C R ε α → Except ε α → Prop
  | ret r, o => r = o
  | call c next, o => ∃ a, Ans c a ∧ Yields Ans (next a) o

/-- Every command of the program satisfies `P`, as long as the responses are as `Ans` allows. -/
def IssuesGiven (Ans : (c : C) → R c → Prop) (P : C → Prop) : Prog C R ε α → Prop
  | ret _ => True
  | call c next => P c ∧ ∀ r, Ans c r → IssuesGiven Ans P (next r)

@[simp] theorem settle_ret (r : Except ε α) (k : Except ε α → Prog C R ε' β) :
    (ret r : Prog C R ε α).settle k = k r := rfl

@[simp] theorem settle_call (c : C) (next : R c → Prog C R ε α)
    (k : Except ε α → Prog C R ε' β) :
    (call c next).settle k = call c (fun r => (next r).settle k) := rfl

theorem settle_settle {ε'' : Type} (p : Prog C R ε α) (k : Except ε α → Prog C R ε' β)
    (l : Except ε' β → Prog C R ε'' γ) : (p.settle k).settle l = p.settle fun r => (k r).settle l := by
  induction p with
  | ret r => rfl
  | call c next ih =>
    simp only [settle_call, call.injEq, heq_eq_eq, true_and]
    exact funext fun r => ih r

@[simp] theorem pure_bind_eq (a : α) (f : α → Prog C R ε β) : (pure a >>= f) = f a := rfl

theorem bind_eq_settle (p : Prog C R ε α) (f : α → Prog C R ε β) :
    (p >>= f) = p.settle (onOk f) := rfl

@[simp] theorem orThrow_some (e : ε) (a : α) :
    (orThrow e (some a) : Prog C R ε α) = ret (.ok a) := rfl

@[simp] theorem orThrow_none (e : ε) :
    (orThrow e none : Prog C R ε α) = ret (.error e) := rfl

section
variable {P : C → Prop}

theorem issues_ret (r : Except ε α) : (ret r : Prog C R ε α).Issues P := trivial

/-- A command whose response settles the program, as each service performs it. -/
theorem issues_call {c : C} {k : R c → Except ε α} (hc : P c) : (call c fun r => ret (k r)).Issues P :=
  ⟨hc, fun _ => trivial⟩

theorem issues_settle {p : Prog C R ε α} {k : Except ε α → Prog C R ε' β} (hp : p.Issues P)
    (hk : ∀ r, (k r).Issues P) : (p.settle k).Issues P := by
  induction p with
  | ret r => exact hk r
  | call c next ih => exact ⟨hp.1, fun r => ih r (hp.2 r)⟩

theorem issues_bind {p : Prog C R ε α} {f : α → Prog C R ε β} (hp : p.Issues P)
    (hf : ∀ a, (f a).Issues P) : (p >>= f).Issues P := by
  refine issues_settle hp fun r => ?_
  cases r with
  | ok a => exact hf a
  | error e => exact issues_ret _

theorem issues_throwIf (b : Bool) (e : ε) : (throwIf b e : Prog C R ε Unit).Issues P := by
  cases b <;> exact issues_ret _

/-- What follows a guard runs only when the guard lets it. -/
theorem issues_guard {b : Bool} {e : ε} {f : Unit → Prog C R ε β} (h : b = false → (f ()).Issues P) :
    (throwIf b e >>= f).Issues P := by
  cases b with
  | true => exact issues_ret _
  | false => exact h rfl

theorem issues_orThrow (e : ε) (o : Option α) : (orThrow e o : Prog C R ε α).Issues P := by
  cases o <;> exact issues_ret _

theorem issues_mono {P' : C → Prop} (h : ∀ c, P c → P' c) {p : Prog C R ε α} (hp : p.Issues P) :
    p.Issues P' := by
  induction p with
  | ret r => trivial
  | call c next ih => exact ⟨h c hp.1, fun r => ih r (hp.2 r)⟩

end

section
variable {Ans : (c : C) → R c → Prop}

theorem yields_settle {p : Prog C R ε α} {k : Except ε α → Prog C R ε' β} {o : Except ε' β} :
    (p.settle k).Yields Ans o ↔ ∃ r, p.Yields Ans r ∧ (k r).Yields Ans o := by
  induction p with
  | ret r => simp [Yields]
  | call c next ih =>
    simp only [settle_call, Yields, ih]
    constructor
    · rintro ⟨a, ha, r, hr, ho⟩
      exact ⟨r, ⟨a, ha, hr⟩, ho⟩
    · rintro ⟨r, ⟨a, ha, hr⟩, ho⟩
      exact ⟨a, ha, r, hr, ho⟩

/-- A sequence returns when both parts do. -/
theorem yields_bind {p : Prog C R ε α} {f : α → Prog C R ε β} {b : β} :
    (p >>= f).Yields Ans (.ok b) ↔ ∃ a, p.Yields Ans (.ok a) ∧ (f a).Yields Ans (.ok b) := by
  rw [bind_eq_settle, yields_settle]
  constructor
  · rintro ⟨r, hr, ho⟩
    cases r with
    | ok a => exact ⟨a, hr, ho⟩
    | error e => cases ho
  · rintro ⟨a, ha, ho⟩
    exact ⟨.ok a, ha, ho⟩

theorem yields_bind_ok {p : Prog C R ε α} {f : α → Prog C R ε β} {a : α} {o : Except ε β}
    (hp : p.Yields Ans (.ok a)) (hf : (f a).Yields Ans o) : (p >>= f).Yields Ans o := by
  rw [bind_eq_settle, yields_settle]
  exact ⟨.ok a, hp, hf⟩

/-- A sequence settles with the outcome of its second part, or with the error of its first. -/
theorem yields_bind_cases {p : Prog C R ε α} {f : α → Prog C R ε β} {o : Except ε β}
    (h : (p >>= f).Yields Ans o) : (∃ a, p.Yields Ans (.ok a) ∧ (f a).Yields Ans o) ∨
      ∃ e, p.Yields Ans (.error e) ∧ o = .error e := by
  rw [bind_eq_settle, yields_settle] at h
  obtain ⟨r, hr, ho⟩ := h
  cases r with
  | ok a => exact .inl ⟨a, hr, ho⟩
  | error e => exact .inr ⟨e, hr, ho.symm⟩

@[simp] theorem yields_pure {a b : α} :
    (pure a : Prog C R ε α).Yields Ans (.ok b) ↔ a = b := by
  constructor
  · intro h
    exact Except.ok.inj h
  · rintro rfl
    exact rfl

@[simp] theorem yields_ret {r o : Except ε α} : (ret r : Prog C R ε α).Yields Ans o ↔ r = o :=
  Iff.rfl

@[simp] theorem yields_throwIf {b : Bool} {e : ε} {u : Unit} :
    (throwIf b e : Prog C R ε Unit).Yields Ans (.ok u) ↔ b = false := by
  cases b <;> simp [throwIf]

theorem yields_throwIf_error {b : Bool} {e e' : ε} :
    (throwIf b e : Prog C R ε Unit).Yields Ans (.error e') ↔ b = true ∧ e = e' := by
  cases b with
  | false => exact ⟨fun h => (nomatch h), fun h => (nomatch h.1)⟩
  | true => exact ⟨fun h => ⟨rfl, Except.error.inj h⟩, fun h => congrArg Except.error h.2⟩

theorem yields_orThrow_error {e e' : ε} {x : Option α} :
    (orThrow e x : Prog C R ε α).Yields Ans (.error e') ↔ x = none ∧ e = e' := by
  cases x with
  | some a => exact ⟨fun h => (nomatch h), fun h => (nomatch h.1)⟩
  | none => exact ⟨fun h => ⟨rfl, Except.error.inj h⟩, fun h => congrArg Except.error h.2⟩

@[simp] theorem yields_orThrow {e : ε} {x : Option α} {a : α} :
    (orThrow e x : Prog C R ε α).Yields Ans (.ok a) ↔ x = some a := by
  cases x <;> simp

end

section
variable {Ans : (c : C) → R c → Prop} {P : C → Prop}

theorem issuesGiven_ret (r : Except ε α) : (ret r : Prog C R ε α).IssuesGiven Ans P := trivial

theorem issuesGiven_call {c : C} {k : R c → Except ε α} (hc : P c) :
    (call c fun r => ret (k r)).IssuesGiven Ans P := ⟨hc, fun _ _ => trivial⟩

/-- What follows a command is judged on the responses that are allowed. -/
theorem issuesGiven_call_bind {c : C} {f : R c → Prog C R ε β} (hc : P c)
    (hf : ∀ r, Ans c r → (f r).IssuesGiven Ans P) :
    ((call c fun r => ret (.ok r)) >>= f).IssuesGiven Ans P := ⟨hc, hf⟩

theorem Issues.given {p : Prog C R ε α} (hp : p.Issues P) : p.IssuesGiven Ans P := by
  induction p with
  | ret r => trivial
  | call c next ih => exact ⟨hp.1, fun r _ => ih r (hp.2 r)⟩

theorem issues_of_given {p : Prog C R ε α} (hp : p.IssuesGiven (fun _ _ => True) P) : p.Issues P := by
  induction p with
  | ret r => trivial
  | call c next ih => exact ⟨hp.1, fun r => ih r (hp.2 r trivial)⟩

/-- A program can settle in the same way when more answers are allowed. -/
theorem Yields.mono {Ans' : (c : C) → R c → Prop} (hans : ∀ c r, Ans c r → Ans' c r)
    {p : Prog C R ε α} {o : Except ε α} (h : p.Yields Ans o) : p.Yields Ans' o := by
  induction p with
  | ret r => exact h
  | call c next ih =>
    obtain ⟨a, ha, h⟩ := h
    exact ⟨a, hans c a ha, ih a h⟩

theorem issuesGiven_settle {p : Prog C R ε α} {k : Except ε α → Prog C R ε' β}
    (hp : p.IssuesGiven Ans P) (hk : ∀ r, p.Yields Ans r → (k r).IssuesGiven Ans P) :
    (p.settle k).IssuesGiven Ans P := by
  induction p with
  | ret r => exact hk r rfl
  | call c next ih => exact ⟨hp.1, fun r hr => ih r (hp.2 r hr) fun o ho => hk o ⟨r, hr, ho⟩⟩

theorem issuesGiven_bind {p : Prog C R ε α} {f : α → Prog C R ε β} (hp : p.IssuesGiven Ans P)
    (hf : ∀ a, p.Yields Ans (.ok a) → (f a).IssuesGiven Ans P) : (p >>= f).IssuesGiven Ans P := by
  refine issuesGiven_settle hp fun r hr => ?_
  cases r with
  | ok a => exact hf a hr
  | error e => exact issuesGiven_ret _

end

/-- What follows a program need only be judged at the values that the program can return. -/
theorem issues_bind_of_yields {P : C → Prop} {p : Prog C R ε α} {f : α → Prog C R ε β}
    (hp : p.Issues P) (hf : ∀ a, p.Yields (fun _ _ => True) (.ok a) → (f a).Issues P) :
    (p >>= f).Issues P := by
  have hsettle : ∀ (q : Prog C R ε α), q.Issues P →
      (∀ a, q.Yields (fun _ _ => True) (.ok a) → (f a).Issues P) →
      (q.settle (onOk f)).Issues P := by
    intro q hq hfq
    induction q with
    | ret r =>
      cases r with
      | ok a => exact hfq a rfl
      | error e => exact issues_ret _
    | call c next ih => exact ⟨hq.1, fun r => ih r (hq.2 r) fun a ha => hfq a ⟨r, trivial, ha⟩⟩
  exact hsettle p hp hf

variable {σ : Type} (H : σ → (c : C) → R c × σ)

@[simp] theorem play_ret (r : Except ε α) (s : σ) :
    (ret r : Prog C R ε α).play H s = (r, s) := rfl

@[simp] theorem play_call (c : C) (next : R c → Prog C R ε α) (s : σ) :
    (call c next).play H s = (next (H s c).1).play H (H s c).2 := rfl

/-- Playing a sequence is playing its parts one after the other. -/
theorem play_settle (p : Prog C R ε α) (k : Except ε α → Prog C R ε' β) (s : σ) :
    (p.settle k).play H s = (k (p.play H s).1).play H (p.play H s).2 := by
  induction p generalizing s with
  | ret r => rfl
  | call c next ih => exact ih (H s c).1 (H s c).2

theorem play_bind (p : Prog C R ε α) (f : α → Prog C R ε β) (s : σ) :
    (p >>= f).play H s = (onOk f (p.play H s).1).play H (p.play H s).2 := play_settle H p (onOk f) s

/-- Two environments that answer alike and keep their states related play a program alike. -/
theorem play_related {τ : Type} {H : σ → (c : C) → R c × σ} {H' : τ → (c : C) → R c × τ}
    {P : C → Prop} {K : σ → τ → Prop}
    (hstep : ∀ c, P c → ∀ s t, K s t → (H s c).1 = (H' t c).1 ∧ K (H s c).2 (H' t c).2)
    {p : Prog C R ε α} (hp : p.Issues P) {s : σ} {t : τ} (hst : K s t) :
    (p.play H s).1 = (p.play H' t).1 ∧ K (p.play H s).2 (p.play H' t).2 := by
  induction p generalizing s t with
  | ret r => exact ⟨rfl, hst⟩
  | call c next ih =>
    obtain ⟨hanswer, hnext⟩ := hstep c hp.1 s t hst
    simp only [play_call, ← hanswer]
    exact ih (H s c).1 (hp.2 _) hnext

/-- How a program ends when it is played is one of the ways in which it can settle. -/
theorem yields_play {H : σ → (c : C) → R c × σ} {Ans : (c : C) → R c → Prop}
    (hans : ∀ s c, Ans c (H s c).1) (p : Prog C R ε α) (s : σ) :
    p.Yields Ans (p.play H s).1 := by
  induction p generalizing s with
  | ret r => exact rfl
  | call c next ih => exact ⟨(H s c).1, hans s c, ih _ (H s c).2⟩

end Prog
end Async
