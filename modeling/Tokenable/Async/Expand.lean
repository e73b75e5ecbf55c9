import Tokenable.Async.Serial
import Tokenable.Async.Triple

/-!
# Commands that are programs themselves

`expand h p` runs, in the place of each command of `p`, the program that `h` has for it, and goes on
with what that program returns. An error of it ends `p`; `outcome` hands the error to `p` instead.
-/

namespace Async

namespace Prog

variable {C C' : Type} {R : C → Type} {R' : C' → Type} {ε α β : Type}

def expand (h : (c : C) → Prog C' R' ε (R c)) : Prog C R ε α → Prog C' R' ε α
  | ret r => ret r
  | call c next => h c >>= fun a => expand h (next a)

def mapError {ε' : Type} (f : ε → ε') (p : Prog C R ε α) : Prog C R ε' α :=
  p.settle fun r => ret (r.mapError f)

/-- The same with a program of its own for the first command. -/
def expandFirst (first h : (c : C) → Prog C' R' ε (R c)) : Prog C R ε α → Prog C' R' ε α
  | ret r => ret r
  | call c next => first c >>= fun a => expand h (next a)

/-- Run `p` and return how it ended. -/
def outcome (p : Prog C R ε α) : Prog C R ε (Except ε α) := p.settle fun r => ret (.ok r)

theorem settle_ret_self (p : Prog C R ε α) : p.settle ret = p := by
  induction p with
  | ret r => rfl
  | call c next ih =>
    rw [settle_call]
    congr 1
    exact funext ih

theorem bind_bind {γ : Type} (p : Prog C R ε α) (f : α → Prog C R ε β) (g : β → Prog C R ε γ) :
    ((p >>= f) >>= g) = p >>= fun a => f a >>= g := by
  rw [bind_eq_settle, bind_eq_settle, settle_settle, bind_eq_settle]
  congr 1
  funext r
  cases r with
  | ok a => rfl
  | error e => rfl

theorem outcome_bind_ret (p : Prog C R ε α) : (outcome p >>= ret) = p := by
  rw [bind_eq_settle, outcome, settle_settle]
  exact settle_ret_self p

theorem outcome_bind (p : Prog C R ε α) (f : Except ε α → Prog C R ε β) :
    (outcome p >>= f) = p.settle f := by
  rw [bind_eq_settle, outcome, settle_settle]
  rfl

theorem mapError_bind {ε' : Type} (f : ε → ε') (p : Prog C R ε α) (k : α → Prog C R ε β) :
    (p >>= k).mapError f = p.mapError f >>= fun a => (k a).mapError f := by
  rw [bind_eq_settle, mapError, settle_settle, bind_eq_settle, mapError, settle_settle]
  congr 1
  funext r
  cases r with
  | ok a => rfl
  | error e => rfl

section
variable {h first : (c : C) → Prog C' R' ε (R c)}

@[simp] theorem expand_ret (r : Except ε α) : expand h (ret r : Prog C R ε α) = ret r := rfl

theorem expand_bind (p : Prog C R ε α) (f : α → Prog C R ε β) :
    expand h (p >>= f) = expand h p >>= fun a => expand h (f a) := by
  induction p with
  | ret r => cases r <;> rfl
  | call c next ih =>
    change (h c >>= fun a => expand h ((next a).settle (onOk f))) = _
    rw [expand, bind_bind]
    congr 1
    funext a
    exact ih a

theorem expand_throwIf (b : Bool) (e : ε) :
    expand h (throwIf b e : Prog C R ε Unit) = throwIf b e := by
  cases b <;> rfl

/-- A guard issues no command. -/
theorem expandFirst_throwIf_bind (b : Bool) (e : ε) (f : Unit → Prog C R ε β) :
    expandFirst first h (throwIf b e >>= f) = throwIf b e >>= fun u =>
      expandFirst first h (f u) := by
  cases b <;> rfl

theorem expandFirst_orThrow_bind (e : ε) (o : Option α) (f : α → Prog C R ε β) :
    expandFirst first h (orThrow e o >>= f) = orThrow e o >>= fun a =>
      expandFirst first h (f a) := by
  cases o <;> rfl

theorem issues_outcome {P : C → Prop} {p : Prog C R ε α} (hp : p.Issues P) :
    (outcome p).Issues P := issues_settle hp fun _ => issues_ret _

/-- What each expansion issues, the whole program issues. -/
theorem issues_expand {P : C → Prop} {P' : C' → Prop} (hh : ∀ c, P c → (h c).Issues P')
    {p : Prog C R ε α} (hp : p.Issues P) : (expand h p).Issues P' := by
  induction p with
  | ret r => exact issues_ret r
  | call c next ih => exact issues_bind (hh c hp.1) fun a => ih a (hp.2 a)

/-- A program whose commands are those of another service runs as it does on its own. -/
theorem runs_of_expand {σ X X' : Type} {H : SerialHandler σ X C R} {H' : SerialHandler σ X' C' R'}
    {Ok : AllowedStep σ X' C'} (hh : ∀ c s o t, (h c).Runs H' Ok s o t →
      ∃ x, o = .ok (H s x c).1 ∧ t = (H s x c).2) {p : Prog C R ε α} {s t : σ} {o : Except ε α}
    (hp : (expand h p).Runs H' Ok s o t) : p.Runs H anyAnswer s o t := by
  induction p generalizing s with
  | ret r => exact hp
  | call c next ih =>
    rcases runs_bind.mp hp with ⟨a, u, hc, hnext⟩ | ⟨e, hc, -⟩
    · obtain ⟨x, ha, rfl⟩ := hh c s _ _ hc
      obtain rfl := Except.ok.inj ha
      exact ⟨x, trivial, ih _ hnext⟩
    · obtain ⟨x, he, -⟩ := hh c s _ _ hc
      cases he

theorem issuesGiven_outcome {Ans : (c : C) → R c → Prop} {P : C → Prop} {p : Prog C R ε α}
    (hp : p.IssuesGiven Ans P) : (outcome p).IssuesGiven Ans P :=
  issuesGiven_settle hp fun _ _ => issuesGiven_ret _

variable {Ans : (c : C') → R' c → Prop} {P' : C' → Prop}

theorem issuesGiven_expand (hh : ∀ c, (h c).IssuesGiven Ans P') (p : Prog C R ε α) :
    (expand h p).IssuesGiven Ans P' := by
  induction p with
  | ret r => exact issuesGiven_ret r
  | call c next ih => exact issuesGiven_bind (hh c) fun a _ => ih a

theorem issuesGiven_expandFirst (hfirst : ∀ c, (first c).IssuesGiven Ans P')
    (hh : ∀ c, (h c).IssuesGiven Ans P') (p : Prog C R ε α) :
    (expandFirst first h p).IssuesGiven Ans P' := by
  cases p with
  | ret r => exact issuesGiven_ret r
  | call c next => exact issuesGiven_bind (hfirst c) fun a _ => issuesGiven_expand hh (next a)

end

end Prog

end Async
