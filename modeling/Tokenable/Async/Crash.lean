import Tokenable.Async.RelyGuarantee
import Tokenable.Async.Serial

/-!
# Functions that may be stopped after any command

`StopsIn p s t` says that `p`, started in `s` while no other function runs, may be in `t` when its
process dies, or when a command of it fails and nothing handles the failure, or at its end. `Holds I`
says that `I` holds after every command of a program, and a postcondition at its end. `failAfter` is the
program whose command after the first `n` fails.
-/

namespace Async

namespace Prog
variable {σ X C : Type} {R : C → Type} {ε ε' α β : Type}

def StopsIn (H : SerialHandler σ X C R) (Ok : AllowedStep σ X C) :
    Prog C R ε α → σ → σ → Prop
  | ret _, s, t => s = t
  | call c next, s, t => s = t ∨ ∃ x, Ok s x c ∧ StopsIn H Ok (next (H s x c).1) (H s x c).2 t

def Holds (H : SerialHandler σ X C R) (Ok : AllowedStep σ X C) (I : σ → Prop) :
    Prog C R ε α → (Except ε α → σ → Prop) → σ → Prop
  | ret r, Q, s => I s ∧ Q r s
  | call c next, Q, s => I s ∧ ∀ x, Ok s x c → Holds H Ok I (next (H s x c).1) Q (H s x c).2

/-- Play the first `n` commands, with the same answers at each; `none` when a step is not allowed. -/
def tryStop (H : SerialHandler σ X C R) (Ok : AllowedStep σ X C) [∀ s x c, Decidable (Ok s x c)]
    (x : X) : ℕ → Prog C R ε α → σ → Option σ
  | 0, _, s => some s
  | _ + 1, ret _, s => some s
  | n + 1, call c next, s =>
    if Ok s x c then tryStop H Ok x n (next (H s x c).1) (H s x c).2 else none

/-- The first `n` commands, and the error `e` when another one is due. -/
def failAfter (e : ε) : ℕ → Prog C R ε α → Prog C R ε α
  | _, ret r => ret r
  | 0, call _ _ => ret (.error e)
  | n + 1, call c next => call c fun r => failAfter e n (next r)

theorem issues_failAfter {P : C → Prop} {e : ε} {n : ℕ} {p : Prog C R ε α} (hp : p.Issues P) :
    (p.failAfter e n).Issues P := by
  induction n generalizing p with
  | zero => cases p <;> exact issues_ret _
  | succ n ih =>
    cases p with
    | ret r => exact issues_ret _
    | call c next => exact ⟨hp.1, fun r => ih (hp.2 r)⟩

variable {H : SerialHandler σ X C R} {Ok : AllowedStep σ X C} {I : σ → Prop} {s t : σ}

theorem stopsIn_of_runs {p : Prog C R ε α} {o : Except ε α} (h : p.Runs H Ok s o t) :
    p.StopsIn H Ok s t := by
  induction p generalizing s with
  | ret r => exact h.2
  | call c next ih =>
    obtain ⟨x, hx, hnext⟩ := h
    exact .inr ⟨x, hx, ih _ hnext⟩

theorem stopsIn_of_tryStop [∀ s x c, Decidable (Ok s x c)] {x : X} {n : ℕ} {p : Prog C R ε α}
    (h : p.tryStop H Ok x n s = some t) : p.StopsIn H Ok s t := by
  induction n generalizing p s with
  | zero =>
    obtain rfl := Option.some.inj h
    cases p with
    | ret r => exact rfl
    | call c next => exact .inl rfl
  | succ n ih =>
    cases p with
    | ret r => exact Option.some.inj h
    | call c next =>
      simp only [tryStop] at h
      split_ifs at h with hok
      exact .inr ⟨x, hok, ih h⟩

theorem Holds.start {p : Prog C R ε α} {Q : Except ε α → σ → Prop} (h : p.Holds H Ok I Q s) :
    I s := by
  cases p with
  | ret r => exact h.1
  | call c next => exact h.1

/-- Wherever a program stops, what holds after every command of it holds there. -/
theorem Holds.stopsIn {p : Prog C R ε α} {Q : Except ε α → σ → Prop} (h : p.Holds H Ok I Q s)
    (hstop : p.StopsIn H Ok s t) : I t := by
  induction p generalizing s with
  | ret r => exact hstop ▸ h.1
  | call c next ih =>
    rcases hstop with rfl | ⟨x, hx, hnext⟩
    · exact h.1
    · exact ih _ (h.2 x hx) hnext

theorem Holds.mono {p : Prog C R ε α} {Q Q' : Except ε α → σ → Prop}
    (hQ : ∀ r t, I t → Q r t → Q' r t) (h : p.Holds H Ok I Q s) : p.Holds H Ok I Q' s := by
  induction p generalizing s with
  | ret r => exact ⟨h.1, hQ r s h.1 h.2⟩
  | call c next ih => exact ⟨h.1, fun x hx => ih _ (h.2 x hx)⟩

theorem holds_settle {p : Prog C R ε α} {k : Except ε α → Prog C R ε' β}
    {Q : Except ε' β → σ → Prop} (h : p.Holds H Ok I (fun r t => (k r).Holds H Ok I Q t) s) :
    (p.settle k).Holds H Ok I Q s := by
  induction p generalizing s with
  | ret r => exact h.2
  | call c next ih => exact ⟨h.1, fun x hx => ih _ (h.2 x hx)⟩

theorem holds_bind {p : Prog C R ε α} {f : α → Prog C R ε β} {Q : Except ε β → σ → Prop}
    {Q₁ : α → σ → Prop} (hp : p.Holds H Ok I (fun r t => ∀ a, r = .ok a → Q₁ a t) s)
    (hf : ∀ a t, I t → Q₁ a t → (f a).Holds H Ok I Q t)
    (herr : ∀ e t, I t → Q (.error e) t) : (p >>= f).Holds H Ok I Q s := by
  refine holds_settle (hp.mono fun r t ht hr => ?_)
  cases r with
  | ok a => exact hf a t ht (hr a rfl)
  | error e => exact ⟨ht, herr e t ht⟩

theorem holds_call_bind {c : C} {next : R c → Prog C R ε α} {f : α → Prog C R ε β}
    {Q : Except ε β → σ → Prop} (hI : I s)
    (h : ∀ x, Ok s x c → (next (H s x c).1 >>= f).Holds H Ok I Q (H s x c).2) :
    (call c next >>= f).Holds H Ok I Q s := ⟨hI, h⟩

theorem holds_ret_bind {r : Except ε α} {f : α → Prog C R ε β} {Q : Except ε β → σ → Prop}
    (hok : ∀ a, r = .ok a → (f a).Holds H Ok I Q s) (herr : ∀ e, I s ∧ Q (.error e) s) :
    (ret r >>= f).Holds H Ok I Q s := by
  cases r with
  | ok a => exact hok a rfl
  | error e => exact herr e

theorem holds_throwIf {b : Bool} {e : ε} {Q : Except ε Unit → σ → Prop} (hI : I s)
    (hok : b = false → Q (.ok ()) s) (herr : b = true → Q (.error e) s) :
    (throwIf b e : Prog C R ε Unit).Holds H Ok I Q s := by
  cases b with
  | true => exact ⟨hI, herr rfl⟩
  | false => exact ⟨hI, hok rfl⟩

theorem holds_throwIf_bind {b : Bool} {e : ε} {f : Unit → Prog C R ε β} {Q : Except ε β → σ → Prop}
    (hok : b = false → (f ()).Holds H Ok I Q s) (herr : b = true → I s ∧ Q (.error e) s) :
    (throwIf b e >>= f).Holds H Ok I Q s := by
  cases b with
  | true => exact herr rfl
  | false => exact hok rfl

theorem holds_orThrow_bind {o : Option α} {e : ε} {f : α → Prog C R ε β} {Q : Except ε β → σ → Prop}
    (hok : ∀ a, o = some a → (f a).Holds H Ok I Q s) (herr : o = none → I s ∧ Q (.error e) s) :
    (orThrow e o >>= f).Holds H Ok I Q s := by
  cases o with
  | none => exact herr rfl
  | some a => exact hok a rfl

/-- A weaker invariant holds as well. -/
theorem Holds.weaken {J : σ → Prop} {p : Prog C R ε α} {Q : Except ε α → σ → Prop}
    (hIJ : ∀ t, I t → J t) (h : p.Holds H Ok I Q s) : p.Holds H Ok J Q s := by
  induction p generalizing s with
  | ret r => exact ⟨hIJ s h.1, h.2⟩
  | call c next ih => exact ⟨hIJ s h.1, fun x hx => ih _ (h.2 x hx)⟩

/-- The end of a program whose steps are all allowed. -/
theorem Holds.playEach {p : Prog C R ε α} {Q : Except ε α → σ → Prop} {xs : ℕ → X}
    (hxs : ∀ n s c, Ok s (xs n) c) (h : p.Holds H Ok I Q s) :
    Q (p.playEach H xs s).1 (p.playEach H xs s).2 := by
  induction p generalizing s xs with
  | ret r => exact h.2
  | call c next ih => exact ih _ (fun n => hxs (n + 1)) (h.2 (xs 0) (hxs 0 s c))

theorem holds_ret {r : Except ε α} {Q : Except ε α → σ → Prop} (hI : I s) (hQ : Q r s) :
    (ret r : Prog C R ε α).Holds H Ok I Q s := ⟨hI, hQ⟩

end Prog

variable {σ X C ι : Type} {R : C → Type} {ε α : Type}

/-- One call after the other, each of which is stopped or ends. -/
def Stopped (H : SerialHandler σ X C R) (Ok : AllowedStep σ X C) (entry : ι → Prog C R ε α) :
    List ι → σ → σ → Prop
  | [], s, t => s = t
  | a :: rest, s, t => ∃ u, (entry a).StopsIn H Ok s u ∧ Stopped H Ok entry rest u t

def tryStopped (H : SerialHandler σ X C R) (Ok : AllowedStep σ X C)
    [∀ s x c, Decidable (Ok s x c)] (entry : ι → Prog C R ε α) :
    List (ι × ℕ × X) → σ → Option σ
  | [], s => some s
  | (a, n, x) :: rest, s =>
    ((entry a).tryStop H Ok x n s).bind (tryStopped H Ok entry rest)

variable {H : SerialHandler σ X C R} {Ok : AllowedStep σ X C} {entry : ι → Prog C R ε α} {s t : σ}

/-- What holds after every command of every call, the whole run keeps. -/
theorem stopped_keep {I : σ → Prop}
    (hcall : ∀ a s, I s → (entry a).Holds H Ok I (fun _ _ => True) s) {as : List ι}
    (hrun : Stopped H Ok entry as s t) (hs : I s) : I t := by
  induction as generalizing s with
  | nil => exact hrun ▸ hs
  | cons a as ih =>
    obtain ⟨u, hu, hrest⟩ := hrun
    exact ih hrest ((hcall a s hs).stopsIn hu)

/-- What a played run shows is shown by a run. -/
theorem exists_stopped_of_tryStopped [∀ s x c, Decidable (Ok s x c)] (ws : List (ι × ℕ × X))
    {β : Type} (f : σ → β) {v : β} (h : (tryStopped H Ok entry ws s).map f = some v) :
    ∃ as t, Stopped H Ok entry as s t ∧ f t = v := by
  obtain ⟨t, ht, hv⟩ := Option.map_eq_some_iff.mp h
  refine ⟨ws.map Prod.fst, t, ?_, hv⟩
  clear h hv
  induction ws generalizing s with
  | nil => exact Option.some.inj ht
  | cons w ws ih =>
    obtain ⟨u, hu, hrest⟩ := Option.bind_eq_some_iff.mp ht
    exact ⟨u, Prog.stopsIn_of_tryStop hu, ih hrest⟩

section Concurrent
variable {H : Handler σ X C R} {Ok : Allowed σ C} {Γ : Contract σ} {i : ℕ}

/-- A program that keeps the contract keeps it up to the command that fails, and `K` with it. -/
theorem wp_failAfter {P : C → Prop} {K : σ → Prop} (hK : Γ.Stable i K)
    (hstep : ∀ c, P c → ∀ t x r u, K t → H i t x c = some (r, u) → K u) {p : Prog C R ε α}
    (hp : p.Issues P) {Q : Except ε α → σ → Prop} {e : ε} {n : ℕ} (hs : K s)
    (h : wp H Ok Γ i p Q s) : wp H Ok Γ i (p.failAfter e n) (fun _ t => K t) s := by
  induction n generalizing p s with
  | zero =>
    cases p with
    | ret r => exact hs
    | call c next => exact hs
  | succ n ih =>
    cases p with
    | ret r => exact hs
    | call c next =>
      intro t hst ht hok x r u hu
      obtain ⟨hinv, hguar, hnext⟩ := h t hst ht hok x r u hu
      have hu' : K u := hstep c hp.1 t x r u (hK s t hst ht hs) hu
      exact ⟨hinv, hguar, ih (hp.2 r) hu' hnext⟩

end Concurrent

end Async
