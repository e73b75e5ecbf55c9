import Tokenable.Async.Prog

/-!
# Functions that run one after the other

`Runs p s o t` says that `p`, started in `s` while no other function runs, can settle with `o` in
`t`. The world outside answers each command through an `x : X`, and `Ok` restricts these steps by
the state before the step. `Calls` is a run of complete calls, each with the outcome it had.
-/

namespace Async

/-- The effect of a command when one function runs at a time: nothing can block it. -/
abbrev SerialHandler (σ X C : Type) (R : C → Type) := σ → X → (c : C) → R c × σ

/-- A condition on a step: the state before it, what the world answers and the command. -/
abbrev AllowedStep (σ X C : Type) := σ → X → C → Prop

def anyAnswer {σ X C : Type} : AllowedStep σ X C := fun _ _ _ => True

instance {σ X C : Type} (s : σ) (x : X) (c : C) : Decidable (anyAnswer s x c) := .isTrue trivial

namespace Prog
variable {σ X C : Type} {R : C → Type} {ε ε' α β : Type}

def Runs (H : SerialHandler σ X C R) (Ok : AllowedStep σ X C) :
    Prog C R ε α → σ → Except ε α → σ → Prop
  | ret r, s, o, t => r = o ∧ s = t
  | call c next, s, o, t => ∃ x, Ok s x c ∧ Runs H Ok (next (H s x c).1) (H s x c).2 o t

/-- Play to the end with the same answers at every command; `none` when a step is not allowed. -/
def tryPlay (H : SerialHandler σ X C R) (Ok : AllowedStep σ X C)
    [∀ s x c, Decidable (Ok s x c)] (x : X) : Prog C R ε α → σ → Option (Except ε α × σ)
  | ret r, s => some (r, s)
  | call c next, s =>
    if Ok s x c then tryPlay H Ok x (next (H s x c).1) (H s x c).2 else none

/-- Play to the end; the `n`-th command is answered through `xs n`. -/
def playEach (H : SerialHandler σ X C R) : Prog C R ε α → (ℕ → X) → σ → Except ε α × σ
  | ret r, _, s => (r, s)
  | call c next, xs, s =>
    playEach H (next (H s (xs 0) c).1) (fun n => xs (n + 1)) (H s (xs 0) c).2

variable {H : SerialHandler σ X C R} {Ok : AllowedStep σ X C} {s t u : σ}

@[simp] theorem runs_ret {r o : Except ε α} :
    (ret r : Prog C R ε α).Runs H Ok s o t ↔ r = o ∧ s = t := Iff.rfl

@[simp] theorem runs_pure {a : α} {o : Except ε α} :
    (pure a : Prog C R ε α).Runs H Ok s o t ↔ .ok a = o ∧ s = t := Iff.rfl

@[simp] theorem runs_call {c : C} {next : R c → Prog C R ε α} {o : Except ε α} :
    (call c next).Runs H Ok s o t ↔
      ∃ x, Ok s x c ∧ (next (H s x c).1).Runs H Ok (H s x c).2 o t := Iff.rfl

theorem runs_call_bind {c : C} {f : R c → Prog C R ε β} {o : Except ε β} :
    ((call c fun r => ret (.ok r)) >>= f).Runs H Ok s o t ↔
      ∃ x, Ok s x c ∧ (f (H s x c).1).Runs H Ok (H s x c).2 o t := Iff.rfl

theorem runs_settle {p : Prog C R ε α} {k : Except ε α → Prog C R ε' β} {o : Except ε' β} :
    (p.settle k).Runs H Ok s o t ↔ ∃ r u, p.Runs H Ok s r u ∧ (k r).Runs H Ok u o t := by
  induction p generalizing s with
  | ret r => simp
  | call c next ih =>
    simp only [settle_call, runs_call, ih]
    constructor
    · rintro ⟨x, hx, r, u, hr, ho⟩
      exact ⟨r, u, ⟨x, hx, hr⟩, ho⟩
    · rintro ⟨r, u, ⟨x, hx, hr⟩, ho⟩
      exact ⟨x, hx, r, u, hr, ho⟩

/-- A sequence ends in its second part, or with the error of the first. -/
theorem runs_bind {p : Prog C R ε α} {f : α → Prog C R ε β} {o : Except ε β} :
    (p >>= f).Runs H Ok s o t ↔
      (∃ a u, p.Runs H Ok s (.ok a) u ∧ (f a).Runs H Ok u o t) ∨
        ∃ e, p.Runs H Ok s (.error e) t ∧ o = .error e := by
  rw [bind_eq_settle, runs_settle]
  constructor
  · rintro ⟨r, u, hr, ho⟩
    cases r with
    | ok a => exact .inl ⟨a, u, hr, ho⟩
    | error e =>
      obtain ⟨rfl, rfl⟩ := ho
      exact .inr ⟨e, hr, rfl⟩
  · rintro (⟨a, u, hr, ho⟩ | ⟨e, hr, rfl⟩)
    · exact ⟨.ok a, u, hr, ho⟩
    · exact ⟨.error e, t, hr, rfl, rfl⟩

theorem runs_discard {p : Prog C R ε α} {o : Except ε Unit} :
    p.discard.Runs H Ok s o t ↔ ∃ r, p.Runs H Ok s r t ∧ r.map (fun _ => ()) = o := by
  rw [discard, runs_settle]
  constructor
  · rintro ⟨r, u, hr, ho⟩
    cases r with
    | ok a =>
      obtain ⟨rfl, rfl⟩ := ho
      exact ⟨.ok a, hr, rfl⟩
    | error e =>
      obtain ⟨rfl, rfl⟩ := ho
      exact ⟨.error e, hr, rfl⟩
  · rintro ⟨r, hr, rfl⟩
    cases r with
    | ok a => exact ⟨.ok a, t, hr, rfl, rfl⟩
    | error e => exact ⟨.error e, t, hr, rfl, rfl⟩

@[simp] theorem runs_throwIf {b : Bool} {e : ε} {o : Except ε Unit} :
    (throwIf b e : Prog C R ε Unit).Runs H Ok s o t ↔
      (if b then .error e else .ok ()) = o ∧ s = t := by
  cases b <;> simp [throwIf]

@[simp] theorem runs_orThrow {x : Option α} {e : ε} {o : Except ε α} :
    (orThrow e x : Prog C R ε α).Runs H Ok s o t ↔ x.elim (.error e) .ok = o ∧ s = t := by
  cases x <;> simp

/-- A run stays one when more steps are allowed. -/
theorem Runs.mono {Ok' : AllowedStep σ X C} (hok : ∀ s x c, Ok s x c → Ok' s x c)
    {p : Prog C R ε α} {o : Except ε α} (h : p.Runs H Ok s o t) : p.Runs H Ok' s o t := by
  induction p generalizing s with
  | ret r => exact h
  | call c next ih =>
    obtain ⟨x, hx, h⟩ := h
    exact ⟨x, hok s x c hx, ih _ h⟩

/-- A program ends as it can settle. -/
theorem yields_of_runs {p : Prog C R ε α} {o : Except ε α} (h : p.Runs H Ok s o t) :
    p.Yields (fun _ _ => True) o := by
  induction p generalizing s with
  | ret r => exact h.1
  | call c next ih =>
    obtain ⟨x, -, hnext⟩ := h
    exact ⟨_, trivial, ih _ hnext⟩

/-- What each allowed command of the program keeps, the program keeps, when its commands are judged
on answers from states that have it. -/
theorem runs_keeps_given {Ans : (c : C) → R c → Prop} {P : C → Prop} {K : σ → Prop}
    (hstep : ∀ c, P c → ∀ s x, Ok s x c → K s → Ans c (H s x c).1 ∧ K (H s x c).2)
    {p : Prog C R ε α} (hp : p.IssuesGiven Ans P) {o : Except ε α} (hrun : p.Runs H Ok s o t)
    (hs : K s) : K t := by
  induction p generalizing s with
  | ret r => exact hrun.2 ▸ hs
  | call c next ih =>
    obtain ⟨x, hx, hnext⟩ := hrun
    obtain ⟨hanswer, hkept⟩ := hstep c hp.1 s x hx hs
    exact ih _ (hp.2 _ hanswer) hnext hkept

theorem runs_keeps {P : C → Prop} {K : σ → Prop}
    (hstep : ∀ c, P c → ∀ s x, Ok s x c → K s → K (H s x c).2) {p : Prog C R ε α}
    (hp : p.Issues P) {o : Except ε α} (hrun : p.Runs H Ok s o t) (hs : K s) : K t :=
  runs_keeps_given (fun c hc u x hok hu => ⟨trivial, hstep c hc u x hok hu⟩)
    (hp.given : p.IssuesGiven (fun _ _ => True) P) hrun hs

/-- What two consecutive steps relate, the ends of the program are related by. -/
theorem runs_relates {P : C → Prop} {T : σ → σ → Prop} (hrefl : ∀ s, T s s)
    (htrans : ∀ s t u, T s t → T t u → T s u)
    (hstep : ∀ c, P c → ∀ s x, Ok s x c → T s (H s x c).2) {p : Prog C R ε α}
    (hp : p.Issues P) {o : Except ε α} (hrun : p.Runs H Ok s o t) : T s t := by
  refine runs_keeps (K := T s) (fun c hc u x hx hsu => ?_) hp hrun (hrefl s)
  exact htrans s u _ hsu (hstep c hc u x hx)

theorem runs_of_tryPlay [∀ s x c, Decidable (Ok s x c)] {x : X} {p : Prog C R ε α}
    {r : Except ε α × σ} (h : p.tryPlay H Ok x s = some r) : p.Runs H Ok s r.1 r.2 := by
  induction p generalizing s with
  | ret r' =>
    obtain rfl := Option.some.inj h
    exact ⟨rfl, rfl⟩
  | call c next ih =>
    simp only [tryPlay] at h
    split_ifs at h with hok
    exact ⟨x, hok, ih _ h⟩

/-- What a played program shows is shown by a run. -/
theorem exists_runs_of_tryPlay [∀ s x c, Decidable (Ok s x c)] {x : X} {p : Prog C R ε α} {β : Type}
    (f : Except ε α → σ → β) {v : β} (h : (p.tryPlay H Ok x s).map (fun r => f r.1 r.2) = some v) :
    ∃ o t, p.Runs H Ok s o t ∧ f o t = v := by
  obtain ⟨r, hr, hv⟩ := Option.map_eq_some_iff.mp h
  exact ⟨r.1, r.2, runs_of_tryPlay hr, hv⟩

theorem runs_playEach (p : Prog C R ε α) (xs : ℕ → X) (s : σ) :
    p.Runs H anyAnswer s (p.playEach H xs s).1 (p.playEach H xs s).2 := by
  induction p generalizing xs s with
  | ret r => exact ⟨rfl, rfl⟩
  | call c next ih => exact ⟨xs 0, trivial, ih _ _ _⟩

end Prog

variable {σ X C ι : Type} {R : C → Type} {ε α : Type}

/-- One complete call after the other, each with its outcome. -/
def Calls (H : SerialHandler σ X C R) (Ok : AllowedStep σ X C) (entry : ι → Prog C R ε α) :
    List (ι × Except ε α) → σ → σ → Prop
  | [], s, t => s = t
  | (a, o) :: rest, s, t => ∃ u, (entry a).Runs H Ok s o u ∧ Calls H Ok entry rest u t

def tryCalls (H : SerialHandler σ X C R) (Ok : AllowedStep σ X C)
    [∀ s x c, Decidable (Ok s x c)] (entry : ι → Prog C R ε α) :
    List (ι × X) → σ → Option (List (ι × Except ε α) × σ)
  | [], s => some ([], s)
  | (a, x) :: rest, s =>
    ((entry a).tryPlay H Ok x s).bind fun r =>
      (tryCalls H Ok entry rest r.2).map fun q => ((a, r.1) :: q.1, q.2)

variable {H : SerialHandler σ X C R} {Ok : AllowedStep σ X C} {entry : ι → Prog C R ε α}
  {cs ds : List (ι × Except ε α)} {s t : σ}

/-- What every call of the run keeps, the run keeps. -/
theorem calls_keep {K : σ → Prop}
    (hcall : ∀ c ∈ cs, ∀ u v, (entry c.1).Runs H Ok u c.2 v → K u → K v)
    (hrun : Calls H Ok entry cs s t) (hs : K s) : K t := by
  induction cs generalizing s with
  | nil => exact hrun ▸ hs
  | cons c cs ih =>
    obtain ⟨u, hu, hrest⟩ := hrun
    have hKu : K u := hcall c List.mem_cons_self s u hu hs
    exact ih (fun d hd => hcall d (List.mem_cons_of_mem _ hd)) hrest hKu

theorem calls_of_tryCalls [∀ s x c, Decidable (Ok s x c)] {ws : List (ι × X)}
    {r : List (ι × Except ε α) × σ} (h : tryCalls H Ok entry ws s = some r) :
    Calls H Ok entry r.1 s r.2 := by
  induction ws generalizing s r with
  | nil =>
    obtain rfl := Option.some.inj h
    exact rfl
  | cons w ws ih =>
    obtain ⟨q, hq, hrest⟩ := Option.bind_eq_some_iff.mp h
    obtain ⟨r', hr', rfl⟩ := Option.map_eq_some_iff.mp hrest
    exact ⟨q.2, Prog.runs_of_tryPlay hq, ih hr'⟩

/-- What a played run shows is shown by a run. -/
theorem exists_calls_of_played [∀ s x c, Decidable (Ok s x c)] (ws : List (ι × X)) {β : Type}
    (f : List (ι × Except ε α) → σ → β) {v : β}
    (h : (tryCalls H Ok entry ws s).map (fun r => f r.1 r.2) = some v) :
    ∃ cs t, Calls H Ok entry cs s t ∧ f cs t = v := by
  obtain ⟨r, hr, hv⟩ := Option.map_eq_some_iff.mp h
  exact ⟨r.1, r.2, calls_of_tryCalls hr, hv⟩

/-- The same of its end alone. -/
theorem exists_calls_of_tryCalls [∀ s x c, Decidable (Ok s x c)] (ws : List (ι × X)) {β : Type}
    (f : σ → β) {v : β} (h : (tryCalls H Ok entry ws s).map (fun r => f r.2) = some v) :
    ∃ cs t, Calls H Ok entry cs s t ∧ f t = v := exists_calls_of_played ws (fun _ t => f t) h

def recorded (H : SerialHandler σ X C R) : SerialHandler (σ × List σ) X C R := fun p x c =>
  ((H p.1 x c).1, (H p.1 x c).2, p.2 ++ [(H p.1 x c).2])

abbrev AllowedStep.recorded (Ok : AllowedStep σ X C) : AllowedStep (σ × List σ) X C :=
  fun p x c => Ok p.1 x c

theorem Prog.runs_recorded {p : Prog C R ε α} {q r : σ × List σ} {o : Except ε α}
    (h : p.Runs (recorded H) (AllowedStep.recorded Ok) q o r) : p.Runs H Ok q.1 o r.1 := by
  induction p generalizing q with
  | ret _ => exact ⟨h.1, congrArg Prod.fst h.2⟩
  | call c next ih =>
    obtain ⟨x, hx, hnext⟩ := h
    exact ⟨x, hx, ih _ hnext⟩

theorem calls_recorded {q r : σ × List σ}
    (h : Calls (recorded H) (AllowedStep.recorded Ok) entry cs q r) : Calls H Ok entry cs q.1 r.1 := by
  induction cs generalizing q with
  | nil => exact congrArg Prod.fst h
  | cons c cs ih =>
    obtain ⟨u, hu, hrest⟩ := h
    exact ⟨u.1, Prog.runs_recorded hu, ih hrest⟩

/-- What every allowed command keeps, every state of the run has. -/
theorem calls_recorded_keep {Ans : (c : C) → R c → Prop} {P : C → Prop} {K : σ → Prop}
    (hstep : ∀ c, P c → ∀ s x, Ok s x c → K s → Ans c (H s x c).1 ∧ K (H s x c).2)
    {q r : σ × List σ} (hcs : ∀ c ∈ cs, (entry c.1).IssuesGiven Ans P)
    (h : Calls (recorded H) (AllowedStep.recorded Ok) entry cs q r) (hq : K q.1)
    (hseen : ∀ u ∈ q.2, K u) : ∀ u ∈ r.2, K u := by
  have hboth : K r.1 ∧ ∀ u ∈ r.2, K u := by
    refine calls_keep (K := fun q => K q.1 ∧ ∀ u ∈ q.2, K u) (fun c hc u v huv hu => ?_) h ⟨hq, hseen⟩
    refine Prog.runs_keeps_given (K := fun q => K q.1 ∧ ∀ u ∈ q.2, K u)
      (fun d hd w x hok hw => ?_) (hcs c hc) huv hu
    obtain ⟨hanswer, hkept⟩ := hstep d hd w.1 x hok hw.1
    refine ⟨hanswer, hkept, fun z hz => ?_⟩
    rcases List.mem_append.mp hz with hold | hnew
    · exact hw.2 z hold
    · exact List.mem_singleton.mp hnew ▸ hkept
  exact hboth.2

end Async
