import Tokenable.Async.Pool

/-!
# Rely-guarantee reasoning for pools of async functions

A contract fixes the invariant of the shared state, what a step of task `i` may do to it
(`guar i`) and what task `i` assumes of the steps of the others between two of its own commands
(`rely i`). `wp Γ i p Q s` says that task `i`, about to run `p` in a state that was `s` when it
last looked, keeps the contract at each of its commands and ends in `Q`.

`reach_safe` is the composition rule: if every function that can be started keeps the contract,
the invariant holds in every state of every run.
-/

namespace Async

structure Contract (σ : Type) where
  inv : σ → Prop
  guar : ℕ → σ → σ → Prop
  rely : ℕ → σ → σ → Prop
  rely_refl : ∀ i s, rely i s s
  rely_trans : ∀ i s t u, rely i s t → rely i t u → rely i s u
  rely_of_guar : ∀ i j s t, i ≠ j → guar j s t → rely i s t

/-- The contract of tasks that all keep an invariant and move along a preorder. -/
def Contract.ofPreorder {σ : Type} (inv : σ → Prop) (T : σ → σ → Prop) (hrefl : ∀ s, T s s)
    (htrans : ∀ s t u, T s t → T t u → T s u) : Contract σ where
  inv := inv
  guar _ := T
  rely _ := T
  rely_refl _ := hrefl
  rely_trans _ := htrans
  rely_of_guar _ _ _ _ _ h := h

variable {σ X C : Type} {R : C → Type} {ε ε' α β : Type}

/-- The assertions task `i` can keep while the others run. -/
def Contract.Stable (Γ : Contract σ) (i : ℕ) (P : σ → Prop) : Prop :=
  ∀ s t, Γ.rely i s t → Γ.inv t → P s → P t

section
variable (H : Handler σ X C R) (Ok : Allowed σ C) (Γ : Contract σ) (i : ℕ)

def wp : Prog C R ε α → (Except ε α → σ → Prop) → σ → Prop
  | .ret r, Q, s => Q r s
  | .call c next, Q, s =>
    ∀ t, Γ.rely i s t → Γ.inv t → Ok i t c →
      ∀ x r u, H i t x c = some (r, u) → Γ.inv u ∧ Γ.guar i t u ∧ wp (next r) Q u

def anyEnd : Except ε α → σ → Prop := fun _ _ => True

/-- `Q` of the result on success, and `E` on failure. -/
def okOr (E : σ → Prop) (Q : α → σ → Prop) : Except ε α → σ → Prop
  | .ok a => Q a
  | .error _ => E

end

variable {H : Handler σ X C R} {Ok : Allowed σ C} {Γ : Contract σ} {i : ℕ}

theorem wp_ret {r : Except ε α} {Q : Except ε α → σ → Prop} {s : σ} (h : Q r s) :
    wp H Ok Γ i (.ret r : Prog C R ε α) Q s := h

theorem wp_mono {p : Prog C R ε α} {Q Q' : Except ε α → σ → Prop}
    (h : ∀ r s, Q r s → Q' r s) {s : σ} (hp : wp H Ok Γ i p Q s) : wp H Ok Γ i p Q' s := by
  induction p generalizing s with
  | ret r => exact h r s hp
  | call c next ih =>
    intro t hst ht hok x r u hu
    obtain ⟨hinv, hguar, hnext⟩ := hp t hst ht hok x r u hu
    exact ⟨hinv, hguar, ih r hnext⟩

theorem wp_settle {p : Prog C R ε α} {k : Except ε α → Prog C R ε' β}
    {Q : Except ε' β → σ → Prop} {s : σ}
    (h : wp H Ok Γ i p (fun r t => wp H Ok Γ i (k r) Q t) s) :
    wp H Ok Γ i (p.settle k) Q s := by
  induction p generalizing s with
  | ret r => exact h
  | call c next ih =>
    intro t hst ht hok x r u hu
    obtain ⟨hinv, hguar, hnext⟩ := h t hst ht hok x r u hu
    exact ⟨hinv, hguar, ih r hnext⟩

/-- Sequencing: the continuation runs on success, and an error ends the function. -/
theorem wp_bind {p : Prog C R ε α} {f : α → Prog C R ε β} {Q : Except ε β → σ → Prop} {s : σ}
    (h : wp H Ok Γ i p (fun r t => match r with
      | .ok a => wp H Ok Γ i (f a) Q t
      | .error e => Q (.error e) t) s) :
    wp H Ok Γ i (p >>= f) Q s := by
  refine wp_settle (wp_mono (fun r t hr => ?_) h)
  cases r with
  | ok a => exact hr
  | error e => exact hr

theorem wp_bind_okOr {p : Prog C R ε α} {f : α → Prog C R ε β} {E : σ → Prop} {F : α → σ → Prop}
    {Q : β → σ → Prop} {s : σ} (hp : wp H Ok Γ i p (okOr E F) s)
    (hf : ∀ a t, F a t → wp H Ok Γ i (f a) (okOr E Q) t) :
    wp H Ok Γ i (p >>= f) (okOr E Q) s := by
  refine wp_bind (wp_mono (fun r t hr => ?_) hp)
  cases r with
  | ok a => exact hf a t hr
  | error e => exact hr

theorem wp_throwIf {b : Bool} {e : ε} {Q : Except ε Unit → σ → Prop} {s : σ}
    (herr : b = true → Q (.error e) s) (hok : b = false → Q (.ok ()) s) :
    wp H Ok Γ i (Prog.throwIf b e : Prog C R ε Unit) Q s := by
  cases b with
  | true => exact herr rfl
  | false => exact hok rfl

theorem wp_orThrow {o : Option α} {e : ε} {Q : Except ε α → σ → Prop} {s : σ}
    (herr : o = none → Q (.error e) s) (hok : ∀ a, o = some a → Q (.ok a) s) :
    wp H Ok Γ i (Prog.orThrow e o : Prog C R ε α) Q s := by
  cases o with
  | none => exact herr rfl
  | some a => exact hok a rfl

theorem wp_swallow {p : Prog C R ε α} {Q : Except ε' Unit → σ → Prop} {s : σ}
    (h : wp H Ok Γ i p (fun _ t => Q (.ok ()) t) s) :
    wp H Ok Γ i (Prog.swallow p : Prog C R ε' Unit) Q s :=
  wp_settle h

/-- The command rule: a stable assertion that holds now still holds when the command runs. -/
theorem wp_call {c : C} {next : R c → Prog C R ε α} {Q : Except ε α → σ → Prop} {s : σ}
    (P : σ → Prop) (hP : Γ.Stable i P) (hs : P s)
    (h : ∀ t, P t → Γ.inv t → Ok i t c → ∀ x r u, H i t x c = some (r, u) →
      Γ.inv u ∧ Γ.guar i t u ∧ wp H Ok Γ i (next r) Q u) :
    wp H Ok Γ i (.call c next) Q s :=
  fun t hst ht hok x r u hu => h t (hP s t hst ht hs) ht hok x r u hu

/-- A program whose commands all keep the invariant and an assertion `K` keeps them to its end. -/
theorem wp_of_issues {P : C → Prop} {K : σ → Prop} (hK : Γ.Stable i K)
    (hstep : ∀ c, P c → ∀ t x r u, Γ.inv t → K t → Ok i t c → H i t x c = some (r, u) →
      Γ.inv u ∧ Γ.guar i t u ∧ K u)
    {p : Prog C R ε α} (hp : p.Issues P) {s : σ} (hs : K s) :
    wp H Ok Γ i p (fun _ t => K t) s := by
  induction p generalizing s with
  | ret r => exact hs
  | call c next ih =>
    intro t hst ht hok x r u hu
    obtain ⟨hinv, hguar, hu'⟩ := hstep c hp.1 t x r u ht (hK s t hst ht hs) hok hu
    exact ⟨hinv, hguar, ih r (hp.2 r) hu'⟩

/-- What each task ends with, when the steps of the others cannot undo it. -/
def Contract.StablePost (Γ : Contract σ) (Q : ℕ → Except ε α → σ → Prop) : Prop :=
  ∀ i r s t, Γ.rely i s t → Q i r s → Q i r t

theorem stablePost_anyEnd : Γ.StablePost (fun _ => (anyEnd : Except ε α → σ → Prop)) :=
  fun _ _ _ _ _ _ => trivial

/-- A pending function is not disturbed by the steps the others are allowed to take. -/
theorem wp_rely {Q : ℕ → Except ε α → σ → Prop} (hQ : Γ.StablePost Q) {p : Prog C R ε α}
    {s t : σ} (hst : Γ.rely i s t) (hp : wp H Ok Γ i p (Q i) s) : wp H Ok Γ i p (Q i) t := by
  cases p with
  | ret r => exact hQ i r s t hst hp
  | call c next =>
    intro t' htt' ht' hok x r u hu
    exact hp t' (Γ.rely_trans i s t t' hst htt') ht' hok x r u hu

/-- Whatever the environment does, a program ends with an outcome that it can yield. -/
theorem wp_yields {p : Prog C R ε α} {Q : Except ε α → σ → Prop} {s : σ}
    (h : wp H Ok Γ i p Q s) :
    wp H Ok Γ i p (fun r t => Q r t ∧ p.Yields (fun _ _ => True) r) s := by
  induction p generalizing s with
  | ret r => exact ⟨h, rfl⟩
  | call c next ih =>
    intro t hst ht hok x r u hu
    obtain ⟨hinv, hguar, hnext⟩ := h t hst ht hok x r u hu
    refine ⟨hinv, hguar, wp_mono (fun o v ho => ⟨ho.1, ?_⟩) (ih r hnext)⟩
    exact ⟨r, trivial, ho.2⟩

namespace Pool

/-- The invariant of a pool: every task still keeps the contract. -/
structure Safe (H : Handler σ X C R) (Ok : Allowed σ C) (Γ : Contract σ)
    (Q : ℕ → Except ε α → σ → Prop) (p : Pool σ C R ε α) : Prop where
  inv : Γ.inv p.shared
  task : ∀ i t, p.tasks[i]? = some t → wp H Ok Γ i t (Q i) p.shared

variable {Q : ℕ → Except ε α → σ → Prop}

theorem safe_nil {s : σ} (hs : Γ.inv s) : Safe H Ok Γ Q (⟨s, []⟩ : Pool σ C R ε α) :=
  ⟨hs, fun i t ht => by simp at ht⟩

/-- A call that has settled ends as its postcondition says. -/
theorem Safe.ended {p : Pool σ C R ε α} (hp : Safe H Ok Γ Q p) {i : ℕ} {r : Except ε α}
    (hi : p.tasks[i]? = some (.ret r)) : Q i r p.shared := hp.task i _ hi

variable {ι : Type} {entry : ι → Prog C R ε α}

/-- A step keeps the pool safe, and `F i` of every task that is not started yet. -/
theorem safe_step_of_fresh {F : ℕ → σ → Prop} (hQ : Γ.StablePost Q)
    (hF : ∀ i s t, Γ.rely i s t → F i s → F i t)
    (hE : ∀ a i s, Γ.inv s → F i s → wp H Ok Γ i (entry a) (Q i) s) {p q : Pool σ C R ε α}
    (hstep : Step H entry Ok p q) (hp : Safe H Ok Γ Q p)
    (hfresh : ∀ i, p.tasks.length ≤ i → F i p.shared) :
    Safe H Ok Γ Q q ∧ (∀ i, q.tasks.length ≤ i → F i q.shared) ∧
      (q.shared = p.shared ∨ ∃ i, Γ.guar i p.shared q.shared) := by
  cases hstep with
  | spawn s ts a =>
    refine ⟨⟨hp.inv, fun j t' hj => ?_⟩, fun j hj => hfresh j ?_, .inl rfl⟩
    · by_cases hlt : j < ts.length
      · rw [List.getElem?_append_left hlt] at hj
        exact hp.task j t' hj
      · rw [List.getElem?_append_right (Nat.le_of_not_lt hlt)] at hj
        obtain rfl := List.mem_singleton.mp (List.mem_of_getElem? hj)
        exact hE a j s hp.inv (hfresh j (Nat.le_of_not_lt hlt))
    · rw [List.length_append] at hj
      exact Nat.le_of_add_right_le hj
  | run s u ts i x c r next hi hok hu =>
    have hcall := hp.task i _ hi s (Γ.rely_refl i s) hp.inv hok x r u hu
    obtain ⟨hinv, hguar, hnext⟩ := hcall
    have hlt : i < ts.length := (List.getElem?_eq_some_iff.mp hi).1
    refine ⟨⟨hinv, fun j t' hj => ?_⟩, fun j hj => ?_, .inr ⟨i, hguar⟩⟩
    · by_cases hji : j = i
      · subst hji
        rw [List.getElem?_set_self hlt] at hj
        exact Option.some.inj hj ▸ hnext
      · rw [List.getElem?_set_ne (Ne.symm hji)] at hj
        exact wp_rely hQ (Γ.rely_of_guar j i s u hji hguar) (hp.task j t' hj)
    · rw [List.length_set] at hj
      have hji : j ≠ i := by omega
      exact hF j s u (Γ.rely_of_guar j i s u hji hguar) (hfresh j hj)

theorem safe_reach_of_fresh {F : ℕ → σ → Prop} (hQ : Γ.StablePost Q)
    (hF : ∀ i s t, Γ.rely i s t → F i s → F i t)
    (hE : ∀ a i s, Γ.inv s → F i s → wp H Ok Γ i (entry a) (Q i) s) {p q : Pool σ C R ε α}
    (hreach : Reach H entry Ok p q) (hp : Safe H Ok Γ Q p)
    (hfresh : ∀ i, p.tasks.length ≤ i → F i p.shared) :
    Safe H Ok Γ Q q ∧ ∀ i, q.tasks.length ≤ i → F i q.shared := by
  induction hreach with
  | refl => exact ⟨hp, hfresh⟩
  | tail _ hstep ih =>
    obtain ⟨hsafe, hnew, -⟩ := safe_step_of_fresh hQ hF hE hstep ih.1 ih.2
    exact ⟨hsafe, hnew⟩

theorem safe_step (hQ : Γ.StablePost Q) (hE : ∀ a i s, Γ.inv s → wp H Ok Γ i (entry a) (Q i) s)
    {p q : Pool σ C R ε α} (hstep : Step H entry Ok p q) (hp : Safe H Ok Γ Q p) :
    Safe H Ok Γ Q q ∧ (q.shared = p.shared ∨ ∃ i, Γ.guar i p.shared q.shared) := by
  obtain ⟨hsafe, -, hmove⟩ := safe_step_of_fresh (F := fun _ _ => True) hQ (fun _ _ _ _ h => h)
    (fun a i s hs _ => hE a i s hs) hstep hp fun _ _ => trivial
  exact ⟨hsafe, hmove⟩

theorem safe_reach (hQ : Γ.StablePost Q) (hE : ∀ a i s, Γ.inv s → wp H Ok Γ i (entry a) (Q i) s)
    {p q : Pool σ C R ε α} (hreach : Reach H entry Ok p q) (hp : Safe H Ok Γ Q p) :
    Safe H Ok Γ Q q :=
  (safe_reach_of_fresh (F := fun _ _ => True) hQ (fun _ _ _ _ h => h)
    (fun a i s hs _ => hE a i s hs) hreach hp fun _ _ => trivial).1

/-- Every state of a run satisfies the invariant. -/
theorem inv_of_reach (hE : ∀ a i s, Γ.inv s → wp H Ok Γ i (entry a) anyEnd s)
    {s : σ} {q : Pool σ C R ε α} (hs : Γ.inv s) (hreach : Reach H entry Ok ⟨s, []⟩ q) :
    Γ.inv q.shared :=
  (safe_reach stablePost_anyEnd hE hreach (safe_nil hs)).inv

/-- A preorder that contains every guaranteed step relates the ends of every run. -/
theorem evolves_of_reach (hQ : Γ.StablePost Q)
    (hE : ∀ a i s, Γ.inv s → wp H Ok Γ i (entry a) (Q i) s)
    {T : σ → σ → Prop} (hrefl : ∀ s, T s s) (htrans : ∀ s t u, T s t → T t u → T s u)
    (hT : ∀ i s t, Γ.guar i s t → T s t) {p q : Pool σ C R ε α} (hp : Safe H Ok Γ Q p)
    (hreach : Reach H entry Ok p q) : T p.shared q.shared := by
  induction hreach with
  | refl => exact hrefl _
  | tail hpre hstep ih =>
    rcases (safe_step hQ hE hstep (safe_reach hQ hE hpre hp)).2 with heq | ⟨i, hguar⟩
    · exact heq ▸ ih
    · exact htrans _ _ _ ih (hT i _ _ hguar)

end Pool
end Async
