import Tokenable.Async.Pool

/-!
# Obligations of async functions

A command can open an obligation `k`. It falls due at the next command of its task that seals it,
and is void after one that drops it; from then on the task owes `k`: as long as the answers are
what `answers k` says, it issues a command that discharges `k` before it settles.

`Pool.owed_of_reach`: if every function that can be started honours what it opens, each obligation
that is due in a state of a run is owed by one of the tasks. When all tasks have settled, none is.
-/

namespace Async

structure Duties (K C : Type) (R : C → Type) where
  opens : C → K → Prop
  seals : C → Prop
  drops : C → Prop
  discharges : K → C → Prop
  answers : K → (c : C) → R c → Prop

namespace Duties

variable {K C : Type} {R : C → Type} {ε ε' α β : Type} (Δ : Duties K C R)

def Owes (k : K) : Prog C R ε α → Prop
  | .ret _ => False
  | .call c next => Δ.discharges k c ∨ ∀ r, Δ.answers k c r → Owes k (next r)

/-- If the obligation falls due, the rest of the program owes it. -/
def OwesOnceSealed (k : K) : Prog C R ε α → Prop
  | .ret _ => True
  | .call c next => ∀ r, (Δ.seals c → Δ.Owes k (next r)) ∧
      (¬ Δ.seals c → ¬ Δ.drops c → OwesOnceSealed k (next r))

/-- What the program opens it owes once it is sealed. -/
def Honours : Prog C R ε α → Prop
  | .ret _ => True
  | .call c next => ∀ r, (∀ k, Δ.opens c k → Δ.OwesOnceSealed k (next r)) ∧ Honours (next r)

/-- The command neither ends an obligation nor opens one outside `M`. -/
structure Opens (M : K → Prop) (c : C) : Prop where
  seals : ¬ Δ.seals c
  drops : ¬ Δ.drops c
  opens : ∀ k, Δ.opens c k → M k

variable {Δ} {k : K} {M : K → Prop}

theorem owes_settle_left {p : Prog C R ε α} {f : Except ε α → Prog C R ε' β} (hp : Δ.Owes k p) :
    Δ.Owes k (p.settle f) := by
  induction p with
  | ret r => exact hp.elim
  | call c next ih => exact hp.imp_right fun h r hr => ih r (h r hr)

theorem owesOnceSealed_settle {p : Prog C R ε α} {f : Except ε α → Prog C R ε' β}
    (hp : p.Issues (Δ.Opens M)) (hf : ∀ r, p.Yields (fun _ _ => True) r → Δ.OwesOnceSealed k (f r)) :
    Δ.OwesOnceSealed k (p.settle f) := by
  induction p with
  | ret r => exact hf r rfl
  | call c next ih =>
    intro r
    refine ⟨fun hc => absurd hc hp.1.seals, fun _ _ => ?_⟩
    exact ih r (hp.2 r) fun o ho => hf o ⟨r, trivial, ho⟩

/-- A part that opens obligations in `M` is honoured by a rest that owes those once sealed. -/
theorem honours_settle {p : Prog C R ε α} {f : Except ε α → Prog C R ε' β}
    (hp : p.Issues (Δ.Opens M)) (hf : ∀ r, p.Yields (fun _ _ => True) r → Δ.Honours (f r))
    (hM : ∀ k, M k → ∀ r, p.Yields (fun _ _ => True) r → Δ.OwesOnceSealed k (f r)) :
    Δ.Honours (p.settle f) := by
  induction p with
  | ret r => exact hf r rfl
  | call c next ih =>
    intro r
    constructor
    · intro k hk
      exact owesOnceSealed_settle (hp.2 r) fun o ho => hM k (hp.1.opens k hk) o ⟨r, trivial, ho⟩
    · exact ih r (hp.2 r) (fun o ho => hf o ⟨r, trivial, ho⟩)
        fun k hk o ho => hM k hk o ⟨r, trivial, ho⟩

/-- A program that opens nothing has nothing to honour. -/
theorem honours_of_issues {p : Prog C R ε α} (hp : p.Issues fun c => ∀ k, ¬ Δ.opens c k) :
    Δ.Honours p := by
  induction p with
  | ret r => trivial
  | call c next ih => exact fun r => ⟨fun k hk => absurd hk (hp.1 k), ih r (hp.2 r)⟩

theorem honours_settle_of_issues {p : Prog C R ε α} {f : Except ε α → Prog C R ε' β}
    (hp : p.Issues fun c => ∀ k, ¬ Δ.opens c k)
    (hf : ∀ r, p.Yields (fun _ _ => True) r → Δ.Honours (f r)) : Δ.Honours (p.settle f) := by
  induction p with
  | ret r => exact hf r rfl
  | call c next ih =>
    intro r
    refine ⟨fun k hk => absurd hk (hp.1 k), ih r (hp.2 r) fun o ho => hf o ⟨r, trivial, ho⟩⟩

/-- What is done with the outcome without a command makes no difference. -/
theorem honours_settle_of_ret {p : Prog C R ε α} {f : Except ε α → Prog C R ε' β}
    (hp : Δ.Honours p) (hf : ∀ r, ∃ o, f r = .ret o) : Δ.Honours (p.settle f) := by
  have hsealed : ∀ {p : Prog C R ε α} {k : K}, Δ.OwesOnceSealed k p →
      Δ.OwesOnceSealed k (p.settle f) := by
    intro p k hp
    induction p with
    | ret r =>
      obtain ⟨o, ho⟩ := hf r
      rw [Prog.settle_ret, ho]
      trivial
    | call c next ih =>
      exact fun r => ⟨fun hc => owes_settle_left ((hp r).1 hc),
        fun hseals hdrops => ih r ((hp r).2 hseals hdrops)⟩
  induction p with
  | ret r =>
    obtain ⟨o, ho⟩ := hf r
    rw [Prog.settle_ret, ho]
    trivial
  | call c next ih => exact fun r => ⟨fun k hk => hsealed ((hp r).1 k hk), ih r (hp r).2⟩

theorem honours_bind {p : Prog C R ε α} {f : α → Prog C R ε β}
    (hp : p.Issues fun c => ∀ k, ¬ Δ.opens c k)
    (hf : ∀ a, p.Yields (fun _ _ => True) (.ok a) → Δ.Honours (f a)) : Δ.Honours (p >>= f) := by
  refine honours_settle_of_issues hp fun r hr => ?_
  cases r with
  | ok a => exact hf a hr
  | error e => trivial

theorem honours_bind_bind {p : Prog C R ε α} {f : α → Prog C R ε β} {γ : Type}
    {g : β → Prog C R ε γ} (hp : p.Issues fun c => ∀ k, ¬ Δ.opens c k)
    (hf : ∀ a, p.Yields (fun _ _ => True) (.ok a) → Δ.Honours (f a >>= g)) :
    Δ.Honours (p >>= f >>= g) := by
  rw [Prog.bind_eq_settle (p >>= f), Prog.bind_eq_settle p, Prog.settle_settle]
  refine honours_settle_of_issues hp fun r hr => ?_
  cases r with
  | ok a => exact hf a hr
  | error e => trivial

end Duties

namespace Pool

variable {σ X C ι K : Type} {R : C → Type} {ε α : Type} {Δ : Duties K C R}

/-- The open obligations of each task, and those that are due. -/
structure Owed (Δ : Duties K C R) (isOpen : σ → ℕ → K → Prop) (isDue : σ → K → Prop)
    (p : Pool σ C R ε α) : Prop where
  honours : ∀ t ∈ p.tasks, Δ.Honours t
  opened : ∀ (i : ℕ) (t : Prog C R ε α), p.tasks[i]? = some t →
    ∀ k, isOpen p.shared i k → Δ.OwesOnceSealed k t
  fresh : ∀ i, p.tasks.length ≤ i → ∀ k, ¬ isOpen p.shared i k
  due : ∀ k, isDue p.shared k → ∃ (i : ℕ) (t : Prog C R ε α), p.tasks[i]? = some t ∧ Δ.Owes k t

/-- When every task has settled, nothing is due. -/
theorem Owed.settled {isOpen : σ → ℕ → K → Prop} {isDue : σ → K → Prop} {p : Pool σ C R ε α}
    (hp : Owed Δ isOpen isDue p) (hend : ∀ t ∈ p.tasks, ∃ r, t = .ret r) (k : K) :
    ¬ isDue p.shared k := by
  intro hk
  obtain ⟨i, t, ht, howes⟩ := hp.due k hk
  obtain ⟨r, rfl⟩ := hend t (List.mem_of_getElem? ht)
  exact howes

/-- What a step of task `i` may do to the obligations. -/
structure Accounts (Δ : Duties K C R) (isOpen : σ → ℕ → K → Prop) (isDue : σ → K → Prop) (i : ℕ)
    (s : σ) (c : C) (r : R c) (u : σ) : Prop where
  other : ∀ j ≠ i, ∀ k, isOpen u j k → isOpen s j k
  own : ∀ k, isOpen u i k → Δ.opens c k ∨ (isOpen s i k ∧ ¬ Δ.seals c ∧ ¬ Δ.drops c)
  due : ∀ k, isDue u k →
    (isDue s k ∧ ¬ Δ.discharges k c ∧ Δ.answers k c r) ∨ (isOpen s i k ∧ Δ.seals c)

variable {H : Handler σ X C R} {entry : ι → Prog C R ε α} {Ok : Allowed σ C} {I : σ → Prop}
  {P : C → Prop} {isOpen : σ → ℕ → K → Prop} {isDue : σ → K → Prop}

theorem owed_step
    (hstep : ∀ i s x c r u, P c → I s → Ok i s c → H i s x c = some (r, u) →
      I u ∧ Accounts Δ isOpen isDue i s c r u)
    (hentry : ∀ a, (entry a).Issues P ∧ Δ.Honours (entry a)) {p q : Pool σ C R ε α}
    (hpq : Step H entry Ok p q) (hI : I p.shared) (hP : ∀ t ∈ p.tasks, t.Issues P)
    (hp : Owed Δ isOpen isDue p) :
    I q.shared ∧ (∀ t ∈ q.tasks, t.Issues P) ∧ Owed Δ isOpen isDue q := by
  cases hpq with
  | spawn s ts a =>
    have hmem : ∀ {Q : Prog C R ε α → Prop}, (∀ t ∈ ts, Q t) → Q (entry a) →
        ∀ t ∈ ts ++ [entry a], Q t := by
      intro Q hold hnew t ht
      rcases List.mem_append.mp ht with ht | ht
      · exact hold t ht
      · exact List.mem_singleton.mp ht ▸ hnew
    refine ⟨hI, hmem hP (hentry a).1, hmem hp.honours (hentry a).2, ?_, ?_, ?_⟩
    · intro i t hi k hk
      have hlt : i < ts.length := by
        by_contra hge
        exact hp.fresh i (Nat.le_of_not_lt hge) k hk
      rw [List.getElem?_append_left hlt] at hi
      exact hp.opened i t hi k hk
    · intro i hi k
      rw [List.length_append] at hi
      exact hp.fresh i (Nat.le_of_add_right_le hi) k
    · intro k hk
      obtain ⟨i, t, ht, howes⟩ := hp.due k hk
      have hlt : i < ts.length := (List.getElem?_eq_some_iff.mp ht).1
      exact ⟨i, t, by rwa [List.getElem?_append_left hlt], howes⟩
  | run s u ts i x c r next hi hok hu =>
    have hcall := List.mem_of_getElem? hi
    have hlt : i < ts.length := (List.getElem?_eq_some_iff.mp hi).1
    obtain ⟨hinv, hother, hown, hdue⟩ := hstep i s x c r u (hP _ hcall).1 hI hok hu
    have hmem : ∀ {Q : Prog C R ε α → Prop}, (∀ t ∈ ts, Q t) → Q (next r) →
        ∀ t ∈ ts.set i (next r), Q t := by
      intro Q hold hnew t ht
      rcases List.mem_or_eq_of_mem_set ht with ht | rfl
      · exact hold t ht
      · exact hnew
    refine ⟨hinv, hmem hP ((hP _ hcall).2 r), hmem hp.honours (hp.honours _ hcall r).2, ?_, ?_, ?_⟩
    · intro j t hj k hk
      by_cases hji : j = i
      · subst hji
        rw [List.getElem?_set_self hlt] at hj
        obtain rfl := Option.some.inj hj
        rcases hown k hk with hopens | ⟨hopen, hseals, hdrops⟩
        · exact (hp.honours _ hcall r).1 k hopens
        · exact (hp.opened j _ hi k hopen r).2 hseals hdrops
      · rw [List.getElem?_set_ne (Ne.symm hji)] at hj
        exact hp.opened j t hj k (hother j hji k hk)
    · intro j hj k hk
      rw [List.length_set] at hj
      have hji : j ≠ i := by omega
      exact hp.fresh j hj k (hother j hji k hk)
    · intro k hk
      rcases hdue k hk with ⟨hold, hnot, hanswer⟩ | ⟨hopen, hseals⟩
      · obtain ⟨j, t, hj, howes⟩ := hp.due k hold
        by_cases hji : j = i
        · subst hji
          obtain rfl : Prog.call c next = t := Option.some.inj (hi.symm.trans hj)
          exact ⟨j, next r, List.getElem?_set_self hlt, howes.resolve_left hnot r hanswer⟩
        · exact ⟨j, t, by rwa [List.getElem?_set_ne (Ne.symm hji)], howes⟩
      · exact ⟨i, next r, List.getElem?_set_self hlt, (hp.opened i _ hi k hopen r).1 hseals⟩

theorem owed_of_reach
    (hstep : ∀ i s x c r u, P c → I s → Ok i s c → H i s x c = some (r, u) →
      I u ∧ Accounts Δ isOpen isDue i s c r u)
    (hentry : ∀ a, (entry a).Issues P ∧ Δ.Honours (entry a)) {s : σ} (hs : I s)
    (hopened : ∀ i k, ¬ isOpen s i k) (hdue : ∀ k, ¬ isDue s k) {q : Pool σ C R ε α}
    (hq : Reach H entry Ok ⟨s, []⟩ q) : I q.shared ∧ Owed Δ isOpen isDue q := by
  have hall : I q.shared ∧ (∀ t ∈ q.tasks, t.Issues P) ∧ Owed Δ isOpen isDue q := by
    induction hq with
    | refl =>
      have hnone : ∀ {Q : Prog C R ε α → Prop}, ∀ t ∈ ([] : List (Prog C R ε α)), Q t := by simp
      refine ⟨hs, hnone, hnone, fun i t ht => ?_, fun i _ k => hopened i k,
        fun k hk => absurd hk (hdue k)⟩
      simp at ht
    | tail _ hpq ih =>
      obtain ⟨hI, hP, howed⟩ := ih
      exact owed_step hstep hentry hpq hI hP howed
  exact ⟨hall.1, hall.2.2⟩

end Pool
end Async
