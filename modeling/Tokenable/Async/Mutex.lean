import Mathlib.Logic.Function.Basic
import Tokenable.Async.RelyGuarantee

/-!
# Per-key mutexes made of promise chains

`Map<key, Promise>` locks chain every new critical section behind the previous one of the same
key. A task first joins the chain (`enqueue`), proceeds when everything before it has settled
(`turn`) and lets the next one go when its own section settles (`release`).

A `Discipline` says which part of the memory a lock guards, what every step keeps (`evolve`) and
what holds of the guarded part while nobody is inside (`free`). Its `contract` is the
rely-guarantee contract of the locked memory; `wp_withLock` is the critical-section rule.
-/

namespace Async

structure Lock where
  holder : Option ℕ
  waiting : List ℕ

abbrev Locks (κ : Type) := κ → Lock

inductive LockCmd (κ : Type) where
  | enqueue (k : κ)
  | turn (k : κ)
  | release (k : κ)

structure Locked (κ σ : Type) where
  locks : Locks κ
  mem : σ

variable {κ σ X C π : Type} [DecidableEq κ] {R : C → Type} {ε α : Type}

def Locks.unheld : Locks κ := fun _ => ⟨none, []⟩

def LockCmd.exec (i : ℕ) (l : Locks κ) : LockCmd κ → Option (Locks κ)
  | .enqueue k => some (Function.update l k { l k with waiting := (l k).waiting ++ [i] })
  | .turn k =>
    if (l k).holder = none ∧ (l k).waiting.head? = some i then
      some (Function.update l k ⟨some i, (l k).waiting.tail⟩)
    else none
  | .release k => some (Function.update l k { l k with holder := none })

abbrev LockRes (κ : Type) (R : C → Type) : LockCmd κ ⊕ C → Type := Sum.elim (fun _ => Unit) R

def lockedHandler (H : Handler σ X C R) : Handler (Locked κ σ) X (LockCmd κ ⊕ C) (LockRes κ R)
  | i, s, _, .inl l => (l.exec i s.locks).map fun locks => ((), { s with locks })
  | i, s, x, .inr c => (H i s.mem x c).map fun ru => (ru.1, { s with mem := ru.2 })

/-- A condition on the memory commands; the lock commands are unrestricted. -/
def lockedAllowed (Ok : Allowed σ C) : Allowed (Locked κ σ) (LockCmd κ ⊕ C)
  | _, _, .inl _ => True
  | i, s, .inr c => Ok i s.mem c

instance {Ok : Allowed σ C} [∀ i s c, Decidable (Ok i s c)] (i : ℕ) (s : Locked κ σ)
    (c : LockCmd κ ⊕ C) : Decidable (lockedAllowed Ok i s c) :=
  match c with
  | .inl _ => .isTrue trivial
  | .inr c => inferInstanceAs (Decidable (Ok i s.mem c))

abbrev LProg (κ : Type) (R : C → Type) (ε α : Type) := Prog (LockCmd κ ⊕ C) (LockRes κ R) ε α

def lockCmd (l : LockCmd κ) : LProg κ R ε Unit := .call (.inl l) (fun _ => .ret (.ok ()))

/-- `prev.then(fn, fn)`: the section runs once everything queued before it has settled. -/
def withLock (k : κ) (body : LProg κ R ε α) : LProg κ R ε α := do
  lockCmd (.enqueue k)
  lockCmd (.turn k)
  Prog.finallyDo body (lockCmd (.release k))

def Locked.Held (i : ℕ) (k : κ) (s : Locked κ σ) : Prop := (s.locks k).holder = some i

/-- What the locks of a memory are for. -/
structure Discipline (κ σ π : Type) where
  base : σ → Prop
  evolve : σ → σ → Prop
  guarded : σ → κ → π
  free : σ → κ → Prop
  evolve_refl : ∀ s, evolve s s
  evolve_trans : ∀ s t u, evolve s t → evolve t u → evolve s u
  free_stable : ∀ s t k, base s → evolve s t → guarded t k = guarded s k → free s k → free t k

namespace Discipline

variable (D : Discipline κ σ π)

structure Inv (s : Locked κ σ) : Prop where
  base : D.base s.mem
  free : ∀ k, (s.locks k).holder = none → D.free s.mem k

structure Guar (i : ℕ) (s t : Locked κ σ) : Prop where
  evolve : D.evolve s.mem t.mem
  holder : ∀ k, ¬ s.Held i k → (t.locks k).holder = (s.locks k).holder ∨
    (s.locks k).holder = none ∧ t.Held i k
  guarded : ∀ k, ¬ s.Held i k → D.guarded t.mem k = D.guarded s.mem k

structure Rely (i : ℕ) (s t : Locked κ σ) : Prop where
  evolve : D.evolve s.mem t.mem
  held : ∀ k, s.Held i k → t.Held i k
  guarded : ∀ k, s.Held i k → D.guarded t.mem k = D.guarded s.mem k

def contract : Contract (Locked κ σ) where
  inv := D.Inv
  guar := D.Guar
  rely := D.Rely
  rely_refl _ s := ⟨D.evolve_refl s.mem, fun _ h => h, fun _ _ => rfl⟩
  rely_trans i s t u hst htu :=
    ⟨D.evolve_trans _ _ _ hst.evolve htu.evolve, fun k h => htu.held k (hst.held k h),
      fun k h => (htu.guarded k (hst.held k h)).trans (hst.guarded k h)⟩
  rely_of_guar i j s t hij h := by
    have hne : ∀ k, s.Held i k → ¬ s.Held j k := by
      intro k hi hj
      exact hij (Option.some.inj (hi.symm.trans hj))
    refine ⟨h.evolve, fun k hk => ?_, fun k hk => h.guarded k (hne k hk)⟩
    rcases h.holder k (hne k hk) with heq | ⟨hnone, -⟩
    · exact heq.trans hk
    · rw [Locked.Held, hnone] at hk
      cases hk

variable {D} {H : Handler σ X C R} {Ok : Allowed σ C} {i : ℕ}

/-- `wp` of a function on a locked memory, under the contract of the discipline. -/
abbrev lwp (D : Discipline κ σ π) (H : Handler σ X C R) (Ok : Allowed σ C) (i : ℕ)
    (p : LProg κ R ε α) (Q : Except ε α → Locked κ σ → Prop) (s : Locked κ σ) : Prop :=
  wp (lockedHandler H) (lockedAllowed Ok) D.contract i p Q s

/-- A memory command keeps the contract when its effect is an allowed evolution that leaves
every part guarded by a lock the task does not hold unchanged. -/
theorem lwp_mem {c : C} {next : R c → LProg κ R ε α} {Q : Except ε α → Locked κ σ → Prop}
    {s : Locked κ σ}
    (h : ∀ t, D.Rely i s t → D.base t.mem → Ok i t.mem c →
      ∀ x r m, H i t.mem x c = some (r, m) →
        D.base m ∧ D.evolve t.mem m ∧ (∀ k, ¬ t.Held i k → D.guarded m k = D.guarded t.mem k) ∧
          D.lwp H Ok i (next r) Q { t with mem := m }) :
    D.lwp H Ok i (.call (.inr c) next) Q s := by
  intro t hst ht hok x r u hu
  simp only [lockedHandler, Option.map_eq_some_iff] at hu
  obtain ⟨⟨r', m⟩, hm, heq⟩ := hu
  cases heq
  obtain ⟨hbase, hevolve, hguarded, hnext⟩ := h t hst ht.base hok x _ m hm
  refine ⟨⟨hbase, fun k hk => ?_⟩, ⟨hevolve, fun k _ => .inl rfl, hguarded⟩, hnext⟩
  have hnot : ¬ t.Held i k := by
    intro hheld
    rw [Locked.Held, hk] at hheld
    cases hheld
  exact D.free_stable _ _ k ht.base hevolve (hguarded k hnot) (ht.free k hk)

theorem lwp_enqueue {k : κ} {Q : Except ε Unit → Locked κ σ → Prop} {s : Locked κ σ}
    (h : ∀ t, D.Rely i s t → Q (.ok ()) t) :
    D.lwp H Ok i (lockCmd (.enqueue k) : LProg κ R ε Unit) Q s := by
  intro t hst ht _ x r u hu
  simp only [lockedHandler, LockCmd.exec, Option.map_some, Option.some.injEq] at hu
  cases hu
  set u : Locked κ σ := ⟨Function.update t.locks k
    { t.locks k with waiting := (t.locks k).waiting ++ [i] }, t.mem⟩ with hu
  have hholder : ∀ j, (u.locks j).holder = (t.locks j).holder := by
    intro j
    by_cases hj : j = k
    · subst hj
      simp [hu]
    · simp [hu, Function.update_of_ne hj]
  refine ⟨⟨ht.base, fun j hj => ht.free j (hholder j ▸ hj)⟩,
    ⟨D.evolve_refl t.mem, fun j _ => .inl (hholder j), fun _ _ => rfl⟩, h u ?_⟩
  exact ⟨hst.evolve, fun j hj => (hholder j).trans (hst.held j hj), hst.guarded⟩

theorem lwp_turn {k : κ} {Q : Except ε Unit → Locked κ σ → Prop} {s : Locked κ σ}
    (h : ∀ t, D.evolve s.mem t.mem → D.base t.mem → t.Held i k → D.free t.mem k → Q (.ok ()) t) :
    D.lwp H Ok i (lockCmd (.turn k) : LProg κ R ε Unit) Q s := by
  intro t hst ht _ x r u hu
  simp only [lockedHandler, LockCmd.exec, Option.map_eq_some_iff] at hu
  obtain ⟨locks, hlocks, heq⟩ := hu
  split_ifs at hlocks with hturn
  cases hlocks
  cases heq
  have hother : ∀ j, j ≠ k →
      (Function.update t.locks k ⟨some i, (t.locks k).waiting.tail⟩ j).holder =
        (t.locks j).holder := by
    intro j hj
    rw [Function.update_of_ne hj]
  have hself : (Function.update t.locks k ⟨some i, (t.locks k).waiting.tail⟩ k).holder =
      some i := by
    rw [Function.update_self]
  refine ⟨⟨ht.base, fun j hj => ?_⟩, ⟨D.evolve_refl t.mem, fun j _ => ?_, fun _ _ => rfl⟩,
    h _ hst.evolve ht.base hself (ht.free k hturn.1)⟩
  · by_cases hjk : j = k
    · subst hjk
      rw [hself] at hj
      cases hj
    · exact ht.free j ((hother j hjk).symm.trans hj)
  · by_cases hjk : j = k
    · subst hjk
      exact .inr ⟨hturn.1, hself⟩
    · exact .inl (hother j hjk)

theorem lwp_release {k : κ} {Q : Except ε Unit → Locked κ σ → Prop} {s : Locked κ σ}
    (hbase : D.base s.mem) (hheld : s.Held i k) (hfree : D.free s.mem k)
    (h : ∀ t, D.evolve s.mem t.mem → D.base t.mem → Q (.ok ()) t) :
    D.lwp H Ok i (lockCmd (.release k) : LProg κ R ε Unit) Q s := by
  intro t hst ht _ x r u hu
  simp only [lockedHandler, LockCmd.exec, Option.map_some, Option.some.injEq] at hu
  cases hu
  have hother : ∀ j, j ≠ k →
      (Function.update t.locks k { t.locks k with holder := none } j).holder =
        (t.locks j).holder := by
    intro j hj
    rw [Function.update_of_ne hj]
  have hfree' : D.free t.mem k :=
    D.free_stable _ _ k hbase hst.evolve (hst.guarded k hheld) hfree
  refine ⟨⟨ht.base, fun j hj => ?_⟩, ⟨D.evolve_refl t.mem, fun j hj => ?_, fun _ _ => rfl⟩,
    h _ hst.evolve ht.base⟩
  · by_cases hjk : j = k
    · subst hjk
      exact hfree'
    · exact ht.free j ((hother j hjk).symm.trans hj)
  · have hjk : j ≠ k := by
      rintro rfl
      exact hj (hst.held j hheld)
    exact .inl (hother j hjk)

/-- The critical-section rule: inside, the resource invariant is available and may be broken;
it has to hold again when the section settles, with success or with an error. -/
theorem lwp_withLock {k : κ} {body : LProg κ R ε α} {Q : Except ε α → Locked κ σ → Prop}
    {s : Locked κ σ}
    (h : ∀ t, D.evolve s.mem t.mem → D.base t.mem → t.Held i k → D.free t.mem k →
      D.lwp H Ok i body (fun r u => D.base u.mem ∧ u.Held i k ∧ D.free u.mem k ∧
        ∀ v : Locked κ σ, D.evolve u.mem v.mem → D.base v.mem → Q r v) t) :
    D.lwp H Ok i (withLock k body) Q s := by
  refine wp_bind (lwp_enqueue fun t hst => wp_bind (lwp_turn fun u htu hu hheld hfree => ?_))
  have hbody := h u (D.evolve_trans _ _ _ hst.evolve htu) hu hheld hfree
  refine wp_settle (wp_mono (fun r v hv => ?_) hbody)
  obtain ⟨hbase, hheld', hfree', hQ⟩ := hv
  exact wp_settle (lwp_release hbase hheld' hfree' hQ)

variable {ε' β : Type}

/-- A function that, started in `P`, moves the memory only as the other tasks could. -/
def PassiveFrom (D : Discipline κ σ π) (H : Handler σ X C R) (Ok : Allowed σ C) (i : ℕ)
    (P : σ → Prop) (p : LProg κ R ε α) : Prop :=
  ∀ (s : Locked κ σ) (Q : Except ε α → Locked κ σ → Prop), D.base s.mem → P s.mem →
    (∀ r u, D.Rely i s u → D.base u.mem → Q r u) → D.lwp H Ok i p Q s

abbrev Passive (D : Discipline κ σ π) (H : Handler σ X C R) (Ok : Allowed σ C) (i : ℕ)
    (p : LProg κ R ε α) : Prop := D.PassiveFrom H Ok i (fun _ => True) p

omit [DecidableEq κ] in
theorem rely_refl (i : ℕ) (s : Locked κ σ) : D.Rely i s s := D.contract.rely_refl i s

omit [DecidableEq κ] in
theorem Rely.trans {s t u : Locked κ σ} (hst : D.Rely i s t) (htu : D.Rely i t u) :
    D.Rely i s u := D.contract.rely_trans i s t u hst htu

omit [DecidableEq κ] in
theorem rely_of_evolve {t : Locked κ σ} {m : σ} (hevolve : D.evolve t.mem m)
    (hguarded : ∀ k, D.guarded m k = D.guarded t.mem k) : D.Rely i t { t with mem := m } :=
  ⟨hevolve, fun _ hk => hk, fun k _ => hguarded k⟩

theorem passiveFrom_ret {P : σ → Prop} (r : Except ε α) :
    D.PassiveFrom H Ok i P (.ret r : LProg κ R ε α) :=
  fun s _ hs _ hQ => hQ r s (rely_refl i s) hs

theorem passive_ret (r : Except ε α) : D.Passive H Ok i (.ret r : LProg κ R ε α) :=
  passiveFrom_ret r

theorem passiveFrom_settle {P : σ → Prop} (hP : ∀ s t, D.evolve s t → P s → P t)
    {p : LProg κ R ε α} {k : Except ε α → LProg κ R ε' β} (hp : D.Passive H Ok i p)
    (hk : ∀ r, D.PassiveFrom H Ok i P (k r)) : D.PassiveFrom H Ok i P (p.settle k) := by
  intro s Q hs hPs hQ
  refine wp_settle (hp s _ hs trivial fun r u hsu hu => ?_)
  exact hk r u Q hu (hP _ _ hsu.evolve hPs) fun r' v huv hv => hQ r' v (hsu.trans huv) hv

theorem passive_settle {p : LProg κ R ε α} {k : Except ε α → LProg κ R ε' β}
    (hp : D.Passive H Ok i p) (hk : ∀ r, D.Passive H Ok i (k r)) :
    D.Passive H Ok i (p.settle k) :=
  passiveFrom_settle (fun _ _ _ h => h) hp hk

/-- Between its passive steps a function keeps what the evolution of the memory keeps. -/
theorem passiveFrom_bind {P : σ → Prop} (hP : ∀ s t, D.evolve s t → P s → P t)
    {p : LProg κ R ε α} {f : α → LProg κ R ε β} (hp : D.Passive H Ok i p)
    (hf : ∀ a, D.PassiveFrom H Ok i P (f a)) : D.PassiveFrom H Ok i P (p >>= f) := by
  refine passiveFrom_settle hP hp fun r => ?_
  cases r with
  | ok a => exact hf a
  | error e => exact passiveFrom_ret (.error e)

theorem passive_bind {p : LProg κ R ε α} {f : α → LProg κ R ε β} (hp : D.Passive H Ok i p)
    (hf : ∀ a, D.Passive H Ok i (f a)) : D.Passive H Ok i (p >>= f) :=
  passiveFrom_bind (fun _ _ _ h => h) hp hf

theorem passive_throwIf (b : Bool) (e : ε) :
    D.Passive H Ok i (Prog.throwIf b e : LProg κ R ε Unit) := by
  cases b with
  | true => exact passive_ret (.error e)
  | false => exact passive_ret (.ok ())

theorem passive_orThrow (e : ε) (o : Option α) :
    D.Passive H Ok i (Prog.orThrow e o : LProg κ R ε α) := by
  cases o with
  | none => exact passive_ret (.error e)
  | some a => exact passive_ret (.ok a)

theorem passive_call {c : C} {next : R c → LProg κ R ε α}
    (h : ∀ t x r m, D.base t → Ok i t c → H i t x c = some (r, m) →
      D.base m ∧ D.evolve t m ∧ ∀ k, D.guarded m k = D.guarded t k)
    (hn : ∀ r, D.Passive H Ok i (next r)) : D.Passive H Ok i (.call (.inr c) next) := by
  intro s Q hs _ hQ
  refine lwp_mem fun t hst ht hok x r m hm => ?_
  obtain ⟨hbase, hevolve, hguarded⟩ := h t.mem x r m ht hok hm
  have htu : D.Rely i t { t with mem := m } := rely_of_evolve hevolve hguarded
  refine ⟨hbase, hevolve, fun k _ => hguarded k, hn r _ Q hbase trivial fun r' v huv hv => ?_⟩
  exact hQ r' v ((hst.trans htu).trans huv) hv

/-- Run a passive function first: its continuation starts in a state that the others could have
produced, and an error leaves in one. -/
theorem lwp_bind_passive {p : LProg κ R ε α} {f : α → LProg κ R ε β}
    {Q : Except ε β → Locked κ σ → Prop} {s : Locked κ σ} (hp : D.Passive H Ok i p)
    (hs : D.base s.mem) (herr : ∀ e u, D.Rely i s u → D.base u.mem → Q (.error e) u)
    (hok : ∀ a u, D.Rely i s u → D.base u.mem → D.lwp H Ok i (f a) Q u) :
    D.lwp H Ok i (p >>= f) Q s := by
  refine wp_bind (hp s _ hs trivial fun r u hsu hu => ?_)
  cases r with
  | ok a => exact hok a u hsu hu
  | error e => exact herr e u hsu hu

/-- A command whose answer is read off a memory that it does not change. -/
theorem lwp_read {c : C} {next : R c → LProg κ R ε α} {Q : Except ε α → Locked κ σ → Prop}
    {s : Locked κ σ} (hread : ∀ t x r m, H i t x c = some (r, m) → m = t)
    (h : ∀ t x r, D.Rely i s t → D.base t.mem → H i t.mem x c = some (r, t.mem) →
      D.lwp H Ok i (next r) Q t) :
    D.lwp H Ok i (.call (.inr c) next) Q s := by
  refine lwp_mem fun t hst ht _ x r m hm => ?_
  obtain rfl := hread t.mem x r m hm
  exact ⟨ht, D.evolve_refl t.mem, fun _ _ => rfl, h t x r hst ht hm⟩

end Discipline
end Async
