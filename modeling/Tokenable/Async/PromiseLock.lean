import Mathlib.Data.List.Nodup
import Mathlib.Logic.Function.Basic

/-!
# Locks that are maps of chained promises

A lock keeps for each key the last promise of a chain. A call puts its body behind it with
`prev.then(fn, fn)` and leaves a promise that follows the body and forgets how it settled.

Reactions are run one at a time, each some time after its promise has settled. They may run in any
order, so that nothing below rests on the order of the job queue.
-/

namespace PromiseLock

/-- The call number `c.2` for the key `c.1`. -/
abbrev Call (κ : Type) := κ × ℕ

inductive Promise (κ : Type) where
  /-- `Promise.resolve()` -/
  | resolved
  /-- what `fn` returns -/
  | body (c : Call κ)
  /-- `prev.then(fn, fn)`, the promise of the caller -/
  | run (c : Call κ)
  /-- `run.then(() => undefined, () => undefined)` -/
  | tail (c : Call κ)
  deriving DecidableEq

inductive Reaction (κ : Type) where
  | start (c : Call κ)
  /-- `run` has been resolved with the promise of the body and settles as it does -/
  | adopt (c : Call κ)
  | forget (c : Call κ)
  deriving DecidableEq

/-- `tails` is the map of the lock. A promise settles with an outcome; `.ok none` is `undefined`. -/
structure State (κ ε α : Type) where
  tails : κ → Option (Promise κ)
  calls : κ → ℕ
  settled : Promise κ → Option (Except ε (Option α))
  reactions : List (Promise κ × Reaction κ)
  started : List (Call κ)

variable {κ ε α A : Type} [DecidableEq κ]

namespace State

def initial : State κ ε α where
  tails _ := none
  calls _ := 0
  settled p := if p = .resolved then some (.ok none) else none
  reactions := []
  started := []

def register (p : Promise κ) (r : Reaction κ) (s : State κ ε α) : State κ ε α :=
  { s with reactions := s.reactions ++ [(p, r)] }

def settle (p : Promise κ) (v : Except ε (Option α)) (s : State κ ε α) : State κ ε α :=
  { s with settled := Function.update s.settled p (some v) }

/-- A call of the lock: `prev` is `map.get(key) ?? Promise.resolve()`, and `map.set` replaces it. -/
def lock (k : κ) (s : State κ ε α) : State κ ε α :=
  let c : Call κ := (k, s.calls k)
  let prev := (s.tails k).getD .resolved
  let t := (s.register prev (.start c)).register (.run c) (.forget c)
  { t with
    tails := Function.update s.tails k (some (.tail c))
    calls := Function.update s.calls k (s.calls k + 1) }

/-- What a reaction does with the outcome of its promise. Both handlers of `then` are one. -/
def perform (v : Except ε (Option α)) : Reaction κ → State κ ε α → State κ ε α
  | .start c, s => { s.register (.body c) (.adopt c) with started := s.started ++ [c] }
  | .adopt c, s => s.settle (.run c) v
  | .forget c, s => s.settle (.tail c) (.ok none)

def running (s : State κ ε α) : List (Call κ) :=
  s.started.filter fun c => (s.settled (.body c)).isNone

def startedOf (s : State κ ε α) (k : κ) : List ℕ := (s.started.filter (·.1 = k)).map Prod.snd

def Quiet (s : State κ ε α) : Prop := ∀ x ∈ s.reactions, s.settled x.1 = none

end State

inductive Event (A κ ε α : Type) where
  | call (a : A)
  | react (p : Promise κ) (r : Reaction κ)
  | finish (c : Call κ) (outcome : Except ε α)

/-- `enter` is the function that takes the lock. A body that throws before its first `await` finishes
right after its start. -/
def step (enter : A → State κ ε α → State κ ε α) (s : State κ ε α) :
    Event A κ ε α → Option (State κ ε α)
  | .call a => some (enter a s)
  | .react p r =>
    if (p, r) ∈ s.reactions then
      (s.settled p).map fun v => State.perform v r { s with reactions := s.reactions.erase (p, r) }
    else none
  | .finish c outcome =>
    if c ∈ s.running then some (s.settle (.body c) (outcome.map some)) else none

def steps (enter : A → State κ ε α → State κ ε α) :
    State κ ε α → List (Event A κ ε α) → Option (State κ ε α)
  | s, [] => some s
  | s, e :: es => (step enter s e).bind fun t => steps enter t es

section Invariant

/-- What the body of a call is put behind. -/
def prev : Call κ → Promise κ
  | (_, 0) => .resolved
  | (k, m + 1) => .tail (k, m)

variable {settled : Promise κ → Option (Except ε (Option α))} {started : List (Call κ)}
  {reactions : List (Promise κ × Reaction κ)} {calls : κ → ℕ} {c d : Call κ} {k : κ}
  {p q : Promise κ} {v w : Except ε (Option α)}

/-- Each promise settles after the one it was made from, and a `run` as its body does. -/
structure Chained (settled : Promise κ → Option (Except ε (Option α))) (started : List (Call κ)) :
    Prop where
  resolved : settled .resolved ≠ none
  behind : ∀ c ∈ started, settled (prev c) ≠ none
  body : ∀ c, settled (.body c) ≠ none → c ∈ started
  run : ∀ c v, settled (.run c) = some v → settled (.body c) = some v
  tail : ∀ c, settled (.tail c) ≠ none → settled (.run c) ≠ none

/-- A call has one reaction for each of its promises that is still to come. -/
structure Registered (reactions : List (Promise κ × Reaction κ)) (calls : κ → ℕ)
    (started : List (Call κ)) (settled : Promise κ → Option (Except ε (Option α))) : Prop where
  nodup : reactions.Nodup
  start : ∀ p c, (p, .start c) ∈ reactions ↔ p = prev c ∧ c.2 < calls c.1 ∧ c ∉ started
  adopt : ∀ p c, (p, .adopt c) ∈ reactions ↔ p = .body c ∧ c ∈ started ∧ settled (.run c) = none
  forget : ∀ p c, (p, .forget c) ∈ reactions ↔
    p = .run c ∧ c.2 < calls c.1 ∧ settled (.tail c) = none

namespace Chained

omit [DecidableEq κ] in
theorem unsettled (h : Chained settled started) (hc : c ∉ started) :
    settled (.body c) = none ∧ settled (.run c) = none ∧ settled (.tail c) = none := by
  have hbody : settled (.body c) = none := by
    by_contra hne
    exact hc (h.body c hne)
  have hrun : settled (.run c) = none := by
    by_contra hne
    obtain ⟨v, hv⟩ := Option.ne_none_iff_exists'.mp hne
    rw [h.run c v hv] at hbody
    cases hbody
  refine ⟨hbody, hrun, ?_⟩
  by_contra hne
  exact h.tail c hne hrun

omit [DecidableEq κ] in
/-- Once the tail of a call has settled, its body has. -/
theorem body_of_tail (h : Chained settled started) (htail : settled (.tail c) ≠ none) :
    settled (.body c) ≠ none := by
  obtain ⟨v, hv⟩ := Option.ne_none_iff_exists'.mp (h.tail c htail)
  rw [h.run c v hv]
  exact Option.some_ne_none v

omit [DecidableEq κ] in
theorem start (h : Chained settled started) (hprev : settled (prev c) ≠ none) :
    Chained settled (started ++ [c]) where
  resolved := h.resolved
  behind d hd := by
    rcases List.mem_append.mp hd with hd | hd
    · exact h.behind d hd
    · rw [List.mem_singleton.mp hd]
      exact hprev
  body d hd := List.mem_append_left _ (h.body d hd)
  run := h.run
  tail := h.tail

/-- A promise that has settled stays so. -/
theorem kept (hq : settled q ≠ none) : Function.update settled p (some v) q ≠ none := by
  by_cases heq : q = p
  · rw [heq, Function.update_self]
    exact Option.some_ne_none v
  · rwa [Function.update_of_ne heq]

theorem finish (h : Chained settled started) (hc : c ∈ started) (hnone : settled (.body c) = none) :
    Chained (Function.update settled (.body c) (some v)) started where
  resolved := kept h.resolved
  behind d hd := kept (h.behind d hd)
  body d hd := by
    by_cases heq : d = c
    · rw [heq]
      exact hc
    · simp only [Function.update_apply, Promise.body.injEq, heq, if_false] at hd
      exact h.body d hd
  run d w hw := by
    simp only [Function.update_apply, reduceCtorEq, if_false] at hw
    have hbody := h.run d w hw
    have hne : d ≠ c := by
      intro heq
      rw [heq, hnone] at hbody
      cases hbody
    simpa only [Function.update_apply, Promise.body.injEq, hne, if_false] using hbody
  tail d hd := by
    simp only [Function.update_apply, reduceCtorEq, if_false] at hd ⊢
    exact h.tail d hd

theorem adopt (h : Chained settled started) (hv : settled (.body c) = some v) :
    Chained (Function.update settled (.run c) (some v)) started where
  resolved := kept h.resolved
  behind d hd := kept (h.behind d hd)
  body d hd := by
    simp only [Function.update_apply, reduceCtorEq, if_false] at hd
    exact h.body d hd
  run d w hw := by
    simp only [Function.update_apply, reduceCtorEq, if_false]
    by_cases heq : d = c
    · rw [heq, Function.update_self] at hw
      rw [heq, hv, hw]
    · simp only [Function.update_apply, Promise.run.injEq, heq, if_false] at hw
      exact h.run d w hw
  tail d hd := by
    simp only [Function.update_apply (a := Promise.tail d), reduceCtorEq, if_false] at hd
    exact kept (h.tail d hd)

theorem forget (h : Chained settled started) (hv : settled (.run c) = some v) :
    Chained (Function.update settled (.tail c) (some w)) started where
  resolved := kept h.resolved
  behind d hd := kept (h.behind d hd)
  body d hd := by
    simp only [Function.update_apply, reduceCtorEq, if_false] at hd
    exact h.body d hd
  run d w hw := by
    simp only [Function.update_apply, reduceCtorEq, if_false] at hw ⊢
    exact h.run d w hw
  tail d hd := by
    apply kept
    by_cases heq : d = c
    · rw [heq, hv]
      exact Option.some_ne_none v
    · simp only [Function.update_apply, Promise.tail.injEq, heq, if_false] at hd
      exact h.tail d hd

end Chained

namespace Registered

theorem mem_erase (h : Registered reactions calls started settled) {x y : Promise κ × Reaction κ} :
    x ∈ reactions.erase y ↔ x ≠ y ∧ x ∈ reactions := h.nodup.mem_erase_iff

theorem start_step (h : Registered reactions calls started settled) (hmem : (p, .start c) ∈ reactions)
    (hrun : settled (.run c) = none) :
    Registered (reactions.erase (p, .start c) ++ [(.body c, .adopt c)]) calls (started ++ [c])
      settled where
  nodup := by
    rw [List.nodup_append]
    refine ⟨h.nodup.erase _, List.nodup_singleton _, ?_⟩
    intro x hx y hy heq
    rw [List.mem_singleton.mp hy] at heq
    rw [heq, h.mem_erase, h.adopt] at hx
    exact ((h.start p c).mp hmem).2.2 hx.2.2.1
  start q d := by
    have hp := ((h.start p c).mp hmem).1
    simp only [List.mem_append, List.mem_singleton, h.mem_erase, h.start, ne_eq, Prod.mk.injEq,
      Reaction.start.injEq, reduceCtorEq, and_false, or_false, not_or]
    constructor
    · rintro ⟨hne, rfl, hlt, hd⟩
      exact ⟨rfl, hlt, hd, fun heq => hne ⟨by rw [heq, hp], heq⟩⟩
    · rintro ⟨rfl, hlt, hd, hne⟩
      exact ⟨fun heq => hne heq.2, rfl, hlt, hd⟩
  adopt q d := by
    simp only [List.mem_append, List.mem_singleton, h.mem_erase, h.adopt, ne_eq, Prod.mk.injEq,
      Reaction.adopt.injEq, reduceCtorEq, and_false, not_false_eq_true, true_and]
    constructor
    · rintro (⟨rfl, hd, hnone⟩ | ⟨rfl, rfl⟩)
      · exact ⟨rfl, .inl hd, hnone⟩
      · exact ⟨rfl, .inr rfl, hrun⟩
    · rintro ⟨rfl, hd | rfl, hnone⟩
      · exact .inl ⟨rfl, hd, hnone⟩
      · exact .inr ⟨rfl, rfl⟩
  forget q d := by
    simp only [List.mem_append, List.mem_singleton, h.mem_erase, ne_eq, Prod.mk.injEq, reduceCtorEq,
      and_false, not_false_eq_true, true_and, or_false]
    exact h.forget q d

theorem finish_step (h : Registered reactions calls started settled) :
    Registered reactions calls started (Function.update settled (.body c) (some v)) where
  nodup := h.nodup
  start := h.start
  adopt q d := by
    simp only [Function.update_apply, reduceCtorEq, if_false]
    exact h.adopt q d
  forget q d := by
    simp only [Function.update_apply, reduceCtorEq, if_false]
    exact h.forget q d

theorem adopt_step (h : Registered reactions calls started settled) :
    Registered (reactions.erase (.body c, .adopt c)) calls started
      (Function.update settled (.run c) (some v)) where
  nodup := h.nodup.erase _
  start q d := by
    simp only [h.mem_erase, ne_eq, Prod.mk.injEq, reduceCtorEq, and_false, not_false_eq_true,
      true_and]
    exact h.start q d
  adopt q d := by
    simp only [h.mem_erase, h.adopt, ne_eq, Prod.mk.injEq, Reaction.adopt.injEq,
      Function.update_apply, Promise.run.injEq]
    by_cases heq : d = c
    · rw [heq]
      simp only [if_true, and_true, reduceCtorEq, and_false, iff_false]
      rintro ⟨hne, hq, -⟩
      exact hne hq
    · simp [heq]
  forget q d := by
    simp only [h.mem_erase, Function.update_apply, ne_eq, Prod.mk.injEq, reduceCtorEq, and_false,
      not_false_eq_true, true_and, if_false]
    exact h.forget q d

theorem forget_step (h : Registered reactions calls started settled) :
    Registered (reactions.erase (.run c, .forget c)) calls started
      (Function.update settled (.tail c) (some v)) where
  nodup := h.nodup.erase _
  start q d := by
    simp only [h.mem_erase, ne_eq, Prod.mk.injEq, reduceCtorEq, and_false, not_false_eq_true,
      true_and]
    exact h.start q d
  adopt q d := by
    simp only [h.mem_erase, Function.update_apply, ne_eq, Prod.mk.injEq, reduceCtorEq, and_false,
      not_false_eq_true, true_and, if_false]
    exact h.adopt q d
  forget q d := by
    simp only [h.mem_erase, h.forget, ne_eq, Prod.mk.injEq, Reaction.forget.injEq,
      Function.update_apply, Promise.tail.injEq]
    by_cases heq : d = c
    · rw [heq]
      simp only [if_true, and_true, reduceCtorEq, and_false, iff_false]
      rintro ⟨hne, hq, -⟩
      exact hne hq
    · simp [heq]

end Registered

structure Inv (s : State κ ε α) : Prop where
  tails : ∀ k, (s.tails k).getD .resolved = prev (k, s.calls k)
  called : ∀ c ∈ s.started, c.2 < s.calls c.1
  order : ∀ k, s.startedOf k = List.range (s.startedOf k).length
  chained : Chained s.settled s.started
  registered : Registered s.reactions s.calls s.started s.settled

variable {s t : State κ ε α}

theorem inv_initial : Inv (State.initial : State κ ε α) where
  tails _ := rfl
  called := by simp [State.initial]
  order _ := rfl
  chained := ⟨by simp [State.initial], by simp [State.initial], by simp [State.initial],
    by simp [State.initial], by simp [State.initial]⟩
  registered := ⟨List.nodup_nil, by simp [State.initial], by simp [State.initial],
    by simp [State.initial]⟩

theorem mem_startedOf {i : ℕ} : i ∈ s.startedOf k ↔ (k, i) ∈ s.started := by
  simp [State.startedOf]

theorem mem_started_iff (h : Inv s) : c ∈ s.started ↔ c.2 < (s.startedOf c.1).length := by
  rw [← List.mem_range, ← h.order c.1, mem_startedOf]

omit [DecidableEq κ] in
theorem mem_running : c ∈ s.running ↔ c ∈ s.started ∧ s.settled (.body c) = none := by
  rw [State.running, List.mem_filter, Option.isNone_iff_eq_none]

theorem length_startedOf_le (h : Inv s) (k : κ) : (s.startedOf k).length ≤ s.calls k := by
  by_contra hlt
  have hmem : (k, s.calls k) ∈ s.started := by
    rw [mem_started_iff h]
    show s.calls k < (s.startedOf k).length
    omega
  exact Nat.lt_irrefl _ (h.called _ hmem)

/-- Only the last body that was started for a key may be running. -/
theorem succ_eq_of_running (h : Inv s) (hc : c ∈ s.running) :
    c.2 + 1 = (s.startedOf c.1).length := by
  obtain ⟨hstarted, hbody⟩ := mem_running.mp hc
  have hlt := (mem_started_iff h).mp hstarted
  by_contra hne
  have hnext : (c.1, c.2 + 1) ∈ s.started := by
    rw [mem_started_iff h]
    show c.2 + 1 < (s.startedOf c.1).length
    omega
  exact h.chained.body_of_tail (h.chained.behind _ hnext) hbody

/-- A body that can be called is the first of its key that was not. -/
theorem length_startedOf_of_prev (h : Inv s) (hnot : c ∉ s.started)
    (hprev : s.settled (prev c) ≠ none) : (s.startedOf c.1).length = c.2 := by
  rw [mem_started_iff h] at hnot
  obtain ⟨k, m⟩ := c
  cases m with
  | zero =>
    have hle : ¬ 0 < (s.startedOf k).length := hnot
    show (s.startedOf k).length = 0
    omega
  | succ m =>
    have hbefore := h.chained.body _ (h.chained.body_of_tail hprev)
    rw [mem_started_iff h] at hbefore
    have hlt : m < (s.startedOf k).length := hbefore
    have hle : ¬ m + 1 < (s.startedOf k).length := hnot
    show (s.startedOf k).length = m + 1
    omega

theorem lt_calls_lock (s : State κ ε α) (k : κ) (c : Call κ) :
    c.2 < (s.lock k).calls c.1 ↔ c.2 < s.calls c.1 ∨ c = (k, s.calls k) := by
  obtain ⟨k', m⟩ := c
  show m < Function.update s.calls k (s.calls k + 1) k' ↔ _
  by_cases hk : k' = k
  · subst hk
    rw [Function.update_self, Prod.mk.injEq]
    simp only [true_and]
    omega
  · rw [Function.update_of_ne hk, Prod.mk.injEq]
    simp [hk]

theorem registered_lock (h : Inv s) (k : κ) :
    Registered (s.lock k).reactions (s.lock k).calls s.started s.settled := by
  have hfresh : (k, s.calls k) ∉ s.started := fun hmem => Nat.lt_irrefl _ (h.called _ hmem)
  obtain ⟨-, -, htail⟩ := h.chained.unsettled hfresh
  have hreactions : (s.lock k).reactions =
      s.reactions ++ [(prev (k, s.calls k), .start (k, s.calls k)),
        (.run (k, s.calls k), .forget (k, s.calls k))] := by
    rw [← h.tails k]
    exact List.append_assoc _ _ _
  have hstart : ∀ p, (p, Reaction.start (k, s.calls k)) ∉ s.reactions := by
    intro p hmem
    exact Nat.lt_irrefl _ ((h.registered.start p _).mp hmem).2.1
  have hforget : ∀ p, (p, Reaction.forget (k, s.calls k)) ∉ s.reactions := by
    intro p hmem
    exact Nat.lt_irrefl _ ((h.registered.forget p _).mp hmem).2.1
  rw [hreactions]
  refine ⟨?_, ?_, ?_, ?_⟩
  · rw [List.nodup_append]
    refine ⟨h.registered.nodup, by simp, ?_⟩
    rintro x hx y hy rfl
    simp only [List.mem_cons, List.not_mem_nil, or_false] at hy
    rcases hy with rfl | rfl
    · exact hstart _ hx
    · exact hforget _ hx
  · intro p c
    simp only [List.mem_append, List.mem_cons, List.not_mem_nil, Prod.mk.injEq, reduceCtorEq,
      and_false, or_false, Reaction.start.injEq, h.registered.start, lt_calls_lock]
    constructor
    · rintro (⟨hp, hlt, hnot⟩ | ⟨rfl, rfl⟩)
      · exact ⟨hp, .inl hlt, hnot⟩
      · exact ⟨rfl, .inr rfl, hfresh⟩
    · rintro ⟨hp, hlt | rfl, hnot⟩
      · exact .inl ⟨hp, hlt, hnot⟩
      · exact .inr ⟨hp, rfl⟩
  · intro p c
    simp only [List.mem_append, List.mem_cons, List.not_mem_nil, Prod.mk.injEq, reduceCtorEq,
      and_false, or_false]
    exact h.registered.adopt p c
  · intro p c
    simp only [List.mem_append, List.mem_cons, List.not_mem_nil, Prod.mk.injEq, reduceCtorEq,
      and_false, false_or, or_false, Reaction.forget.injEq, h.registered.forget, lt_calls_lock]
    constructor
    · rintro (⟨hp, hlt, hnone⟩ | ⟨rfl, rfl⟩)
      · exact ⟨hp, .inl hlt, hnone⟩
      · exact ⟨rfl, .inr rfl, htail⟩
    · rintro ⟨hp, hlt | rfl, hnone⟩
      · exact .inl ⟨hp, hlt, hnone⟩
      · exact .inr ⟨hp, rfl⟩

theorem inv_lock (h : Inv s) (k : κ) : Inv (s.lock k) where
  tails k' := by
    show (Function.update s.tails k _ k').getD .resolved =
      prev (k', Function.update s.calls k (s.calls k + 1) k')
    by_cases hk : k' = k
    · rw [hk, Function.update_self, Function.update_self]
      rfl
    · rw [Function.update_of_ne hk, Function.update_of_ne hk]
      exact h.tails k'
  called c hc := (lt_calls_lock s k c).mpr (.inl (h.called c hc))
  order := h.order
  chained := h.chained
  registered := registered_lock h k

theorem startedOf_append (s : State κ ε α) (c : Call κ) (k : κ) :
    ((s.started ++ [c]).filter (·.1 = k)).map Prod.snd =
      s.startedOf k ++ if c.1 = k then [c.2] else [] := by
  rw [List.filter_append, List.map_append, State.startedOf]
  by_cases hk : c.1 = k
  · simp [hk]
  · simp [hk]

theorem inv_start (h : Inv s) (hmem : (p, .start c) ∈ s.reactions) (hp : s.settled p = some v) :
    Inv (State.perform v (.start c) { s with reactions := s.reactions.erase (p, .start c) }) := by
  obtain ⟨rfl, hcall, hnot⟩ := (h.registered.start p c).mp hmem
  have hprev : s.settled (prev c) ≠ none := by
    rw [hp]
    exact Option.some_ne_none v
  refine ⟨h.tails, ?_, ?_, h.chained.start hprev,
    h.registered.start_step hmem (h.chained.unsettled hnot).2.1⟩
  · intro d hd
    rcases List.mem_append.mp hd with hd | hd
    · exact h.called d hd
    · rw [List.mem_singleton.mp hd]
      exact hcall
  · intro k
    show ((s.started ++ [c]).filter (·.1 = k)).map Prod.snd =
      List.range (((s.started ++ [c]).filter (·.1 = k)).map Prod.snd).length
    rw [startedOf_append]
    by_cases hk : c.1 = k
    · have hlength := length_startedOf_of_prev h hnot hprev
      rw [hk] at hlength
      rw [if_pos hk, List.length_append, List.length_singleton, List.range_succ, ← h.order k, hlength]
    · rw [if_neg hk, List.append_nil]
      exact h.order k

theorem inv_perform {r : Reaction κ} (h : Inv s) (hmem : (p, r) ∈ s.reactions)
    (hp : s.settled p = some v) :
    Inv (State.perform v r { s with reactions := s.reactions.erase (p, r) }) := by
  cases r with
  | start c => exact inv_start h hmem hp
  | adopt c =>
    obtain ⟨rfl, -, -⟩ := (h.registered.adopt p c).mp hmem
    exact ⟨h.tails, h.called, h.order, h.chained.adopt hp, h.registered.adopt_step⟩
  | forget c =>
    obtain ⟨rfl, -, -⟩ := (h.registered.forget p c).mp hmem
    exact ⟨h.tails, h.called, h.order, h.chained.forget hp, h.registered.forget_step⟩

theorem inv_finish (h : Inv s) (hc : c ∈ s.running) : Inv (s.settle (.body c) v) := by
  obtain ⟨hstarted, hnone⟩ := mem_running.mp hc
  exact ⟨h.tails, h.called, h.order, h.chained.finish hstarted hnone, h.registered.finish_step⟩

end Invariant

section Runs

/-- A function that takes the lock for the key of its argument, and throws before it does where the
argument has none. -/
def Enters (key : A → Option κ) (enter : A → State κ ε α → State κ ε α) : Prop :=
  ∀ a s, enter a s = ((key a).map s.lock).getD s

/-- How many of the calls are with an argument of that target. -/
def callsOf {τ : Type} [DecidableEq τ] (target : A → Option τ) (d : τ)
    (events : List (Event A κ ε α)) : ℕ :=
  events.countP fun
    | .call a => target a = some d
    | _ => false

variable {key : A → Option κ} {enter : A → State κ ε α → State κ ε α} {s t : State κ ε α}
  {e : Event A κ ε α} {es : List (Event A κ ε α)} {a : A} {c : Call κ} {k : κ} {p : Promise κ}
  {r : Reaction κ} {outcome : Except ε α}

/-- What each event does. -/
theorem step_call (henter : Enters key enter) (hstep : step enter s (.call a) = some t) :
    (key a = none ∧ t = s) ∨ ∃ k, key a = some k ∧ t = s.lock k := by
  cases hstep
  rw [henter]
  cases key a with
  | none => exact .inl ⟨rfl, rfl⟩
  | some k => exact .inr ⟨k, rfl, rfl⟩

theorem step_react (hstep : step enter s (.react p r) = some t) :
    (p, r) ∈ s.reactions ∧ ∃ v, s.settled p = some v ∧
      t = State.perform v r { s with reactions := s.reactions.erase (p, r) } := by
  rw [step] at hstep
  by_cases hmem : (p, r) ∈ s.reactions
  · rw [if_pos hmem, Option.map_eq_some_iff] at hstep
    obtain ⟨v, hv, ht⟩ := hstep
    exact ⟨hmem, v, hv, ht.symm⟩
  · rw [if_neg hmem] at hstep
    cases hstep

theorem step_finish (hstep : step enter s (.finish c outcome) = some t) :
    c ∈ s.running ∧ t = s.settle (.body c) (outcome.map some) := by
  rw [step] at hstep
  by_cases hc : c ∈ s.running
  · rw [if_pos hc] at hstep
    cases hstep
    exact ⟨hc, rfl⟩
  · rw [if_neg hc] at hstep
    cases hstep

theorem inv_step (henter : Enters key enter) (h : Inv s) (hstep : step enter s e = some t) :
    Inv t := by
  cases e with
  | call a =>
    rcases step_call henter hstep with ⟨-, rfl⟩ | ⟨k, -, rfl⟩
    · exact h
    · exact inv_lock h k
  | react p r =>
    obtain ⟨hmem, v, hv, rfl⟩ := step_react hstep
    exact inv_perform h hmem hv
  | finish c outcome =>
    obtain ⟨hc, rfl⟩ := step_finish hstep
    exact inv_finish h hc

theorem inv_steps (henter : Enters key enter) (h : Inv s) (hsteps : steps enter s es = some t) :
    Inv t := by
  induction es generalizing s with
  | nil =>
    cases hsteps
    exact h
  | cons e es ih =>
    rw [steps, Option.bind_eq_some_iff] at hsteps
    obtain ⟨u, hu, hrest⟩ := hsteps
    exact ih (inv_step henter h hu) hrest

/-- Only a call adds to the calls of a key, and one with that key. -/
theorem calls_step (henter : Enters key enter) (hstep : step enter s e = some t) (k : κ) :
    t.calls k = s.calls k + callsOf key k [e] := by
  cases e with
  | call a =>
    rcases step_call henter hstep with ⟨hkey, rfl⟩ | ⟨k', hkey, rfl⟩
    · simp [callsOf, hkey]
    · by_cases heq : k = k'
      · rw [heq]
        simp [callsOf, hkey, State.lock]
      · have hne : ¬ k' = k := fun h => heq h.symm
        simp [callsOf, hkey, State.lock, Function.update_of_ne heq, hne, State.register]
  | react p r =>
    obtain ⟨-, v, -, rfl⟩ := step_react hstep
    cases r with
    | start d => rfl
    | adopt d => rfl
    | forget d => rfl
  | finish d o =>
    obtain ⟨-, rfl⟩ := step_finish hstep
    rfl

theorem calls_steps (henter : Enters key enter) (hsteps : steps enter s es = some t) (k : κ) :
    t.calls k = s.calls k + callsOf key k es := by
  induction es generalizing s with
  | nil =>
    cases hsteps
    rfl
  | cons e es ih =>
    rw [steps, Option.bind_eq_some_iff] at hsteps
    obtain ⟨u, hu, hrest⟩ := hsteps
    have hsplit : callsOf key k (e :: es) = callsOf key k [e] + callsOf key k es := by
      rw [← List.singleton_append, callsOf, List.countP_append]
      rfl
    rw [ih hrest, calls_step henter hu k, hsplit, Nat.add_assoc]

/-- Two bodies of one key never run at once. -/
theorem eq_of_running (h : Inv s) {i j : ℕ} (hi : (k, i) ∈ s.running) (hj : (k, j) ∈ s.running) :
    i = j := by
  have hlast : i + 1 = (s.startedOf k).length := succ_eq_of_running h hi
  have hlast' : j + 1 = (s.startedOf k).length := succ_eq_of_running h hj
  omega

theorem settled_settle (s : State κ ε α) (p q : Promise κ) (v : Except ε (Option α)) :
    (s.settle p v).settled q = if q = p then some v else s.settled q := Function.update_apply ..

/-- The promise of a body settles only with the outcome that the body had. -/
theorem outcome_of_step (henter : Enters key enter) (hstep : step enter s e = some t)
    {v : Except ε (Option α)} (hv : t.settled (.body c) = some v) :
    s.settled (.body c) = some v ∨ ∃ o, e = .finish c o ∧ v = o.map some := by
  cases e with
  | call a =>
    rcases step_call henter hstep with ⟨-, rfl⟩ | ⟨k, -, rfl⟩
    · exact .inl hv
    · exact .inl hv
  | react p r =>
    obtain ⟨-, w, -, rfl⟩ := step_react hstep
    cases r with
    | start d => exact .inl hv
    | adopt d =>
      simp only [State.perform, settled_settle, reduceCtorEq, if_false] at hv
      exact .inl hv
    | forget d =>
      simp only [State.perform, settled_settle, reduceCtorEq, if_false] at hv
      exact .inl hv
  | finish d o =>
    obtain ⟨-, rfl⟩ := step_finish hstep
    rw [settled_settle] at hv
    by_cases heq : c = d
    · rw [heq, if_pos rfl, Option.some.injEq] at hv
      rw [heq]
      exact .inr ⟨o, rfl, hv.symm⟩
    · simp only [Promise.body.injEq, heq, if_false] at hv
      exact .inl hv

theorem outcome_of_steps (henter : Enters key enter) (hsteps : steps enter s es = some t)
    {v : Except ε (Option α)} (hv : t.settled (.body c) = some v) :
    s.settled (.body c) = some v ∨ ∃ o, .finish c o ∈ es ∧ v = o.map some := by
  induction es generalizing s with
  | nil =>
    cases hsteps
    exact .inl hv
  | cons e es ih =>
    rw [steps, Option.bind_eq_some_iff] at hsteps
    obtain ⟨u, hu, hrest⟩ := hsteps
    rcases ih hrest with hbefore | ⟨o, hmem, ho⟩
    · rcases outcome_of_step henter hu hbefore with hs | ⟨o, rfl, ho⟩
      · exact .inl hs
      · exact .inr ⟨o, List.mem_cons_self, ho⟩
    · exact .inr ⟨o, List.mem_cons_of_mem _ hmem, ho⟩

/-- When no body runs and no reaction can, a call whose turn has come has settled. -/
theorem settled_of_quiet_of_prev (h : Inv s) (hrunning : s.running = []) (hquiet : s.Quiet)
    (hc : c.2 < s.calls c.1) (hprev : s.settled (prev c) ≠ none) :
    c ∈ s.started ∧ s.settled (.run c) ≠ none ∧ s.settled (.tail c) ≠ none := by
  have hstarted : c ∈ s.started := by
    by_contra hnot
    exact hprev (hquiet _ ((h.registered.start _ c).mpr ⟨rfl, hc, hnot⟩))
  have hbody : s.settled (.body c) ≠ none := by
    intro hnone
    have hmem := mem_running.mpr ⟨hstarted, hnone⟩
    rw [hrunning] at hmem
    cases hmem
  have hrun : s.settled (.run c) ≠ none := by
    intro hnone
    exact hbody (hquiet _ ((h.registered.adopt _ c).mpr ⟨rfl, hstarted, hnone⟩))
  have htail : s.settled (.tail c) ≠ none := by
    intro hnone
    exact hrun (hquiet _ ((h.registered.forget _ c).mpr ⟨rfl, hc, hnone⟩))
  exact ⟨hstarted, hrun, htail⟩

/-- A body that has failed lets the next one go like any other. -/
theorem settled_of_quiet (h : Inv s) (hrunning : s.running = []) (hquiet : s.Quiet) (k : κ) (i : ℕ)
    (hi : i < s.calls k) :
    (k, i) ∈ s.started ∧ s.settled (.run (k, i)) ≠ none ∧ s.settled (.tail (k, i)) ≠ none := by
  induction i with
  | zero => exact settled_of_quiet_of_prev h hrunning hquiet hi h.chained.resolved
  | succ i ih =>
    obtain ⟨-, -, htail⟩ := ih (by omega)
    exact settled_of_quiet_of_prev h hrunning hquiet hi htail

theorem startedOf_of_quiet (h : Inv s) (hrunning : s.running = []) (hquiet : s.Quiet) (k : κ) :
    s.startedOf k = List.range (s.calls k) := by
  have hge : s.calls k ≤ (s.startedOf k).length := by
    by_contra hlt
    obtain ⟨hstarted, -, -⟩ := settled_of_quiet h hrunning hquiet k (s.startedOf k).length (by omega)
    have hself := (mem_started_iff h).mp hstarted
    exact Nat.lt_irrefl _ hself
  rw [h.order k, Nat.le_antisymm (length_startedOf_le h k) hge]

end Runs

section Work

variable {key : A → Option κ} {enter : A → State κ ε α → State κ ε α} {s t : State κ ε α}
  {e : Event A κ ε α} {c : Call κ} {p : Promise κ} {v : Except ε (Option α)}

def Reaction.weight : Reaction κ → ℕ
  | .start _ => 3
  | .adopt _ => 1
  | .forget _ => 1

def totalWeight : List (Promise κ × Reaction κ) → ℕ
  | [] => 0
  | x :: xs => x.2.weight + totalWeight xs

/-- How many events other than calls are still to come. -/
def State.work (s : State κ ε α) : ℕ := totalWeight s.reactions + s.running.length

omit [DecidableEq κ] in
theorem totalWeight_append (xs ys : List (Promise κ × Reaction κ)) :
    totalWeight (xs ++ ys) = totalWeight xs + totalWeight ys := by
  induction xs with
  | nil => simp [totalWeight]
  | cons x xs ih =>
    rw [List.cons_append, totalWeight, totalWeight, ih]
    omega

theorem totalWeight_erase {xs : List (Promise κ × Reaction κ)} {x : Promise κ × Reaction κ}
    (hmem : x ∈ xs) : x.2.weight + totalWeight (xs.erase x) = totalWeight xs := by
  induction xs with
  | nil => cases hmem
  | cons y xs ih =>
    by_cases heq : y = x
    · rw [heq, List.erase_cons_head, totalWeight]
    · have hrest : x ∈ xs := by
        rcases List.mem_cons.mp hmem with hx | hx
        · exact absurd hx.symm heq
        · exact hx
      have hsum := ih hrest
      rw [List.erase_cons_tail (by simpa using heq), totalWeight, totalWeight]
      omega

/-- Every event that is not a call uses up work. -/
theorem work_perform {r : Reaction κ} (h : Inv s) (hmem : (p, r) ∈ s.reactions) :
    (State.perform v r { s with reactions := s.reactions.erase (p, r) }).work < s.work := by
  have hsum := totalWeight_erase hmem
  cases r with
  | start c =>
    obtain ⟨-, -, hnot⟩ := (h.registered.start p c).mp hmem
    have hbody := (h.chained.unsettled hnot).1
    simp only [State.work, State.perform, State.register, State.running, totalWeight_append,
      totalWeight, List.filter_append, List.length_append, List.filter_cons, List.filter_nil, hbody,
      Option.isNone_none, if_true, List.length_cons, List.length_nil, Reaction.weight] at hsum ⊢
    omega
  | adopt c =>
    simp only [State.work, State.perform, State.running, settled_settle, reduceCtorEq, if_false]
    simp only [State.settle, Reaction.weight] at hsum ⊢
    omega
  | forget c =>
    simp only [State.work, State.perform, State.running, settled_settle, reduceCtorEq, if_false]
    simp only [State.settle, Reaction.weight] at hsum ⊢
    omega

theorem running_settle (s : State κ ε α) (c : Call κ) (v : Except ε (Option α)) :
    (s.settle (.body c) v).running = s.running.filter (· ≠ c) := by
  rw [State.running, State.running, List.filter_filter]
  apply List.filter_congr
  intro d _
  rw [settled_settle]
  by_cases heq : d = c
  · simp [heq]
  · simp [heq]

theorem work_finish (hc : c ∈ s.running) : (s.settle (.body c) v).work < s.work := by
  have hlt : (s.running.filter (· ≠ c)).length < s.running.length := by
    rw [List.length_filter_lt_length_iff_exists]
    exact ⟨c, hc, by simp⟩
  rw [State.work, State.work, running_settle]
  simp only [State.settle]
  omega

theorem work_step (h : Inv s) (hcall : ∀ a, e ≠ .call a) (hstep : step enter s e = some t) :
    t.work < s.work := by
  cases e with
  | call a => exact absurd rfl (hcall a)
  | react p r =>
    obtain ⟨hmem, v, -, rfl⟩ := step_react hstep
    exact work_perform h hmem
  | finish c outcome =>
    obtain ⟨hc, rfl⟩ := step_finish hstep
    exact work_finish hc

/-- An event that is no call, with the outcomes that the bodies are to have. -/
def Event.Follows (outcome : Call κ → Except ε α) : Event A κ ε α → Prop
  | .call _ => False
  | .react _ _ => True
  | .finish c o => o = outcome c

/-- Whatever the outcomes of the bodies, they and the reactions come to an end. -/
theorem exists_quiet (henter : Enters key enter) (outcome : Call κ → Except ε α) (h : Inv s) :
    ∃ es : List (Event A κ ε α), (∀ e ∈ es, e.Follows outcome) ∧
      ∃ t, steps enter s es = some t ∧ t.running = [] ∧ t.Quiet := by
  induction hwork : s.work using Nat.strongRecOn generalizing s with
  | _ n ih =>
    have hnext : ∀ {e : Event A κ ε α} {u}, e.Follows outcome → step enter s e = some u →
        ∃ es : List (Event A κ ε α), (∀ e ∈ es, e.Follows outcome) ∧
          ∃ t, steps enter s es = some t ∧ t.running = [] ∧ t.Quiet := by
      intro e u hfollows hu
      have hcall : ∀ a, e ≠ .call a := by
        rintro a rfl
        exact hfollows
      have hlt := work_step h hcall hu
      obtain ⟨es, hes, t, ht, hdone⟩ := ih u.work (by omega) (inv_step henter h hu) rfl
      refine ⟨e :: es, List.forall_mem_cons.mpr ⟨hfollows, hes⟩, t, ?_, hdone⟩
      rw [steps, hu]
      exact ht
    by_cases hrunning : s.running = []
    · by_cases hquiet : s.Quiet
      · exact ⟨[], by simp, s, rfl, hrunning, hquiet⟩
      · rw [State.Quiet] at hquiet
        push Not at hquiet
        obtain ⟨⟨p, r⟩, hmem, hsettled⟩ := hquiet
        obtain ⟨v, hv⟩ := Option.ne_none_iff_exists'.mp hsettled
        have hstep : step enter s (.react p r) =
            some (State.perform v r { s with reactions := s.reactions.erase (p, r) }) := by
          rw [step, if_pos hmem, hv, Option.map_some]
        have hfollows : (Event.react p r : Event A κ ε α).Follows outcome := trivial
        exact hnext hfollows hstep
    · obtain ⟨c, hc⟩ := List.exists_mem_of_ne_nil _ hrunning
      have hstep : step enter s (.finish c (outcome c)) =
          some (s.settle (.body c) ((outcome c).map some)) := by
        rw [step, if_pos hc]
      have hfollows : (Event.finish c (outcome c) : Event A κ ε α).Follows outcome := rfl
      exact hnext hfollows hstep

end Work

end PromiseLock
