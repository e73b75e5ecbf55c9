import Mathlib.Logic.Relation
import Tokenable.Async.Prog

/-!
# Interleaved runs of async functions

A pool is one shared state and the async functions running on it. A step starts a function or
performs the pending command of one of them: between two commands a function is never
interrupted. A `Handler` gives the effect of a command, with `x : X` for what the outside world
chooses; `none` means that the command cannot proceed (yet).

`Allowed` restricts the steps of a run by the state before the step and the pending command.
-/

namespace Async

abbrev Handler (σ X C : Type) (R : C → Type) := ℕ → σ → X → (c : C) → Option (R c × σ)

/-- A condition on a step of task `i`: the shared state before it and the pending command. -/
abbrev Allowed (σ C : Type) := ℕ → σ → C → Prop

def anyStep {σ C : Type} : Allowed σ C := fun _ _ _ => True

instance {σ C : Type} (i : ℕ) (s : σ) (c : C) : Decidable (anyStep i s c) := .isTrue trivial

structure Pool (σ : Type) (C : Type) (R : C → Type) (ε α : Type) where
  shared : σ
  tasks : List (Prog C R ε α)

namespace Pool

variable {σ X C ι : Type} {R : C → Type} {ε α : Type}

inductive Step (H : Handler σ X C R) (entry : ι → Prog C R ε α) (Ok : Allowed σ C) :
    Pool σ C R ε α → Pool σ C R ε α → Prop where
  | spawn (s : σ) (ts : List (Prog C R ε α)) (a : ι) :
      Step H entry Ok ⟨s, ts⟩ ⟨s, ts ++ [entry a]⟩
  | run (s u : σ) (ts : List (Prog C R ε α)) (i : ℕ) (x : X) (c : C) (r : R c)
      (next : R c → Prog C R ε α) (hi : ts[i]? = some (.call c next)) (hok : Ok i s c)
      (hu : H i s x c = some (r, u)) :
      Step H entry Ok ⟨s, ts⟩ ⟨u, ts.set i (next r)⟩

def Reach (H : Handler σ X C R) (entry : ι → Prog C R ε α) (Ok : Allowed σ C) :
    Pool σ C R ε α → Pool σ C R ε α → Prop :=
  Relation.ReflTransGen (Step H entry Ok)

/-- One entry of a schedule: start a call, or run the next command of task `i`. -/
inductive Event (ι X : Type) where
  | spawn (a : ι)
  | run (i : ℕ) (x : X)

/-- `none` when the step is blocked, not allowed, or the task has already settled. -/
def fire (H : Handler σ X C R) (entry : ι → Prog C R ε α) (Ok : Allowed σ C)
    [∀ i s c, Decidable (Ok i s c)] (p : Pool σ C R ε α) : Event ι X → Option (Pool σ C R ε α)
  | .spawn a => some ⟨p.shared, p.tasks ++ [entry a]⟩
  | .run i x =>
    match p.tasks[i]? with
    | some (.call c next) =>
      if Ok i p.shared c then
        (H i p.shared x c).map fun ru => ⟨ru.2, p.tasks.set i (next ru.1)⟩
      else none
    | _ => none

def runSchedule (H : Handler σ X C R) (entry : ι → Prog C R ε α) (Ok : Allowed σ C)
    [∀ i s c, Decidable (Ok i s c)] : List (Event ι X) → Pool σ C R ε α → Option (Pool σ C R ε α)
  | [], p => some p
  | e :: es, p => (fire H entry Ok p e).bind (runSchedule H entry Ok es)

section
variable {H : Handler σ X C R} {entry : ι → Prog C R ε α} {Ok : Allowed σ C}
  [∀ i s c, Decidable (Ok i s c)]

theorem step_of_fire {p q : Pool σ C R ε α} {e : Event ι X} (hq : fire H entry Ok p e = some q) :
    Step H entry Ok p q := by
  obtain ⟨s, ts⟩ := p
  cases e with
  | spawn a =>
    obtain rfl := Option.some.inj hq
    exact .spawn s ts a
  | run i x =>
    simp only [fire] at hq
    split at hq
    · rename_i c next hi
      split_ifs at hq with hok
      obtain ⟨⟨r, u⟩, hu, rfl⟩ := Option.map_eq_some_iff.mp hq
      exact .run s u ts i x c r next hi hok hu
    · cases hq

/-- A schedule that plays to the end is a run. -/
theorem reach_of_runSchedule {es : List (Event ι X)} {p q : Pool σ C R ε α}
    (hq : runSchedule H entry Ok es p = some q) : Reach H entry Ok p q := by
  induction es generalizing p with
  | nil =>
    obtain rfl := Option.some.inj hq
    exact .refl
  | cons e es ih =>
    obtain ⟨p', hp', hq'⟩ := Option.bind_eq_some_iff.mp hq
    exact .head (step_of_fire hp') (ih hq')

/-- What a schedule shows at its end is reached by a run. -/
theorem exists_reach_of_runSchedule {β : Type} (es : List (Event ι X)) {p : Pool σ C R ε α}
    (f : Pool σ C R ε α → β) {v : β} (hv : (runSchedule H entry Ok es p).map f = some v) :
    ∃ q, Reach H entry Ok p q ∧ f q = v := by
  obtain ⟨q, hq, hfq⟩ := Option.map_eq_some_iff.mp hv
  exact ⟨q, reach_of_runSchedule hq, hfq⟩

/-- The same at two points of one run. -/
theorem exists_reach_of_two_schedules {β : Type} (es es' : List (Event ι X))
    {p : Pool σ C R ε α} (f : Pool σ C R ε α → β) {v v' : β}
    (hv : ((runSchedule H entry Ok es p).bind fun q =>
      (runSchedule H entry Ok es' q).map fun q' => (f q, f q')) = some (v, v')) :
    ∃ q q', Reach H entry Ok p q ∧ Reach H entry Ok q q' ∧ f q = v ∧ f q' = v' := by
  obtain ⟨q, hq, hrest⟩ := Option.bind_eq_some_iff.mp hv
  obtain ⟨q', hq', hpair⟩ := Option.map_eq_some_iff.mp hrest
  obtain ⟨hfq, hfq'⟩ := Prod.mk.inj hpair
  exact ⟨q, q', reach_of_runSchedule hq, reach_of_runSchedule hq', hfq, hfq'⟩

/-- The same around one step of a run. -/
theorem exists_step_of_runSchedule {β : Type} (es : List (Event ι X)) (e : Event ι X)
    {p : Pool σ C R ε α} (f : Pool σ C R ε α → β) {v v' : β}
    (hv : ((runSchedule H entry Ok es p).bind fun q =>
      (fire H entry Ok q e).map fun q' => (f q, f q')) = some (v, v')) :
    ∃ q q', Reach H entry Ok p q ∧ Step H entry Ok q q' ∧ f q = v ∧ f q' = v' := by
  obtain ⟨q, hq, hrest⟩ := Option.bind_eq_some_iff.mp hv
  obtain ⟨q', hq', hpair⟩ := Option.map_eq_some_iff.mp hrest
  obtain ⟨hfq, hfq'⟩ := Prod.mk.inj hpair
  exact ⟨q, q', reach_of_runSchedule hq, step_of_fire hq', hfq, hfq'⟩

end

/-- What every step of the tasks keeps, each command being issued on answers from states that have
it, every state of a run has. -/
theorem keeps_of_issuesGiven {H : Handler σ X C R} {entry : ι → Prog C R ε α} {Ok : Allowed σ C}
    {Ans : (c : C) → R c → Prop} {P : C → Prop} {K : σ → Prop}
    (hstep : ∀ i s x c r u, K s → P c → Ok i s c → H i s x c = some (r, u) → Ans c r ∧ K u)
    (hentry : ∀ a, (entry a).IssuesGiven Ans P) {s : σ} {p : Pool σ C R ε α} (hs : K s)
    (hp : Reach H entry Ok ⟨s, []⟩ p) : K p.shared := by
  have hboth : K p.shared ∧ ∀ t ∈ p.tasks, t.IssuesGiven Ans P := by
    induction hp with
    | refl => exact ⟨hs, fun t ht => by cases ht⟩
    | tail _ hstep' ih =>
      obtain ⟨hK, htasks⟩ := ih
      cases hstep' with
      | spawn s ts a =>
        refine ⟨hK, fun t ht => ?_⟩
        rcases List.mem_append.mp ht with hold | hnew
        · exact htasks t hold
        · exact List.mem_singleton.mp hnew ▸ hentry a
      | run s u ts i x c r next hi hok hu =>
        obtain ⟨hc, hnext⟩ := htasks _ (List.mem_of_getElem? hi)
        obtain ⟨hr, hK'⟩ := hstep i s x c r u hK hc hok hu
        refine ⟨hK', fun t ht => ?_⟩
        rcases List.mem_or_eq_of_mem_set ht with hold | rfl
        · exact htasks t hold
        · exact hnext r hr
  exact hboth.1

/-- The functions of a run still issue only the commands that they were entered for. -/
theorem issues_of_reach {H : Handler σ X C R} {entry : ι → Prog C R ε α} {Ok : Allowed σ C}
    {P : C → Prop} (hentry : ∀ a, (entry a).Issues P) {s : σ} {p : Pool σ C R ε α}
    (hp : Reach H entry Ok ⟨s, []⟩ p) {t : Prog C R ε α} (ht : t ∈ p.tasks) : t.Issues P := by
  induction hp generalizing t with
  | refl => cases ht
  | tail _ hstep ih =>
    cases hstep with
    | spawn s ts a =>
      rcases List.mem_append.mp ht with hold | hnew
      · exact ih hold
      · exact List.mem_singleton.mp hnew ▸ hentry a
    | run s u ts i x c r next hi hok hu =>
      rcases List.mem_or_eq_of_mem_set ht with hold | rfl
      · exact ih hold
      · exact (ih (List.mem_of_getElem? hi)).2 r

/-- What every command relates the states before and after it by, each step of a run does. -/
theorem step_relates {H : Handler σ X C R} {entry : ι → Prog C R ε α} {Ok : Allowed σ C}
    {P : C → Prop} {T : σ → σ → Prop} (hrefl : ∀ s, T s s)
    (hstep : ∀ i s x c r u, P c → Ok i s c → H i s x c = some (r, u) → T s u)
    (hentry : ∀ a, (entry a).Issues P) {s : σ} {p q : Pool σ C R ε α}
    (hp : Reach H entry Ok ⟨s, []⟩ p) (hq : Step H entry Ok p q) : T p.shared q.shared := by
  cases hq with
  | spawn s ts a => exact hrefl s
  | run s u ts i x c r next hi hok hu =>
    have htask := issues_of_reach hentry hp (List.mem_of_getElem? hi)
    exact hstep i s x c r u htask.1 hok hu

end Pool
end Async
