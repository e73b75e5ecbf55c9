import Mathlib.Algebra.Order.Floor.Semiring
import Mathlib.Data.List.Nodup
import Mathlib.Data.Rat.Floor
import Tokenable.Async.Admission
import Tokenable.Js.Text

/-!
# The cap on RPC calls in flight

`RpcSemaphore.run` waits for a permit, runs its task and gives the permit back in a `finally`. A
permit is taken in three places: `acquire` counts a call up that finds room, and a call that finds
none leaves a callback, which `release` runs and which counts up in its turn. Who holds a permit is
at every moment who would be admitted in call order (`Admission`).
-/

namespace Chain
open Js

/-- `RPC_MAX_CONCURRENCY`; `number` is `Number`, without its infinities. -/
def rpcMaxConcurrency (number : JsStr → Option ℚ) (raw : Option JsStr) : ℕ :=
  if !truthy raw then 2
  else
    match number (raw.getD []) with
    | some n => if 1 ≤ n then min ⌊n⌋₊ 8 else 2
    | none => 2

theorem rpcMaxConcurrency_mem (number : JsStr → Option ℚ) (raw : Option JsStr) :
    1 ≤ rpcMaxConcurrency number raw ∧ rpcMaxConcurrency number raw ≤ 8 := by
  unfold rpcMaxConcurrency
  split_ifs
  · omega
  · cases number (raw.getD []) with
    | none =>
      show 1 ≤ 2 ∧ 2 ≤ 8
      omega
    | some n =>
      by_cases hn : 1 ≤ n
      · have hfloor : 1 ≤ ⌊n⌋₊ := Nat.le_floor (by exact_mod_cast hn)
        simp only [if_pos hn]
        omega
      · simp only [if_neg hn]
        omega

end Chain

/-- `queue` holds the callbacks of the calls that wait, by the number of the call. -/
structure RpcSemaphore where
  inflight : ℤ
  queue : List ℕ
  deriving DecidableEq

namespace RpcSemaphore
open Js

/-- The semaphore with the calls of `run`, numbered in call order. `ready` holds the calls whose
`acquire` has resolved and whose continuation is in the job queue, `started` those whose task has
been called, `results` how `run` has settled. -/
structure State (ε α : Type) where
  sem : RpcSemaphore
  calls : ℕ
  ready : List ℕ
  started : List ℕ
  results : List (ℕ × Except ε α)

variable {ε α : Type}

def initial : State ε α := ⟨⟨0, []⟩, 0, [], [], []⟩

def acquire (max i : ℕ) (s : State ε α) : State ε α :=
  if s.sem.inflight < max then
    { s with sem := ⟨s.sem.inflight + 1, s.sem.queue⟩, ready := s.ready ++ [i] }
  else { s with sem := ⟨s.sem.inflight, s.sem.queue ++ [i]⟩ }

def release (s : State ε α) : State ε α :=
  let inflight := s.sem.inflight - 1
  match s.sem.queue with
  | [] => { s with sem := ⟨inflight, []⟩ }
  | next :: rest => { s with sem := ⟨inflight + 1, rest⟩, ready := s.ready ++ [next] }

def State.settled (s : State ε α) : List ℕ := s.results.map Prod.fst

/-- The calls whose task has begun and has not settled. -/
def State.running (s : State ε α) : List ℕ := s.started.filter (· ∉ s.settled)

/-- The calls that have been given a permit and have not given it back. -/
def State.holders (s : State ε α) : List ℕ := (s.started ++ s.ready).filter (· ∉ s.settled)

/-- What can happen next: a call of `run`, up to its `await`; the continuation of the call whose
permit was granted first, up to the call of its task; the end of a task, which may also throw before
its first `await`. -/
inductive Event (ε α : Type) where
  | run
  | resume
  | settle (i : ℕ) (outcome : Except ε α)

def step (max : ℕ) (s : State ε α) : Event ε α → Option (State ε α)
  | .run => some (acquire max s.calls { s with calls := s.calls + 1 })
  | .resume =>
    match s.ready with
    | [] => none
    | i :: rest => some { s with ready := rest, started := s.started ++ [i] }
  | .settle i outcome =>
    -- `finally` gives the permit back and passes the outcome on as it is
    if i ∈ s.running then some (release { s with results := s.results ++ [(i, outcome)] }) else none

def steps (max : ℕ) : State ε α → List (Event ε α) → Option (State ε α)
  | s, [] => some s
  | s, e :: es => (step max s e).bind fun t => steps max t es

/-- The semaphore admits in call order: the calls that were given a permit, in the order in which
they got it, and the calls that wait, in the order of the queue. -/
structure Inv (max : ℕ) (s : State ε α) : Prop where
  granted : s.started ++ s.ready = Admission.admitted max (List.range s.calls) s.results.length
  queue : s.sem.queue = Admission.waiting max (List.range s.calls) s.results.length
  inflight : s.sem.inflight + s.results.length = (s.started ++ s.ready).length
  subset : s.settled ⊆ s.started
  nodup : s.settled.Nodup

variable {max i : ℕ} {s t : State ε α} {outcome : Except ε α}

theorem inv_initial (max : ℕ) : Inv max (initial : State ε α) where
  granted := by simp [initial, Admission.admitted]
  queue := by simp [initial, Admission.waiting]
  inflight := rfl
  subset := List.nil_subset _
  nodup := List.nodup_nil

/-- There is a free permit exactly when the next call would be admitted at once. -/
theorem inflight_lt_iff (h : Inv max s) :
    s.sem.inflight < max ↔ s.calls < max + s.results.length := by
  have hroom := Admission.length_admitted_lt_iff max (List.range s.calls) s.results.length
  rw [← h.granted, List.length_range] at hroom
  have hcount := h.inflight
  omega

theorem inv_run (h : Inv max s) : Inv max (acquire max s.calls { s with calls := s.calls + 1 }) := by
  have hrange : List.range (s.calls + 1) = List.range s.calls ++ [s.calls] := List.range_succ
  by_cases hroom : s.sem.inflight < max
  · have hlt : (List.range s.calls).length < max + s.results.length := by
      rw [List.length_range]
      exact (inflight_lt_iff h).mp hroom
    rw [acquire, if_pos hroom]
    refine ⟨?_, ?_, ?_, h.subset, h.nodup⟩
    · rw [hrange, Admission.admitted_arrive_of_room _ hlt, ← h.granted, List.append_assoc]
    · rw [hrange, Admission.waiting_arrive_of_room _ hlt]
      exact h.queue
    · have hcount := h.inflight
      simp only [List.length_append, List.length_singleton] at hcount ⊢
      omega
  · have hge : max + s.results.length ≤ (List.range s.calls).length := by
      rw [List.length_range]
      have hiff := inflight_lt_iff h
      omega
    rw [acquire, if_neg hroom]
    refine ⟨?_, ?_, h.inflight, h.subset, h.nodup⟩
    · rw [hrange, Admission.admitted_arrive_of_full _ hge]
      exact h.granted
    · rw [hrange, Admission.waiting_arrive_of_full _ hge, ← h.queue]

theorem inv_resume {rest : List ℕ} (h : Inv max s) (hready : s.ready = i :: rest) :
    Inv max { s with ready := rest, started := s.started ++ [i] } := by
  have hsame : s.started ++ [i] ++ rest = s.started ++ s.ready := by
    rw [hready, List.append_assoc, List.singleton_append]
  refine ⟨?_, h.queue, ?_, ?_, h.nodup⟩
  · rw [hsame]
    exact h.granted
  · rw [hsame]
    exact h.inflight
  · exact List.Subset.trans h.subset (List.subset_append_left _ _)

theorem mem_running : i ∈ s.running ↔ i ∈ s.started ∧ i ∉ s.settled := by
  rw [State.running, List.mem_filter, decide_eq_true_eq]

/-- The callback of the call that has waited longest counts it up again at once. -/
theorem release_eq (s : State ε α) :
    release s =
      { s with
        sem := ⟨s.sem.inflight - 1 + s.sem.queue.head?.toList.length, s.sem.queue.tail⟩
        ready := s.ready ++ s.sem.queue.head?.toList } := by
  obtain ⟨⟨inflight, queue⟩, calls, ready, started, results⟩ := s
  cases queue with
  | nil => simp [release]
  | cons next rest => simp [release]

theorem settled_append (s : State ε α) (i : ℕ) (outcome : Except ε α) :
    (s.results ++ [(i, outcome)]).map Prod.fst = s.settled ++ [i] := by
  rw [List.map_append, State.settled, List.map_singleton]

theorem inv_settle (h : Inv max s) (hi : i ∈ s.running) :
    Inv max (release { s with results := s.results ++ [(i, outcome)] }) := by
  rw [mem_running] at hi
  have hlength : (s.results ++ [(i, outcome)]).length = s.results.length + 1 := by
    rw [List.length_append, List.length_singleton]
  have hcount := h.inflight
  rw [release_eq]
  refine ⟨?_, ?_, ?_, ?_, ?_⟩
  · rw [hlength, Admission.admitted_leave, ← h.granted, ← h.queue, List.append_assoc]
  · rw [hlength, Admission.waiting_leave, ← h.queue]
  · rw [hlength, ← List.append_assoc, List.length_append]
    push_cast
    omega
  · rw [State.settled, settled_append]
    intro j hj
    rcases List.mem_append.mp hj with hj | hj
    · exact h.subset hj
    · rw [List.mem_singleton.mp hj]
      exact hi.1
  · rw [State.settled, settled_append, List.nodup_append]
    refine ⟨h.nodup, List.nodup_singleton i, ?_⟩
    intro j hj k hk heq
    rw [List.mem_singleton.mp hk] at heq
    exact hi.2 (heq ▸ hj)

theorem inv_step {e : Event ε α} (h : Inv max s) (hstep : step max s e = some t) : Inv max t := by
  cases e with
  | run =>
    cases hstep
    exact inv_run h
  | resume =>
    rw [step] at hstep
    cases hready : s.ready with
    | nil =>
      rw [hready] at hstep
      cases hstep
    | cons i rest =>
      rw [hready] at hstep
      cases hstep
      exact inv_resume h hready
  | settle i outcome =>
    rw [step] at hstep
    by_cases hi : i ∈ s.running
    · rw [if_pos hi] at hstep
      cases hstep
      exact inv_settle h hi
    · rw [if_neg hi] at hstep
      cases hstep

theorem inv_steps {es : List (Event ε α)} (h : Inv max s) (hsteps : steps max s es = some t) :
    Inv max t := by
  induction es generalizing s with
  | nil =>
    cases hsteps
    exact h
  | cons e es ih =>
    rw [steps, Option.bind_eq_some_iff] at hsteps
    obtain ⟨u, hu, hrest⟩ := hsteps
    exact ih (inv_step h hu) hrest

section Permits

theorem nodup_granted (h : Inv max s) : (s.started ++ s.ready).Nodup := by
  rw [h.granted]
  exact (List.take_sublist _ _).nodup List.nodup_range

/-- A permit is held by each call that was given one and has not settled, with either outcome. -/
theorem length_filter_add (h : Inv max s) {l : List ℕ} (hl : l.Nodup) (hsub : s.settled ⊆ l) :
    (l.filter (· ∉ s.settled)).length + s.results.length = l.length := by
  have hperm : (l.filter (· ∈ s.settled)).Perm s.settled := by
    apply (List.perm_ext_iff_of_nodup (hl.filter _) h.nodup).mpr
    intro j
    rw [List.mem_filter, decide_eq_true_eq]
    exact ⟨fun hj => hj.2, fun hj => ⟨hsub hj, hj⟩⟩
  have hlength := hperm.length_eq
  have hsplit := List.length_eq_length_filter_add (l := l) (fun j => decide (j ∈ s.settled))
  have hnot : (l.filter fun j => !decide (j ∈ s.settled)) = l.filter (· ∉ s.settled) := by
    apply List.filter_congr
    intro j _
    exact (decide_not ..).symm
  rw [State.settled, List.length_map] at hlength
  rw [hnot] at hsplit
  rw [State.settled] at *
  omega

theorem inflight_eq (h : Inv max s) : s.sem.inflight = s.holders.length := by
  have hsub : s.settled ⊆ s.started ++ s.ready :=
    List.Subset.trans h.subset (List.subset_append_left _ _)
  have hcount := length_filter_add h (nodup_granted h) hsub
  have hinflight := h.inflight
  rw [State.holders]
  omega

theorem length_holders_le (h : Inv max s) : s.holders.length ≤ max := by
  have hle := Admission.length_admitted_le max (List.range s.calls) s.results.length
  rw [← h.granted] at hle
  have hinflight := h.inflight
  have heq := inflight_eq h
  omega

/-- Whenever a call waits, all permits are held. -/
theorem length_holders_of_waiting (h : Inv max s) (hwait : s.sem.queue ≠ []) :
    s.holders.length = max := by
  rw [h.queue] at hwait
  have hfull := Admission.length_admitted_of_waiting hwait
  rw [← h.granted] at hfull
  have hinflight := h.inflight
  have heq := inflight_eq h
  omega

theorem length_running_le (s : State ε α) : s.running.length ≤ s.holders.length := by
  rw [State.holders, List.filter_append, List.length_append]
  exact Nat.le_add_right _ _

theorem started_eq_range (h : Inv max s) : s.started = List.range s.started.length := by
  have htake : s.started = (s.started ++ s.ready).take s.started.length := by
    rw [List.take_left]
  rw [h.granted, Admission.admitted, List.take_take, List.take_range] at htake
  have hlength := congrArg List.length htake
  rw [List.length_range] at hlength
  rw [← hlength] at htake
  exact htake

/-- When no task runs and no continuation is left, every call has settled and every permit is
back. -/
theorem settled_of_idle (hmax : 1 ≤ max) (h : Inv max s) (hrunning : s.running = [])
    (hready : s.ready = []) :
    s.sem = ⟨0, []⟩ ∧ ∀ i < s.calls, i ∈ s.settled := by
  have hholders : s.holders = [] := by
    rw [State.holders, hready, List.append_nil]
    exact hrunning
  have hqueue : s.sem.queue = [] := by
    by_contra hwait
    have hfull := length_holders_of_waiting h hwait
    rw [hholders, List.length_nil] at hfull
    omega
  have hinflight := inflight_eq h
  rw [hholders] at hinflight
  refine ⟨?_, ?_⟩
  · rw [← hqueue]
    exact congrArg (RpcSemaphore.mk · s.sem.queue) hinflight
  · intro i hi
    have hall := Admission.admitted_append_waiting max (List.range s.calls) s.results.length
    rw [← h.granted, ← h.queue, hqueue, hready, List.append_nil, List.append_nil] at hall
    by_contra hnot
    have hmem : i ∈ s.running := by
      rw [mem_running, hall]
      exact ⟨List.mem_range.mpr hi, hnot⟩
    rw [hrunning] at hmem
    cases hmem

theorem waiting_not_granted (h : Inv max s) {j : ℕ} (hj : j ∈ s.sem.queue) :
    j ∉ s.started ++ s.ready := by
  have hall := Admission.admitted_append_waiting max (List.range s.calls) s.results.length
  have hnodup : (List.range s.calls).Nodup := List.nodup_range
  rw [← hall, ← h.granted, ← h.queue, List.nodup_append] at hnodup
  intro hgranted
  exact hnodup.2.2 j hgranted j hj rfl

/-- A task that settles, with either outcome, passes its permit on to the call that has waited
longest, or back. -/
theorem holders_settle (h : Inv max s) (hstep : step max s (.settle i outcome) = some t) :
    t.holders = s.holders.filter (· ≠ i) ++ s.sem.queue.head?.toList := by
  rw [step] at hstep
  by_cases hi : i ∈ s.running
  · rw [if_pos hi] at hstep
    cases hstep
    rw [mem_running] at hi
    rw [release_eq, State.holders, State.settled, settled_append, ← List.append_assoc,
      List.filter_append]
    congr 1
    · rw [State.holders, List.filter_filter]
      apply List.filter_congr
      intro j _
      simp [and_comm]
    · rw [List.filter_eq_self]
      intro j hj
      have hwait : j ∈ s.sem.queue := List.mem_of_mem_head? (Option.mem_toList.mp hj)
      have hnot := waiting_not_granted h hwait
      rw [List.mem_append, not_or] at hnot
      have hsettled : j ∉ s.settled := fun hmem => hnot.1 (h.subset hmem)
      have hne : j ≠ i := fun heq => hnot.1 (heq ▸ hi.1)
      simp [hsettled, hne]
  · rw [if_neg hi] at hstep
    cases hstep

end Permits

/-- The one semaphore of `withRpcProviderCall`: at most eight calls are in flight, whatever the
environment says, and a call is never left waiting when nothing is. -/
theorem withRpcProviderCall_capped (number : JsStr → Option ℚ) (raw : Option JsStr)
    (events : List (Event ε α)) {s : State ε α}
    (hsteps : steps (Chain.rpcMaxConcurrency number raw) initial events = some s) :
    s.running.length ≤ 8 ∧
      (s.running = [] → s.ready = [] → ∀ i < s.calls, i ∈ s.settled) := by
  obtain ⟨hone, height⟩ := Chain.rpcMaxConcurrency_mem number raw
  have h := inv_steps (inv_initial _) hsteps
  refine ⟨?_, ?_⟩
  · have hrunning := length_running_le s
    have hholders := length_holders_le h
    omega
  · intro hrunning hready
    exact (settled_of_idle hone h hrunning hready).2

/-- After any calls and any ends of their tasks: at most `max` tasks run, tasks have been started in
call order, all permits are held while a call waits, `inflight` counts exactly the calls that hold a
permit, a task that settles with either outcome passes its permit on or gives it back, and when
nothing is left to run every call has settled and every permit is back. -/
theorem permits_of_steps (max : ℕ) (hmax : 1 ≤ max) (events : List (Event ε α)) {s : State ε α}
    (hsteps : steps max initial events = some s) :
    s.running.length ≤ max ∧
    s.started = List.range s.started.length ∧
    (s.sem.queue ≠ [] → s.holders.length = max) ∧
    s.sem.inflight = s.holders.length ∧
    (∀ i outcome t, step max s (.settle i outcome) = some t →
      t.holders = s.holders.filter (· ≠ i) ++ s.sem.queue.head?.toList) ∧
    (s.running = [] → s.ready = [] → s.sem = ⟨0, []⟩ ∧ ∀ i < s.calls, i ∈ s.settled) := by
  have h : Inv max s := inv_steps (inv_initial max) hsteps
  refine ⟨?_, started_eq_range h, length_holders_of_waiting h, inflight_eq h, ?_,
    settled_of_idle hmax h⟩
  · exact (length_running_le s).trans (length_holders_le h)
  · intro i outcome t hstep
    exact holders_settle h hstep

/-- Three calls under one permit, the second of which fails. -/
theorem permits_of_steps_one :
    ∃ s : State Unit Unit,
      steps 1 initial [.run, .run, .run, .resume, .settle 0 (.ok ()), .resume,
        .settle 1 (.error ()), .resume, .settle 2 (.ok ())] = some s ∧
      s.running.length ≤ 1 ∧ s.sem = ⟨0, []⟩ := by
  refine ⟨_, rfl, ?_⟩
  have h := permits_of_steps 1 le_rfl
    ([.run, .run, .run, .resume, .settle 0 (.ok ()), .resume, .settle 1 (.error ()), .resume,
      .settle 2 (.ok ())] : List (Event Unit Unit)) rfl
  exact ⟨h.1, (h.2.2.2.2.2 rfl rfl).1⟩

end RpcSemaphore
