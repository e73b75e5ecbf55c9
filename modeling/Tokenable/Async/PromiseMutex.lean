import Tokenable.Async.Mutex
import Tokenable.Async.PromiseLock

/-!
# Chained promises are mutexes

The map of chained promises does what `LockCmd` says of a lock: a call joins the chain of its key,
its body starts when nobody is inside and the call is the first in the chain, and leaves when it
settles. The reactions that pass an outcome on change nothing about who is inside or waits.
-/

namespace PromiseLock
open Async

variable {κ ε α A : Type} [DecidableEq κ] {s t : State κ ε α} {c : Call κ} {k : κ} {p : Promise κ}
  {v : Except ε (Option α)}

/-- Who is inside and who waits, by the numbers of the calls for a key. -/
def State.locks (s : State κ ε α) : Locks κ := fun k =>
  ⟨((s.running.filter (·.1 = k)).head?).map Prod.snd,
    (List.range (s.calls k)).drop (s.startedOf k).length⟩

theorem holder_eq_none_iff :
    (s.locks k).holder = none ↔ ∀ i, (k, i) ∉ s.running := by
  rw [State.locks, Option.map_eq_none_iff, List.head?_eq_none_iff, List.filter_eq_nil_iff]
  constructor
  · intro h i hi
    exact h _ hi (by simp)
  · rintro h ⟨k', i⟩ hi hk
    rw [decide_eq_true_eq] at hk
    exact h i (hk ▸ hi)

theorem holder_eq_some (h : Inv s) {i : ℕ} (hi : (k, i) ∈ s.running) :
    (s.locks k).holder = some i := by
  cases hholder : (s.locks k).holder with
  | none => exact absurd hi (holder_eq_none_iff.mp hholder i)
  | some j =>
    rw [State.locks, Option.map_eq_some_iff] at hholder
    obtain ⟨⟨k', j'⟩, hhead, rfl⟩ := hholder
    have hmem := List.mem_of_mem_head? hhead
    rw [List.mem_filter, decide_eq_true_eq] at hmem
    obtain ⟨hmem, rfl⟩ := hmem
    rw [eq_of_running h hmem hi]

/-- A call joins the chain of its key. -/
theorem locks_lock (h : Inv s) (k : κ) :
    (LockCmd.enqueue k).exec (s.calls k) s.locks = some (s.lock k).locks := by
  have hle := length_startedOf_le h k
  rw [LockCmd.exec]
  congr 1
  funext k'
  by_cases hk : k' = k
  · subst hk
    have hcalls : (s.lock k').calls k' = s.calls k' + 1 := Function.update_self ..
    have hwaiting : (List.range (s.calls k' + 1)).drop (s.startedOf k').length =
        (List.range (s.calls k')).drop (s.startedOf k').length ++ [s.calls k'] := by
      rw [List.range_succ, List.drop_append_of_le_length]
      rw [List.length_range]
      exact hle
    rw [Function.update_self, State.locks, State.locks, hcalls]
    exact congrArg (Lock.mk _) hwaiting.symm
  · have hcalls : (s.lock k).calls k' = s.calls k' := Function.update_of_ne hk ..
    rw [Function.update_of_ne hk, State.locks, State.locks, hcalls]
    rfl

/-- A body starts when nobody is inside and it is the first that waits. -/
theorem locks_start (h : Inv s) (hmem : (p, .start c) ∈ s.reactions) (hp : s.settled p = some v) :
    (LockCmd.turn c.1).exec c.2 s.locks =
      some (State.perform v (.start c) { s with reactions := s.reactions.erase (p, .start c) }).locks := by
  have hinv := inv_start h hmem hp
  obtain ⟨rfl, hcall, hnot⟩ := (h.registered.start p c).mp hmem
  have hprev : s.settled (prev c) ≠ none := by
    rw [hp]
    exact Option.some_ne_none v
  have hlength := length_startedOf_of_prev h hnot hprev
  have hbody := (h.chained.unsettled hnot).1
  -- whoever was inside has left, since its tail has settled
  have hfree : (s.locks c.1).holder = none := by
    rw [holder_eq_none_iff]
    intro i hi
    have hlast : i + 1 = (s.startedOf c.1).length := succ_eq_of_running h hi
    have hbefore : prev c = .tail (c.1, i) := by
      obtain ⟨k, m⟩ := c
      have hm : m = i + 1 := by
        rw [hlast, hlength]
      rw [hm, prev]
    rw [hbefore] at hprev
    exact h.chained.body_of_tail hprev (mem_running.mp hi).2
  have hwaiting : (s.locks c.1).waiting =
      c.2 :: (List.range (s.calls c.1)).drop (c.2 + 1) := by
    rw [State.locks, hlength, List.drop_eq_getElem_cons (by rwa [List.length_range]),
      List.getElem_range]
  generalize ht :
    State.perform v (.start c) { s with reactions := s.reactions.erase (prev c, .start c) } = t
  have hstartedOf : ∀ k, t.startedOf k = s.startedOf k ++ if c.1 = k then [c.2] else [] := by
    intro k
    rw [← ht]
    exact startedOf_append s c k
  have hrunning : t.running = s.running ++ [c] := by
    rw [← ht]
    simp [State.running, State.perform, State.register, hbody]
  have hcalls : t.calls = s.calls := by
    rw [← ht]
    rfl
  rw [ht] at hinv
  rw [LockCmd.exec, if_pos ⟨hfree, by rw [hwaiting, List.head?_cons]⟩]
  congr 1
  funext k
  by_cases hk : k = c.1
  · have hholder : (t.locks c.1).holder = some c.2 := by
      apply holder_eq_some hinv
      rw [hrunning]
      exact List.mem_append_right _ List.mem_cons_self
    have hwaiting' : (t.locks c.1).waiting = (List.range (s.calls c.1)).drop (c.2 + 1) := by
      rw [State.locks, hstartedOf, hcalls, if_pos rfl, List.length_append, hlength,
        List.length_singleton]
    rw [hk, Function.update_self, hwaiting, List.tail_cons, ← hholder, ← hwaiting']
  · have hne : ¬ c.1 = k := fun heq => hk heq.symm
    rw [Function.update_of_ne hk, State.locks, State.locks, hstartedOf, hcalls, hrunning, if_neg hne,
      List.append_nil, List.filter_append]
    simp [hne]

/-- A body that settles, with either outcome, leaves. -/
theorem locks_finish (h : Inv s) (hc : c ∈ s.running) :
    (LockCmd.release c.1).exec c.2 s.locks = some (s.settle (.body c) v).locks := by
  have hinv : Inv (s.settle (.body c) v) := inv_finish h hc
  rw [LockCmd.exec]
  congr 1
  funext k
  by_cases hk : k = c.1
  · have hfree : ((s.settle (.body c) v).locks c.1).holder = none := by
      rw [holder_eq_none_iff]
      intro i hi
      obtain ⟨hstarted, hnone⟩ := mem_running.mp hi
      rw [settled_settle] at hnone
      by_cases heq : (c.1, i) = c
      · rw [heq, if_pos rfl] at hnone
        cases hnone
      · have hi' : (c.1, i) ∈ s.running := by
          rw [mem_running]
          simp only [Promise.body.injEq, heq, if_false] at hnone
          exact ⟨hstarted, hnone⟩
        exact heq (Prod.ext rfl (eq_of_running h hi' hc))
    rw [hk, Function.update_self, ← hfree]
    rfl
  · have hrunning : (s.settle (.body c) v).running.filter (·.1 = k) =
        s.running.filter (·.1 = k) := by
      rw [running_settle, List.filter_filter]
      apply List.filter_congr
      intro d _
      by_cases hd : d.1 = k
      · have hne : d ≠ c := fun heq => hk (heq ▸ hd.symm)
        simp [hd, hne]
      · simp [hd]
    rw [Function.update_of_ne hk, State.locks, State.locks, hrunning]
    rfl

/-- Passing an outcome on is no step of the lock. -/
theorem locks_adopt (s : State κ ε α) (r : Promise κ × Reaction κ) :
    (State.perform v (.adopt c) { s with reactions := s.reactions.erase r }).locks = s.locks := by
  funext k
  simp only [State.locks, State.perform, State.running, settled_settle, reduceCtorEq, if_false]
  rfl

theorem locks_forget (s : State κ ε α) (r : Promise κ × Reaction κ) :
    (State.perform v (.forget c) { s with reactions := s.reactions.erase r }).locks = s.locks := by
  funext k
  simp only [State.locks, State.perform, State.running, settled_settle, reduceCtorEq, if_false]
  rfl

section Runs

variable {key : A → Option κ} {enter : A → State κ ε α → State κ ε α} {e : Event A κ ε α}
  {es : List (Event A κ ε α)}

def LockStep (l m : Locks κ) : Prop := ∃ i, ∃ cmd : LockCmd κ, cmd.exec i l = some m

theorem locks_step (henter : Enters key enter) (h : Inv s) (hstep : step enter s e = some t) :
    t.locks = s.locks ∨ LockStep s.locks t.locks := by
  cases e with
  | call a =>
    rcases step_call henter hstep with ⟨-, rfl⟩ | ⟨k, -, rfl⟩
    · exact .inl rfl
    · exact .inr ⟨_, _, locks_lock h k⟩
  | react p r =>
    obtain ⟨hmem, v, hv, rfl⟩ := step_react hstep
    cases r with
    | start c => exact .inr ⟨_, _, locks_start h hmem hv⟩
    | adopt c => exact .inl (locks_adopt s _)
    | forget c => exact .inl (locks_forget s _)
  | finish c outcome =>
    obtain ⟨hc, rfl⟩ := step_finish hstep
    exact .inr ⟨_, _, locks_finish h hc⟩

/-- Every run of the promises is a run of the lock commands. -/
theorem locks_steps (henter : Enters key enter) (h : Inv s) (hsteps : steps enter s es = some t) :
    Relation.ReflTransGen LockStep s.locks t.locks := by
  induction es generalizing s with
  | nil =>
    cases hsteps
    exact .refl
  | cons e es ih =>
    rw [steps, Option.bind_eq_some_iff] at hsteps
    obtain ⟨u, hu, hrest⟩ := hsteps
    have htail := ih (inv_step henter h hu) hrest
    rcases locks_step henter h hu with heq | hlock
    · rwa [heq] at htail
    · exact htail.head hlock

end Runs

end PromiseLock
