import Mathlib.Algebra.Order.Floor.Defs
import Mathlib.Data.Rat.Floor
import Tokenable.Async.KeyedQueue
import Tokenable.Js.Text

/-!
# The queue of snapshot refreshes

`CollectionMarketSnapshotSchedulerService` keeps the refresh jobs that wait in memory: a queue, the set
of its keys, the keys that wait for a retry after another pod held their lock, three kinds of timers and
the flag of the one drain that runs. Between two awaits its code runs alone, so an event is one call or
one timer or the end of one await, up to the next await of the drain.
-/

namespace Snapshots
open Js

inductive Reason where
  | cron | staleSwr | coldStart | manual | priceWebhook | priceDelta
  | other (text : JsStr)
  deriving DecidableEq

structure Job where
  collectionKey : JsStr
  reason : Reason
  priority : ℕ
  enqueuedAt : ℕ
  attempt : ℕ
  deriving DecidableEq

def priorityForReason : Reason → ℕ
  | .coldStart => 100
  | .staleSwr => 80
  | .manual => 60
  | .priceWebhook => 95
  | .priceDelta => 55
  | .cron | .other _ => 40

def isDeferrableBackgroundReason (reason : Reason) : Bool :=
  reason = .coldStart || reason = .staleSwr || reason = .cron

/-- The comparison of `sort`: by descending priority, then by age. -/
def Job.before (a b : Job) : Prop :=
  b.priority < a.priority ∨ (a.priority = b.priority ∧ a.enqueuedAt ≤ b.enqueuedAt)

instance : DecidableRel Job.before := fun a b => by unfold Job.before; infer_instance

section Config

/-- The numbers in the environment: an unset variable, one that is no finite number, or a number. -/
structure Env where
  refreshConcurrency : Option (Option ℚ) := none
  maxQueueDepth : Option (Option ℚ) := none
  bulkColdStartCap : Option (Option ℚ) := none
  lockRetryMax : Option (Option ℚ) := none

/-- `Number(raw ?? fallback)` rounded down, or the fallback when it is not finite or below `least`. -/
def intSetting (raw : Option (Option ℚ)) (fallback least : ℕ) : ℕ :=
  match raw.getD (some fallback) with
  | none => fallback
  | some x => if x < least then fallback else ⌊x⌋.toNat

def Env.concurrency (env : Env) : ℕ := min (intSetting env.refreshConcurrency 4 1) 16

def Env.queueDepth (env : Env) : ℕ := min (intSetting env.maxQueueDepth 200 10) 2000

def Env.bulkColdStartEnqueueCap (env : Env) : ℕ := min (intSetting env.bulkColdStartCap 12 0) 60

def Env.retries (env : Env) : ℕ := intSetting env.lockRetryMax 3 0

end Config

/-- The jobs whose refresh does not need Cardhedger. -/
def needsNoCircuit (job : Job) : Bool := job.reason = .priceDelta || job.reason = .priceWebhook

/-- Where the running drain waits: for the jobs of a batch that have not settled, or for 200 ms. -/
inductive Await where
  | batch (locked : Bool) (running : List Job)
  | pause

structure Drain where
  pausedForCircuit : Bool
  await_ : Await

structure State where
  queue : List Job := []
  queuedKeys : Finset JsStr := ∅
  pendingLockRetries : Finset JsStr := ∅
  /-- The armed timers of `lockRetryTimers`, as the jobs they close over. -/
  lockRetryTimers : List Job := []
  processing : Bool := false
  drainTimer : Bool := false
  circuitDrainTimer : Bool := false
  droppedJobCount : ℕ := 0
  drain : Option Drain := none

structure Reading where
  now : ℕ
  circuitOpen : Bool

section Enqueue
variable (env : Env)

def scheduleDrain (s : State) : State :=
  if s.processing || s.drainTimer then s else { s with drainTimer := true }

def scheduleDrainAfterCircuitPause (s : State) : State :=
  if s.circuitDrainTimer then s else { s with circuitDrainTimer := true }

/-- `queue.push`, `queuedKeys.add` and `queue.sort`. -/
def pushJob (s : State) (job : Job) : State :=
  { s with
    queue := (s.queue ++ [job]).insertionSort Job.before
    queuedKeys := insert job.collectionKey s.queuedKeys }

/-- A full queue gives up its last job for one of a higher priority. -/
def makeRoom (priority : ℕ) (s : State) : Option State :=
  if s.queue.length < env.queueDepth then some s
  else
    match s.queue.getLast? with
    | none => none
    | some tail =>
      if priority ≤ tail.priority then none
      else some { s with
        queue := s.queue.dropLast
        queuedKeys := KeyedQueue.without Job.collectionKey s.queuedKeys [tail] }

def enqueue (x : Reading) (collectionKey : JsStr) (reason : Reason) (s : State) : State :=
  let key := lower collectionKey
  if key.isEmpty || key ∈ s.queuedKeys || key ∈ s.pendingLockRetries then s
  else if x.circuitOpen && isDeferrableBackgroundReason reason then s
  else
    match makeRoom env (priorityForReason reason) s with
    | none => { s with droppedJobCount := s.droppedJobCount + 1 }
    | some s => scheduleDrain (pushJob s ⟨key, reason, priorityForReason reason, x.now, 0⟩)

/-- Without a cap. -/
def enqueueEach (reason : Reason) : List (JsStr × Reading) → State → State
  | [], s => s
  | (raw, x) :: rest, s =>
    let key := lower (trim raw)
    enqueueEach reason rest (if key.isEmpty then s else enqueue env x key reason s)

/-- At most as many more jobs as are left of the cap. -/
def enqueueUpTo (reason : Reason) : ℕ → List (JsStr × Reading) → State → State
  | _, [], s => s
  | 0, _ :: _, s => s
  | left + 1, (raw, x) :: rest, s =>
    let key := lower (trim raw)
    if key.isEmpty || key ∈ s.queuedKeys || key ∈ s.pendingLockRetries then
      enqueueUpTo reason (left + 1) rest s
    else enqueueUpTo reason left rest (enqueue env x key reason s)

def enqueueBulkCapped (reason : Reason) (collectionKeys : List (JsStr × Reading)) (s : State) : State :=
  if env.bulkColdStartEnqueueCap = 0 then enqueueEach env reason collectionKeys s
  else enqueueUpTo env reason env.bulkColdStartEnqueueCap collectionKeys s

end Enqueue

section Drain
variable (env : Env)

/-- The first jobs that need no Cardhedger, at most so many, and the queue without them. -/
def takeUnaffected : ℕ → List Job → List Job × List Job
  | _, [] => ([], [])
  | 0, queue => ([], queue)
  | n + 1, job :: queue =>
    if needsNoCircuit job then
      (job :: (takeUnaffected n queue).1, (takeUnaffected n queue).2)
    else ((takeUnaffected (n + 1) queue).1, job :: (takeUnaffected (n + 1) queue).2)

def takeOut (s : State) (taken rest : List Job) : State :=
  { s with
    queue := rest
    queuedKeys := KeyedQueue.without Job.collectionKey s.queuedKeys taken }

/-- The `finally` of the drain. -/
def endDrain (pausedForCircuit : Bool) (s : State) : State :=
  let ended := { s with processing := false, drain := none }
  if !ended.queue.isEmpty && !pausedForCircuit then scheduleDrain ended else ended

/-- The loop of the drain from its condition to the next await or to its end. -/
def drainLoop (circuitOpen pausedForCircuit : Bool) (s : State) : State :=
  if s.queue.isEmpty then endDrain pausedForCircuit s
  else if circuitOpen then
    let batch := takeUnaffected env.concurrency s.queue
    if batch.1.isEmpty then endDrain true (scheduleDrainAfterCircuitPause s)
    else { takeOut s batch.1 batch.2 with drain := some ⟨true, .batch false batch.1⟩ }
  else
    let batch := s.queue.take env.concurrency
    { takeOut s batch (s.queue.drop env.concurrency) with
      drain := some ⟨pausedForCircuit, .batch true batch⟩ }

def drainQueue (circuitOpen : Bool) (s : State) : State :=
  if s.processing then s else drainLoop env circuitOpen false { s with processing := true }

/-- After the jobs of a batch have settled, or after the pause. -/
def resumeDrain (circuitOpen : Bool) (d : Drain) (s : State) : Option State :=
  match d.await_ with
  | .batch _ (_ :: _) => none
  | .batch false [] => some (drainLoop env circuitOpen d.pausedForCircuit s)
  | .batch true [] =>
    if s.queue.isEmpty then some (drainLoop env circuitOpen d.pausedForCircuit s)
    else some { s with drain := some { d with await_ := .pause } }
  | .pause => some (drainLoop env circuitOpen d.pausedForCircuit s)

/-- How the refresh of a locked job ends. A failed refresh is logged and counts as done. -/
inductive Outcome where
  | done | lockDbError | lockBusy

def scheduleLockRetry (job : Job) (s : State) : State :=
  if env.retries ≤ job.attempt then s
  else if job.collectionKey ∈ s.pendingLockRetries then s
  else if job.collectionKey ∈ s.queuedKeys then s
  else { s with
    pendingLockRetries := insert job.collectionKey s.pendingLockRetries
    lockRetryTimers := s.lockRetryTimers ++ [job] }

/-- One job of the batch settles. Only a locked one can find its lock busy. -/
def settleJob (i : ℕ) (outcome : Outcome) (s : State) : Option State :=
  match s.drain with
  | some ⟨paused, .batch locked running⟩ =>
    match running[i]? with
    | none => none
    | some job =>
      let left := { s with drain := some ⟨paused, .batch locked (running.eraseIdx i)⟩ }
      match locked, outcome with
      | true, .lockBusy => some (scheduleLockRetry env job left)
      | _, _ => some left
  | _ => none

/-- The callback of a retry timer. -/
def retryLocked (i now : ℕ) (s : State) : Option State :=
  match s.lockRetryTimers[i]? with
  | none => none
  | some job =>
    let fired := { s with
      lockRetryTimers := s.lockRetryTimers.eraseIdx i
      pendingLockRetries := s.pendingLockRetries.erase job.collectionKey }
    if job.collectionKey ∈ fired.queuedKeys then some fired
    else if job.collectionKey ∈ fired.pendingLockRetries then some fired
    else some (scheduleDrain (pushJob fired { job with attempt := job.attempt + 1, enqueuedAt := now }))

end Drain

inductive Event where
  | enqueue (x : Reading) (collectionKey : JsStr) (reason : Reason)
  | enqueueBulk (reason : Reason) (collectionKeys : List (JsStr × Reading))
  | drainTimer (circuitOpen : Bool)
  | circuitDrainTimer (circuitOpen : Bool)
  | settleJob (i : ℕ) (outcome : Outcome)
  | resumeDrain (circuitOpen : Bool)
  | lockRetryTimer (i now : ℕ)

/-- The state after an event, when it can happen. -/
def step (env : Env) (s : State) : Event → Option State
  | .enqueue x collectionKey reason => some (enqueue env x collectionKey reason s)
  | .enqueueBulk reason collectionKeys => some (enqueueBulkCapped env reason collectionKeys s)
  | .drainTimer circuitOpen =>
    if s.drainTimer then some (drainQueue env circuitOpen { s with drainTimer := false }) else none
  | .circuitDrainTimer circuitOpen =>
    if s.circuitDrainTimer then some (drainQueue env circuitOpen { s with circuitDrainTimer := false })
    else none
  | .settleJob i outcome => settleJob env i outcome s
  | .resumeDrain circuitOpen => s.drain.bind fun d => resumeDrain env circuitOpen d s
  | .lockRetryTimer i now => retryLocked i now s

/-- The events of one boot of the service, each of which can happen when its turn comes. -/
def run (env : Env) : List Event → State → Option State
  | [], s => some s
  | e :: events, s => (step env s e).bind (run env events)

/-- The queue and its bookkeeping agree, and somebody will look at it. -/
structure Consistent (s : State) : Prop where
  queued : ∀ k, k ∈ s.queuedKeys ↔ k ∈ s.queue.map Job.collectionKey
  once : (s.queue.map Job.collectionKey).Nodup
  apart : ∀ k ∈ s.pendingLockRetries, k ∉ s.queuedKeys
  sorted : s.queue.Pairwise Job.before
  served : s.queue ≠ [] → s.drain.isSome ∨ s.drainTimer ∨ s.circuitDrainTimer
  retried : ∀ k ∈ s.pendingLockRetries, k ∈ s.lockRetryTimers.map Job.collectionKey

/-- The events that bring a waiting job nearer to a drain. -/
def Event.drains : Event → Bool
  | .drainTimer _ | .circuitDrainTimer _ | .settleJob .. | .resumeDrain _ => true
  | .enqueue .. | .enqueueBulk .. | .lockRetryTimer .. => false

section Invariant

instance : Std.Total Job.before := by
  constructor
  intro a b
  unfold Job.before
  omega

instance : IsTrans Job Job.before := by
  constructor
  intro a b c hab hbc
  unfold Job.before at *
  omega

/-- What holds of the queue, its keys and the retries between any two writes. -/
structure Kept (s : State) : Prop where
  keyed : KeyedQueue Job.collectionKey Job.before s.queue s.queuedKeys
  apart : ∀ k ∈ s.pendingLockRetries, k ∉ s.queuedKeys
  retries : ∀ k, k ∈ s.pendingLockRetries ↔ k ∈ s.lockRetryTimers.map Job.collectionKey
  retriedOnce : (s.lockRetryTimers.map Job.collectionKey).Nodup

structure Inv (s : State) : Prop where
  kept : Kept s
  running : s.processing = s.drain.isSome
  served : s.queue ≠ [] → s.drain.isSome ∨ s.drainTimer ∨ s.circuitDrainTimer

variable {env : Env} {s t : State} {job : Job}

theorem inv_start : Inv {} :=
  ⟨⟨KeyedQueue.nil, fun _ hk => absurd hk (Finset.notMem_empty _), fun _ => by simp, List.nodup_nil⟩,
    rfl, fun h => absurd rfl h⟩

theorem Inv.consistent (h : Inv s) : Consistent s :=
  ⟨fun _ => h.kept.keyed.mem_keys, h.kept.keyed.nodup, h.kept.apart, h.kept.keyed.sorted, h.served,
    fun k => (h.kept.retries k).mp⟩

section Writes

theorem kept_pushJob (h : Kept s) (hqueued : job.collectionKey ∉ s.queuedKeys)
    (hpending : job.collectionKey ∉ s.pendingLockRetries) : Kept (pushJob s job) := by
  refine ⟨h.keyed.push hqueued, ?_, h.retries, h.retriedOnce⟩
  intro k hk hin
  rcases Finset.mem_insert.mp hin with rfl | hin
  · exact hpending hk
  · exact h.apart k hk hin

theorem kept_takeOut (h : Kept s) {taken rest : List Job} (hrest : rest.Sublist s.queue)
    (hperm : s.queue.Perm (taken ++ rest)) : Kept (takeOut s taken rest) :=
  ⟨h.keyed.take_out hrest hperm, fun k hk hin => h.apart k hk (KeyedQueue.without_subset hin),
    h.retries, h.retriedOnce⟩

theorem kept_scheduleDrain (h : Kept s) : Kept (scheduleDrain s) := by
  unfold scheduleDrain
  split_ifs
  · exact h
  · exact ⟨h.keyed, h.apart, h.retries, h.retriedOnce⟩

/-- After `scheduleDrain` a drain runs or its timer is armed. -/
theorem served_scheduleDrain (hrunning : s.processing = s.drain.isSome) :
    (scheduleDrain s).drain.isSome ∨ (scheduleDrain s).drainTimer ∨
      (scheduleDrain s).circuitDrainTimer := by
  unfold scheduleDrain
  split_ifs with h
  · rw [Bool.or_eq_true, hrunning] at h
    rcases h with hrun | htimer
    · exact .inl hrun
    · exact .inr (.inl htimer)
  · exact .inr (.inl rfl)

theorem running_scheduleDrain :
    (scheduleDrain s).processing = s.processing ∧ (scheduleDrain s).drain = s.drain := by
  unfold scheduleDrain
  split_ifs
  · exact ⟨rfl, rfl⟩
  · exact ⟨rfl, rfl⟩

theorem inv_scheduleDrain (h : Kept s) (hrunning : s.processing = s.drain.isSome) :
    Inv (scheduleDrain s) := by
  refine ⟨kept_scheduleDrain h, ?_, fun _ => served_scheduleDrain hrunning⟩
  rw [running_scheduleDrain.1, running_scheduleDrain.2, hrunning]

end Writes

section Enqueued

theorem kept_makeRoom {priority : ℕ} (h : Kept s) (hroom : makeRoom env priority s = some t) :
    Kept t ∧ t.queuedKeys ⊆ s.queuedKeys ∧ t.pendingLockRetries = s.pendingLockRetries ∧
      t.processing = s.processing ∧ t.drain = s.drain := by
  unfold makeRoom at hroom
  split_ifs at hroom with hlt
  · obtain rfl := Option.some.inj hroom
    exact ⟨h, Finset.Subset.refl _, rfl, rfl, rfl⟩
  · cases hlast : s.queue.getLast? with
    | none =>
      rw [hlast] at hroom
      cases hroom
    | some tail =>
      rw [hlast] at hroom
      simp only at hroom
      split_ifs at hroom with hpriority
      obtain rfl := Option.some.inj hroom
      have hsplit : s.queue.dropLast ++ [tail] = s.queue := List.dropLast_append_getLast? tail hlast
      have hperm : s.queue.Perm ([tail] ++ s.queue.dropLast) :=
        (List.Perm.of_eq hsplit.symm).trans List.perm_append_comm
      exact ⟨kept_takeOut h (List.dropLast_sublist _) hperm, KeyedQueue.without_subset, rfl, rfl, rfl⟩

theorem inv_enqueue (h : Inv s) (x : Reading) (collectionKey : JsStr) (reason : Reason) :
    Inv (enqueue env x collectionKey reason s) := by
  unfold enqueue
  by_cases hskip : ((lower collectionKey).isEmpty || lower collectionKey ∈ s.queuedKeys ||
      lower collectionKey ∈ s.pendingLockRetries) = true
  · rw [if_pos hskip]
    exact h
  · rw [if_neg hskip]
    simp only [Bool.or_eq_true, decide_eq_true_eq, not_or] at hskip
    obtain ⟨⟨-, hqueued⟩, hpending⟩ := hskip
    split_ifs with hdefer
    · exact h
    · cases hroom : makeRoom env (priorityForReason reason) s with
      | none =>
        exact ⟨⟨h.kept.keyed, h.kept.apart, h.kept.retries, h.kept.retriedOnce⟩, h.running, h.served⟩
      | some t =>
        obtain ⟨hkept, hkeys, hretries, hprocessing, hdrain⟩ := kept_makeRoom h.kept hroom
        have hpush : Kept (pushJob t
            ⟨lower collectionKey, reason, priorityForReason reason, x.now, 0⟩) := by
          apply kept_pushJob hkept
          · exact fun hin => hqueued (hkeys hin)
          · rw [hretries]
            exact hpending
        apply inv_scheduleDrain hpush
        change t.processing = t.drain.isSome
        rw [hprocessing, hdrain, h.running]

theorem inv_enqueueEach {reason : Reason} (keys : List (JsStr × Reading)) (h : Inv s) :
    Inv (enqueueEach env reason keys s) := by
  induction keys generalizing s with
  | nil => exact h
  | cons key keys ih =>
    rw [enqueueEach]
    apply ih
    split_ifs
    · exact h
    · exact inv_enqueue h _ _ _

theorem inv_enqueueUpTo {reason : Reason} (keys : List (JsStr × Reading)) (left : ℕ) (h : Inv s) :
    Inv (enqueueUpTo env reason left keys s) := by
  induction keys generalizing s left with
  | nil =>
    cases left with
    | zero => exact h
    | succ left => exact h
  | cons key keys ih =>
    cases left with
    | zero => exact h
    | succ left =>
      rw [enqueueUpTo]
      split_ifs
      · exact ih (left + 1) h
      · exact ih left (inv_enqueue h _ _ _)

theorem inv_enqueueBulkCapped {reason : Reason} (keys : List (JsStr × Reading)) (h : Inv s) :
    Inv (enqueueBulkCapped env reason keys s) := by
  unfold enqueueBulkCapped
  split_ifs
  · exact inv_enqueueEach keys h
  · exact inv_enqueueUpTo keys _ h

end Enqueued

section Drained

theorem sublist_takeUnaffected (n : ℕ) (queue : List Job) :
    (takeUnaffected n queue).2.Sublist queue ∧
      queue.Perm ((takeUnaffected n queue).1 ++ (takeUnaffected n queue).2) := by
  induction queue generalizing n with
  | nil =>
    cases n with
    | zero => exact ⟨List.Sublist.refl _, List.Perm.refl _⟩
    | succ n => exact ⟨List.Sublist.refl _, List.Perm.refl _⟩
  | cons job queue ih =>
    cases n with
    | zero => exact ⟨List.Sublist.refl _, List.Perm.refl _⟩
    | succ n =>
      rw [takeUnaffected]
      split_ifs with hneeds
      · obtain ⟨hsub, hperm⟩ := ih n
        exact ⟨hsub.cons _, hperm.cons _⟩
      · obtain ⟨hsub, hperm⟩ := ih (n + 1)
        exact ⟨hsub.cons_cons _, (hperm.cons _).trans List.perm_middle.symm⟩

/-- A drain that ends leaves an empty queue or one that a timer is armed for. -/
theorem inv_endDrain {paused : Bool} (h : Kept s)
    (hpaused : paused = true → s.queue ≠ [] → s.circuitDrainTimer = true) : Inv (endDrain paused s) := by
  have hended : Kept { s with processing := false, drain := none } :=
    ⟨h.keyed, h.apart, h.retries, h.retriedOnce⟩
  unfold endDrain
  simp only
  by_cases hmore : (!s.queue.isEmpty && !paused) = true
  · rw [if_pos hmore]
    exact inv_scheduleDrain hended rfl
  · rw [if_neg hmore]
    refine ⟨hended, rfl, fun hne => .inr (.inr (hpaused ?_ hne))⟩
    have hempty : s.queue.isEmpty = false := List.isEmpty_eq_false_iff.mpr hne
    rw [hempty] at hmore
    simpa using hmore

theorem inv_drainLoop {circuitOpen paused : Bool} (h : Kept s) (hprocessing : s.processing = true) :
    Inv (drainLoop env circuitOpen paused s) := by
  unfold drainLoop
  by_cases hempty : s.queue.isEmpty = true
  · rw [if_pos hempty]
    exact inv_endDrain h fun _ hne => absurd (List.isEmpty_iff.mp hempty) hne
  · rw [if_neg hempty]
    by_cases hopen : circuitOpen = true
    · rw [if_pos hopen]
      simp only
      obtain ⟨hsub, hperm⟩ := sublist_takeUnaffected env.concurrency s.queue
      split_ifs with hbatch
      · have htimer : Kept (scheduleDrainAfterCircuitPause s) ∧
            (scheduleDrainAfterCircuitPause s).circuitDrainTimer = true := by
          unfold scheduleDrainAfterCircuitPause
          split_ifs with harmed
          · exact ⟨h, harmed⟩
          · exact ⟨⟨h.keyed, h.apart, h.retries, h.retriedOnce⟩, rfl⟩
        exact inv_endDrain htimer.1 fun _ _ => htimer.2
      · have htaken := kept_takeOut h hsub hperm
        exact ⟨⟨htaken.keyed, htaken.apart, htaken.retries, htaken.retriedOnce⟩, hprocessing,
          fun _ => .inl rfl⟩
    · rw [if_neg hopen]
      have htaken := kept_takeOut h (List.drop_sublist env.concurrency s.queue)
        (List.Perm.of_eq (List.take_append_drop env.concurrency s.queue).symm)
      exact ⟨⟨htaken.keyed, htaken.apart, htaken.retries, htaken.retriedOnce⟩, hprocessing,
        fun _ => .inl rfl⟩

/-- A timer of the drain fires: if one runs already, it will look at the queue. -/
theorem inv_drainQueue {circuitOpen : Bool} (h : Kept s) (hrunning : s.processing = s.drain.isSome) :
    Inv (drainQueue env circuitOpen s) := by
  unfold drainQueue
  by_cases hprocessing : s.processing = true
  · rw [if_pos hprocessing]
    rw [hrunning] at hprocessing
    exact ⟨h, hrunning, fun _ => .inl hprocessing⟩
  · rw [if_neg hprocessing]
    have hstarted : Kept { s with processing := true } :=
      ⟨h.keyed, h.apart, h.retries, h.retriedOnce⟩
    exact inv_drainLoop hstarted rfl

theorem inv_resumeDrain {circuitOpen : Bool} {d : Drain} (h : Inv s) (hd : s.drain = some d)
    (hresume : resumeDrain env circuitOpen d s = some t) : Inv t := by
  have hprocessing : s.processing = true := by rw [h.running, hd, Option.isSome_some]
  have hloop : Inv (drainLoop env circuitOpen d.pausedForCircuit s) :=
    inv_drainLoop h.kept hprocessing
  unfold resumeDrain at hresume
  split at hresume
  · cases hresume
  · obtain rfl := Option.some.inj hresume
    exact hloop
  · split_ifs at hresume with hempty
    · obtain rfl := Option.some.inj hresume
      exact hloop
    · obtain rfl := Option.some.inj hresume
      exact ⟨⟨h.kept.keyed, h.kept.apart, h.kept.retries, h.kept.retriedOnce⟩, hprocessing,
        fun _ => .inl rfl⟩
  · obtain rfl := Option.some.inj hresume
    exact hloop

end Drained

section Retried

theorem kept_scheduleLockRetry (h : Kept s) : Kept (scheduleLockRetry env job s) := by
  unfold scheduleLockRetry
  split_ifs with hmax hpending hqueued
  · exact h
  · exact h
  · exact h
  · refine ⟨h.keyed, ?_, ?_, ?_⟩
    · intro k hk
      rcases Finset.mem_insert.mp hk with rfl | hk
      · exact hqueued
      · exact h.apart k hk
    · intro k
      rw [Finset.mem_insert, h.retries, List.map_append, List.map_singleton, List.mem_append,
        List.mem_singleton]
      exact or_comm
    · rw [List.map_append, List.map_singleton]
      apply List.nodup_append.mpr
      refine ⟨h.retriedOnce, List.nodup_singleton _, ?_⟩
      intro k hk l hl hkl
      rw [List.mem_singleton.mp hl] at hkl
      rw [hkl] at hk
      exact hpending ((h.retries _).mpr hk)

theorem scheduleLockRetry_flags :
    (scheduleLockRetry env job s).processing = s.processing ∧
      (scheduleLockRetry env job s).drain = s.drain := by
  unfold scheduleLockRetry
  split_ifs
  · exact ⟨rfl, rfl⟩
  · exact ⟨rfl, rfl⟩
  · exact ⟨rfl, rfl⟩
  · exact ⟨rfl, rfl⟩

theorem inv_settleJob {i : ℕ} {outcome : Outcome} (h : Inv s)
    (hsettle : settleJob env i outcome s = some t) : Inv t := by
  unfold settleJob at hsettle
  split at hsettle
  · rename_i paused locked running hdrain
    have hprocessing : s.processing = true := by rw [h.running, hdrain, Option.isSome_some]
    cases hjob : running[i]? with
    | none =>
      rw [hjob] at hsettle
      cases hsettle
    | some job =>
      rw [hjob] at hsettle
      have hleft : Inv { s with drain := some ⟨paused, .batch locked (running.eraseIdx i)⟩ } :=
        ⟨⟨h.kept.keyed, h.kept.apart, h.kept.retries, h.kept.retriedOnce⟩, hprocessing,
          fun _ => .inl rfl⟩
      simp only at hsettle
      split at hsettle
      · obtain rfl := Option.some.inj hsettle
        refine ⟨kept_scheduleLockRetry hleft.kept, ?_, fun _ => .inl ?_⟩
        · rw [scheduleLockRetry_flags.1, scheduleLockRetry_flags.2]
          exact hprocessing
        · rw [scheduleLockRetry_flags.2]
          rfl
      · obtain rfl := Option.some.inj hsettle
        exact hleft
  · cases hsettle

/-- The key of a timer that fires waits no longer. -/
theorem kept_fire (h : Kept s) {i : ℕ} (hjob : s.lockRetryTimers[i]? = some job) :
    Kept { s with
      lockRetryTimers := s.lockRetryTimers.eraseIdx i
      pendingLockRetries := s.pendingLockRetries.erase job.collectionKey } := by
  obtain ⟨hlt, hget⟩ := List.getElem?_eq_some_iff.mp hjob
  have hkeys : (s.lockRetryTimers.eraseIdx i).map Job.collectionKey =
      (s.lockRetryTimers.map Job.collectionKey).erase job.collectionKey := by
    have hlt' : i < (s.lockRetryTimers.map Job.collectionKey).length := by
      rw [List.length_map]
      exact hlt
    have herase := h.retriedOnce.erase_getElem i hlt'
    rw [List.getElem_map, hget] at herase
    rw [herase, List.eraseIdx_map]
  refine ⟨h.keyed, fun k hk => h.apart k (Finset.mem_of_mem_erase hk), ?_, ?_⟩
  · intro k
    rw [hkeys, Finset.mem_erase, h.retries, h.retriedOnce.mem_erase_iff]
  · rw [hkeys]
    exact h.retriedOnce.erase _

theorem inv_retryLocked {i now : ℕ} (h : Inv s) (hretry : retryLocked i now s = some t) : Inv t := by
  unfold retryLocked at hretry
  cases hjob : s.lockRetryTimers[i]? with
  | none =>
    rw [hjob] at hretry
    cases hretry
  | some job =>
    rw [hjob] at hretry
    have hfired := kept_fire h.kept hjob
    have hinv := Inv.mk hfired h.running h.served
    simp only at hretry
    split_ifs at hretry with hqueued hpending
    · obtain rfl := Option.some.inj hretry
      exact hinv
    · obtain rfl := Option.some.inj hretry
      exact hinv
    · obtain rfl := Option.some.inj hretry
      have hpush : Kept (pushJob _ { job with attempt := job.attempt + 1, enqueuedAt := now }) :=
        kept_pushJob hfired hqueued hpending
      exact inv_scheduleDrain hpush h.running

end Retried

theorem inv_step {e : Event} (h : Inv s) (hstep : step env s e = some t) : Inv t := by
  cases e with
  | enqueue x collectionKey reason =>
    obtain rfl := Option.some.inj hstep
    exact inv_enqueue h x collectionKey reason
  | enqueueBulk reason collectionKeys =>
    obtain rfl := Option.some.inj hstep
    exact inv_enqueueBulkCapped collectionKeys h
  | drainTimer circuitOpen =>
    simp only [step] at hstep
    split_ifs at hstep
    obtain rfl := Option.some.inj hstep
    exact inv_drainQueue ⟨h.kept.keyed, h.kept.apart, h.kept.retries, h.kept.retriedOnce⟩ h.running
  | circuitDrainTimer circuitOpen =>
    simp only [step] at hstep
    split_ifs at hstep
    obtain rfl := Option.some.inj hstep
    exact inv_drainQueue ⟨h.kept.keyed, h.kept.apart, h.kept.retries, h.kept.retriedOnce⟩ h.running
  | settleJob i outcome => exact inv_settleJob h hstep
  | resumeDrain circuitOpen =>
    obtain ⟨d, hd, hresume⟩ := Option.bind_eq_some_iff.mp hstep
    exact inv_resumeDrain h hd hresume
  | lockRetryTimer i now => exact inv_retryLocked h hstep

theorem inv_run {events : List Event} (h : Inv s) (hrun : run env events s = some t) : Inv t := by
  induction events generalizing s with
  | nil =>
    obtain rfl := Option.some.inj hrun
    exact h
  | cons e events ih =>
    obtain ⟨u, hstep, hrest⟩ := Option.bind_eq_some_iff.mp hrun
    exact ih (inv_step h hstep) hrest

/-- While a job waits, such an event can happen. -/
theorem drain_moves (h : Inv s) (hne : s.queue ≠ []) :
    ∃ e : Event, e.drains = true ∧ (step env s e).isSome := by
  rcases h.served hne with hdrain | htimer | hcircuit
  · obtain ⟨⟨paused, await_⟩, hd⟩ := Option.isSome_iff_exists.mp hdrain
    cases await_ with
    | pause => exact ⟨.resumeDrain false, rfl, by simp [step, hd, resumeDrain]⟩
    | batch locked running =>
      cases running with
      | nil =>
        refine ⟨.resumeDrain false, rfl, ?_⟩
        cases locked with
        | false => simp [step, hd, resumeDrain]
        | true =>
          have hempty : s.queue.isEmpty = false := List.isEmpty_eq_false_iff.mpr hne
          simp [step, hd, resumeDrain, hempty]
      | cons job running =>
        refine ⟨.settleJob 0 .done, rfl, ?_⟩
        cases locked with
        | false => simp [step, settleJob, hd]
        | true => simp [step, settleJob, hd]
  · exact ⟨.drainTimer false, rfl, by simp [step, htimer]⟩
  · exact ⟨.circuitDrainTimer false, rfl, by simp [step, hcircuit]⟩

end Invariant

/-- After any events the set is that of the keys of the queue, no key is twice in it or both in it and
waiting for a retry, the queue is sorted, and while it is not empty a drain runs or a timer of one is
armed, so that it can go on. -/
theorem snapshot_queue {env : Env} {events : List Event} {s : State} (h : run env events {} = some s) :
    Consistent s ∧ (s.queue ≠ [] → ∃ e : Event, e.drains = true ∧ (step env s e).isSome) := by
  have hinv := inv_run inv_start h
  exact ⟨hinv.consistent, drain_moves hinv⟩

/-- Another pod holds the lock of `a`, `b` is enqueued meanwhile, `a` is retried, the circuit opens. -/
def contention : List Event :=
  [.enqueue ⟨0, false⟩ (js "A") .coldStart, .drainTimer false, .settleJob 0 .lockBusy,
    .enqueue ⟨1, false⟩ (js "b") .cron, .resumeDrain false, .lockRetryTimer 0 2, .resumeDrain true]

theorem snapshot_queue_contention : ∃ s, run {} contention {} = some s ∧
    s.queue.map Job.collectionKey = [js "a", js "b"] ∧ s.circuitDrainTimer = true ∧ Consistent s := by
  have hends : (run {} contention {}).any (fun s =>
      s.queue.map Job.collectionKey = [js "a", js "b"] && s.circuitDrainTimer) = true := by
    decide +kernel
  obtain ⟨s, hs, hqueue⟩ := (Option.any_eq_true _ _).mp hends
  rw [Bool.and_eq_true, decide_eq_true_eq] at hqueue
  exact ⟨s, hs, hqueue.1, hqueue.2, (snapshot_queue hs).1⟩

end Snapshots
