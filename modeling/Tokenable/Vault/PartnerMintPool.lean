import Mathlib.Data.List.Nodup
import Tokenable.Vault.PartnerMintJob

/-!
# The workers of a partner mint job

The invariant of the rows of a job, with the workers of its pool as they are at their items, is kept by
every step of the workers. While the pool runs, the job itself writes nothing, and no worker touches the
item of another; when it has ended, the workers write nothing any more.
-/

namespace PartnerMint
open Js Async Chain

def Handled (s : State) (id : ℕ) : Prop :=
  ((s.prepared id).isSome ∧ (s.items id).status = .minting) ∨
    (s.prepared id = none ∧ (s.items id).status = .failed)

def Final (s : State) (id : ℕ) : Prop :=
  (s.items id).status = .succeeded ∨ (s.items id).status = .failed

structure Inv (s : State) : Prop where
  ids : ∀ q, s.queue = some q → q.map PendingItem.id = List.range s.job.itemCount
  idle : s.queue = none → s.idx = 0
  idx_le : s.idx ≤ s.job.itemCount
  untouched : ∀ id, s.idx ≤ id → id < s.job.itemCount →
    (s.items id).status = .pending ∧ s.prepared id = none
  heldTaken : ∀ h ∈ s.held, h.2 < s.idx
  heldOnce : (s.held.map Prod.snd).Nodup
  handled : s.joined = false → ∀ id < s.idx, id ∉ s.held.map Prod.snd → Handled s id
  preparesTaken : ∀ id ∈ s.prepares, id < s.idx
  preparedOnce : s.prepares.Nodup
  unjoined : s.joined = false → s.mints = [] ∧ s.job.counts = {} ∧ s.job.status ≠ .completed
  joined : s.joined = true → s.held = [] ∧ s.idx = s.job.itemCount ∧ s.queue ≠ none
  mintedOnce : ∀ id, id ∉ s.late → (s.mints.map Prod.fst).count id ≤ 1
  counted : s.job.counts.processedCount = s.job.counts.succeededCount + s.job.counts.failedCount ∧
    s.job.counts.processedCount ≤ s.job.itemCount
  truth : ∀ id, (s.items id).status = .failed → s.minted id = true → id ∈ s.late
  completed : s.job.status = .completed → (∀ id < s.job.itemCount, Final s id) ∧
    s.job.counts.succeededCount = s.count .succeeded s.job.itemCount ∧
    s.job.counts.failedCount = s.count .failed s.job.itemCount

section Fates
variable {α : Type} {x : Fate} {a b : α} {s u : State} {id : ℕ}

theorem reply_eq_ok : x.reply a = .ok b ↔ x.error = none ∧ a = b := by
  unfold Fate.reply
  cases x.error <;> simp

theorem isSome_of_reply {e : Thrown} (h : x.reply a = .error e) : x.error.isSome = true := by
  unfold Fate.reply at h
  cases herror : x.error with
  | none =>
    rw [herror] at h
    cases h
  | some e => rfl

theorem answer_eq_ok : x.answer a = .ok b ↔ x.error = none ∧ a = b := by
  unfold Fate.answer Fate.reply
  cases x.error <;> simp [Except.mapError]

theorem isSome_of_answer {e : JsStr} (h : x.answer a = .error e) : x.error.isSome = true := by
  unfold Fate.answer Fate.reply at h
  cases herror : x.error with
  | none =>
    rw [herror] at h
    cases h
  | some e => rfl

/-- A call that does not throw has had its effect. -/
theorem after_of_none (h : x.error = none) : x.after s u = u := by simp [Fate.after, h]

theorem after_cases (x : Fate) (s u : State) : x.after s u = s ∨ x.after s u = u := by
  unfold Fate.after
  split_ifs
  · exact .inl rfl
  · exact .inr rfl

@[simp] theorem noteLate_false : s.noteLate false id = s := rfl

theorem noteLate_of_none (h : x.error = none) : s.noteLate x.error.isSome id = s := by
  rw [h]
  rfl

end Fates

/-- What the others leave to the job: before the pool starts and after it has ended, everything. -/
structure JobKept (s t : State) : Prop where
  alone : s.queue = none ∨ s.joined = true → t = s
  job : t.job = s.job
  joined : t.joined = s.joined
  queue : t.queue = s.queue

/-- What the others leave to a worker: the items that it is at. -/
def WorkerKept (i : ℕ) (s t : State) : Prop :=
  ∀ id, (i, id) ∈ s.held → (i, id) ∈ t.held ∧ t.items id = s.items id ∧
    t.prepared id = s.prepared id ∧ (id ∈ t.prepares ↔ id ∈ s.prepares)

def Kept (i : ℕ) (s t : State) : Prop := if i = 0 then JobKept s t else WorkerKept i s t

section Contract
variable {s t u : State} {i : ℕ}

theorem JobKept.refl (s : State) : JobKept s s := ⟨fun _ => rfl, rfl, rfl, rfl⟩

theorem JobKept.trans (hst : JobKept s t) (htu : JobKept t u) : JobKept s u := by
  refine ⟨fun h => ?_, htu.job.trans hst.job, htu.joined.trans hst.joined, htu.queue.trans hst.queue⟩
  have ht := hst.alone h
  rw [← ht] at h
  exact (htu.alone h).trans ht

theorem WorkerKept.refl (i : ℕ) (s : State) : WorkerKept i s s :=
  fun _ h => ⟨h, rfl, rfl, Iff.rfl⟩

theorem WorkerKept.trans (hst : WorkerKept i s t) (htu : WorkerKept i t u) : WorkerKept i s u := by
  intro id hid
  obtain ⟨ht, hitem, hprepared, hprepares⟩ := hst id hid
  obtain ⟨hu, hitem', hprepared', hprepares'⟩ := htu id ht
  exact ⟨hu, hitem'.trans hitem, hprepared'.trans hprepared, hprepares'.trans hprepares⟩

theorem kept_refl (i : ℕ) (s : State) : Kept i s s := by
  unfold Kept
  split_ifs
  · exact JobKept.refl s
  · exact WorkerKept.refl i s

theorem kept_trans (hst : Kept i s t) (htu : Kept i t u) : Kept i s u := by
  unfold Kept at *
  split_ifs with h
  · rw [if_pos h] at hst htu
    exact hst.trans htu
  · rw [if_neg h] at hst htu
    exact hst.trans htu

/-- Each task keeps what the other ones rely on. -/
def contract : Contract State where
  inv := Inv
  guar i s t := ∀ j, j ≠ i → Kept j s t
  rely := Kept
  rely_refl := kept_refl
  rely_trans _ _ _ _ := kept_trans
  rely_of_guar i _ _ _ hij h := h i hij

abbrev jobWp {ε α : Type} (i : ℕ) (p : Prog Cmd Res ε α) (Q : Except ε α → State → Prop)
    (s : State) : Prop := wp exec anyStep contract i p Q s

variable {α β : Type} {P : State → Prop}

theorem wp_perform {c : Cmd} {Q : Except JsStr (Res c) → State → Prop}
    (hP : contract.Stable i P) (hs : P s)
    (h : ∀ t, P t → Inv t → ∀ x r u, exec i t x c = some (r, u) →
      Inv u ∧ (∀ j, j ≠ i → Kept j t u) ∧ Q (.ok r) u) :
    jobWp i (perform c) Q s :=
  wp_call P hP hs fun t ht hinv _ x r u hu => h t ht hinv x r u hu

/-- What an answer lets a call end with. -/
def Attempted (Q : Except JsStr α → State → Prop) :
    Except JsStr (Except JsStr α) → State → Prop
  | .ok r => Q r
  | .error e => Q (.error e)

theorem wp_attempt {p : M (Except JsStr α)} {Q : Except JsStr α → State → Prop}
    (h : jobWp i p (Attempted Q) s) : jobWp i (attempt p) Q s := by
  refine wp_bind (wp_mono (fun r t hr => ?_) h)
  cases r with
  | ok a => exact hr
  | error e => exact hr

/-- The job: what the others do before and after the pool is nothing. -/
theorem kept_zero : Kept 0 s t ↔ JobKept s t := by
  unfold Kept
  rw [if_pos rfl]

theorem kept_worker (hi : i ≠ 0) : Kept i s t ↔ WorkerKept i s t := by
  unfold Kept
  rw [if_neg hi]

end Contract

section Worker
variable {s t u : State} {i id : ℕ}

theorem queue_of_held (h : Inv s) (hheld : (i, id) ∈ s.held) :
    s.queue ≠ none ∧ s.joined = false := by
  constructor
  · intro hqueue
    have hlt := h.heldTaken _ hheld
    rw [h.idle hqueue] at hlt
    exact absurd hlt (Nat.not_lt_zero _)
  · by_contra hjoined
    rw [Bool.not_eq_false] at hjoined
    rw [(h.joined hjoined).1] at hheld
    exact absurd hheld List.not_mem_nil

/-- While the pool runs, only the row of the job and the pool itself are kept for the job. -/
theorem jobKept_of_pool (hqueue : s.queue ≠ none) (hjoined : s.joined = false) (hjob : u.job = s.job)
    (hjoined' : u.joined = s.joined) (hqueue' : u.queue = s.queue) : JobKept s u := by
  refine ⟨?_, hjob, hjoined', hqueue'⟩
  rintro (hnone | htrue)
  · exact absurd hnone hqueue
  · rw [hjoined] at htrue
    cases htrue

/-- A step of the worker that is at the item. -/
structure Touches (id : ℕ) (s u : State) : Prop where
  job : u.job = s.job
  queue : u.queue = s.queue
  idx : u.idx = s.idx
  held : u.held = s.held
  joined : u.joined = s.joined
  mints : u.mints = s.mints
  late : u.late = s.late
  others : ∀ k, k ≠ id → u.items k = s.items k ∧ u.prepared k = s.prepared k
  prepares : u.prepares = s.prepares ∨ (id ∉ s.prepares ∧ u.prepares = id :: s.prepares)

theorem kept_touches (h : Inv s) (hheld : (i, id) ∈ s.held) (hu : Touches id s u) {j : ℕ}
    (hj : j ≠ i) : Kept j s u := by
  obtain ⟨hqueue, hjoined⟩ := queue_of_held h hheld
  by_cases hzero : j = 0
  · rw [hzero, kept_zero]
    exact jobKept_of_pool hqueue hjoined hu.job hu.joined hu.queue
  · rw [kept_worker hzero]
    intro k hk
    have hne : k ≠ id := by
      rintro rfl
      exact hj (congrArg Prod.fst (List.inj_on_of_nodup_map h.heldOnce hk hheld rfl))
    obtain ⟨hitem, hprepared⟩ := hu.others k hne
    refine ⟨by rw [hu.held]; exact hk, hitem, hprepared, ?_⟩
    rcases hu.prepares with hsame | ⟨-, hcons⟩
    · rw [hsame]
    · rw [hcons, List.mem_cons]
      exact or_iff_right hne

theorem inv_touches (h : Inv s) (hheld : (i, id) ∈ s.held) (hu : Touches id s u) : Inv u := by
  obtain ⟨hqueue, hjoined⟩ := queue_of_held h hheld
  have hlt : id < s.idx := h.heldTaken _ hheld
  have hmints := (h.unjoined hjoined).1
  have hprepares : (∀ k ∈ u.prepares, k < s.idx) ∧ u.prepares.Nodup := by
    rcases hu.prepares with hsame | ⟨hnew, hcons⟩
    · rw [hsame]
      exact ⟨h.preparesTaken, h.preparedOnce⟩
    · rw [hcons]
      refine ⟨fun k hk => ?_, List.nodup_cons.mpr ⟨hnew, h.preparedOnce⟩⟩
      rcases List.mem_cons.mp hk with rfl | hk
      · exact hlt
      · exact h.preparesTaken k hk
  refine
    { ids := ?_, idle := ?_, idx_le := ?_, untouched := ?_, heldTaken := ?_, heldOnce := ?_
      handled := ?_, preparesTaken := ?_, preparedOnce := hprepares.2, unjoined := ?_, joined := ?_
      mintedOnce := ?_, counted := ?_, truth := ?_, completed := ?_ }
  · rw [hu.queue, hu.job]
    exact h.ids
  · rw [hu.queue, hu.idx]
    exact h.idle
  · rw [hu.idx, hu.job]
    exact h.idx_le
  · intro k hk hk'
    rw [hu.idx] at hk
    rw [hu.job] at hk'
    have hne : k ≠ id := by omega
    rw [(hu.others k hne).1, (hu.others k hne).2]
    exact h.untouched k hk hk'
  · rw [hu.held, hu.idx]
    exact h.heldTaken
  · rw [hu.held]
    exact h.heldOnce
  · intro _ k hk hnot
    rw [hu.idx] at hk
    rw [hu.held] at hnot
    have hne : k ≠ id := fun heq => hnot (List.mem_map.mpr ⟨(i, id), hheld, heq.symm⟩)
    unfold Handled
    rw [(hu.others k hne).1, (hu.others k hne).2]
    exact h.handled hjoined k hk hnot
  · rw [hu.idx]
    exact hprepares.1
  · rw [hu.mints, hu.job]
    exact fun _ => h.unjoined hjoined
  · intro htrue
    rw [hu.joined, hjoined] at htrue
    cases htrue
  · rw [hu.mints, hu.late]
    exact h.mintedOnce
  · rw [hu.job]
    exact h.counted
  · intro k _ hminted
    rw [State.minted, hu.mints, hmints] at hminted
    simp at hminted
  · intro hstatus
    rw [hu.job] at hstatus
    exact absurd hstatus (h.unjoined hjoined).2.2

def WorkAt (i id : ℕ) (R : Item → Option PreparedPartnerMint → Prop → Prop) (s : State) : Prop :=
  (i, id) ∈ s.held ∧ R (s.items id) (s.prepared id) (id ∈ s.prepares)

variable {R : Item → Option PreparedPartnerMint → Prop → Prop}

theorem stable_workAt (hi : i ≠ 0) : contract.Stable i (WorkAt i id R) := by
  intro s t hst _ hs
  obtain ⟨hheld, hR⟩ := hs
  obtain ⟨ht, hitem, hprepared, hprepares⟩ := (kept_worker hi).mp hst id hheld
  refine ⟨ht, ?_⟩
  rw [hitem, hprepared, propext hprepares]
  exact hR

/-- A write of a worker on its item. -/
theorem touches_setItem (x : Fate) (p : ItemPatch) (hmints : s.mints = []) :
    Touches id s ((x.after s (s.setItem id p)).noteLate x.error.isSome id) := by
  have hnote : ∀ v : State, v.mints = [] → v.noteLate x.error.isSome id = v := by
    intro v hv
    simp [State.noteLate, State.minted, hv]
  unfold Fate.after
  split_ifs with hlost
  · rw [hnote s hmints]
    exact ⟨rfl, rfl, rfl, rfl, rfl, rfl, rfl, fun _ _ => ⟨rfl, rfl⟩, .inl rfl⟩
  · rw [hnote (s.setItem id p) hmints]
    exact ⟨rfl, rfl, rfl, rfl, rfl, rfl, rfl,
      fun k hk => ⟨Function.update_of_ne hk _ _, rfl⟩, .inl rfl⟩

/-- The write of a worker: when it does not throw, the item has the status. -/
theorem wp_updateItem (hi : i ≠ 0) (p : ItemPatch) (hs : WorkAt i id R s) :
    jobWp i (attempt (perform (.updateItem id p))) (fun r u =>
      WorkAt i id (fun item prepared prep => r = .ok () → item.status = p.status ∧
        ∃ old, R old prepared prep) u) s := by
  apply wp_attempt
  apply wp_perform (stable_workAt hi) hs
  intro t ht hinv x r u hu
  obtain ⟨hheld, hR⟩ := ht
  obtain ⟨-, hjoined⟩ := queue_of_held hinv hheld
  have hmints := (hinv.unjoined hjoined).1
  have htouch : Touches id t ((x.after t (t.setItem id p)).noteLate x.error.isSome id) :=
    touches_setItem x p hmints
  obtain ⟨rfl, rfl⟩ := Prod.mk.inj (Option.some.inj hu)
  refine ⟨inv_touches hinv hheld htouch, fun j hj => kept_touches hinv hheld htouch hj, ?_⟩
  refine ⟨by rw [htouch.held]; exact hheld, fun hok => ?_⟩
  have herror := (answer_eq_ok.mp hok).1
  rw [noteLate_of_none herror, after_of_none herror]
  refine ⟨?_, t.items id, hR⟩
  change (Function.update t.items id (p.apply (t.items id)) id).status = p.status
  rw [Function.update_self]
  cases p <;> rfl

/-- The preparation: its answer is kept for the item, or the item is marked failed. -/
theorem wp_prepareItem (hi : i ≠ 0) (item : PendingItem)
    (hs : WorkAt i item.id (fun row prepared prep => prepared = none ∧ ¬ prep ∧ row.status = .minting)
      s) :
    jobWp i (prepareItem item) (fun r u =>
      WorkAt i item.id (fun row prepared _ => r = .ok () →
        (prepared.isSome ∧ row.status = .minting) ∨ (prepared = none ∧ row.status = .failed)) u) s := by
  have hprepare : jobWp i (attempt (perform (.prepareMintItem item.id item.certNumber))) (fun _ u =>
      WorkAt i item.id (fun row prepared _ => prepared = none ∧ row.status = .minting) u) s := by
    apply wp_attempt
    apply wp_perform (stable_workAt hi) hs
    intro t ht hinv x r u hu
    obtain ⟨hheld, hnone, hnew, hminting⟩ := ht
    obtain ⟨rfl, rfl⟩ := Prod.mk.inj (Option.some.inj hu)
    have htouch : Touches item.id t { t with prepares := item.id :: t.prepares } :=
      ⟨rfl, rfl, rfl, rfl, rfl, rfl, rfl, fun _ _ => ⟨rfl, rfl⟩, .inr ⟨hnew, rfl⟩⟩
    exact ⟨inv_touches hinv hheld htouch, fun j hj => kept_touches hinv hheld htouch hj,
      hheld, hnone, hminting⟩
  apply wp_settle
  refine wp_bind (wp_mono (fun r u hu => ?_) hprepare)
  cases r with
  | ok row =>
    apply wp_perform (stable_workAt hi) hu
    intro t ht hinv x r u hu
    obtain ⟨hheld, -, hminting⟩ := ht
    obtain ⟨rfl, rfl⟩ := Prod.mk.inj (Option.some.inj hu)
    have htouch : Touches item.id t
        { t with prepared := Function.update t.prepared item.id (some row) } :=
      ⟨rfl, rfl, rfl, rfl, rfl, rfl, rfl, fun k hk => ⟨rfl, Function.update_of_ne hk _ _⟩, .inl rfl⟩
    refine ⟨inv_touches hinv hheld htouch, fun j hj => kept_touches hinv hheld htouch hj, ?_⟩
    refine ⟨hheld, fun _ => .inl ⟨?_, hminting⟩⟩
    change (Function.update t.prepared item.id (some row) item.id).isSome
    rw [Function.update_self]
    rfl
  | error e =>
    refine wp_mono (fun r v hv => ?_) (wp_updateItem hi (.failed (e.take maxMessage)) hu)
    refine ⟨hv.1, fun hok => ?_⟩
    obtain ⟨hfailed, old, hnone, -⟩ := hv.2 hok
    exact .inr ⟨hnone, hfailed⟩

theorem inv_settle (h : Inv s) (hheld : (i, id) ∈ s.held) (hhandled : Handled s id) :
    Inv { s with held := s.held.erase (i, id) } := by
  have hsub : (s.held.erase (i, id)).Sublist s.held := List.erase_sublist
  refine { h with heldTaken := ?_, heldOnce := ?_, handled := ?_, joined := ?_ }
  · exact fun k hk => h.heldTaken k (hsub.subset hk)
  · exact (hsub.map Prod.snd).nodup h.heldOnce
  · intro hjoined k hk hnot
    by_cases hne : k = id
    · rw [hne]
      exact hhandled
    · apply h.handled hjoined k hk
      intro hin
      obtain ⟨⟨j, k'⟩, hmem, rfl⟩ := List.mem_map.mp hin
      apply hnot
      refine List.mem_map.mpr ⟨(j, k'), ?_, rfl⟩
      have hdiff : (j, k') ≠ (i, id) := fun heq => hne (congrArg Prod.snd heq)
      exact (List.mem_erase_of_ne hdiff).mpr hmem
  · intro hjoined
    rw [(queue_of_held h hheld).2] at hjoined
    cases hjoined

def ThrowsAt (i : ℕ) (r : Except JsStr Unit) (s : State) : Prop :=
  ∀ e, r = .error e → ∃ id, (i, id) ∈ s.held

theorem throwsAt_ok : ThrowsAt i (.ok ()) s := fun e he => by cases he

theorem wp_runItem (hi : i ≠ 0) (item : PendingItem)
    (hs : WorkAt i item.id (fun _ prepared prep => prepared = none ∧ ¬ prep) s) :
    jobWp i (runItem item) (ThrowsAt i) s := by
  refine wp_bind (wp_mono (fun r t ht => ?_) (wp_updateItem hi .minting hs))
  cases r with
  | error e => exact fun _ _ => ⟨item.id, ht.1⟩
  | ok a =>
    obtain ⟨hminting, old, hnone, hnew⟩ := ht.2 rfl
    refine wp_bind (wp_mono (fun r u hu => ?_) (wp_prepareItem hi item ⟨ht.1, hnone, hnew, hminting⟩))
    cases r with
    | error e => exact fun _ _ => ⟨item.id, hu.1⟩
    | ok a =>
      have hready : WorkAt i item.id (fun row prepared _ =>
          (prepared.isSome ∧ row.status = .minting) ∨ (prepared = none ∧ row.status = .failed)) u :=
        ⟨hu.1, hu.2 rfl⟩
      apply wp_perform (stable_workAt hi) hready
      intro v hv hinv x r w hw
      obtain ⟨hheld, hhandled⟩ := hv
      obtain ⟨rfl, rfl⟩ := Prod.mk.inj (Option.some.inj hw)
      refine ⟨inv_settle hinv hheld hhandled, fun j hj => ?_, throwsAt_ok⟩
      obtain ⟨hqueue, hjoined⟩ := queue_of_held hinv hheld
      by_cases hzero : j = 0
      · rw [hzero, kept_zero]
        exact jobKept_of_pool hqueue hjoined rfl rfl rfl
      · rw [kept_worker hzero]
        intro k hk
        have hdiff : (j, k) ≠ (i, item.id) := fun heq => hj (congrArg Prod.fst heq)
        exact ⟨(List.mem_erase_of_ne hdiff).mpr hk, rfl, rfl, Iff.rfl⟩

/-- The next item of the queue is the one whose number the index has. -/
theorem taken_id (h : Inv s) {item : PendingItem} (hitem : (s.queue.getD [])[s.idx]? = some item) :
    item.id = s.idx ∧ s.idx < s.job.itemCount ∧ s.queue ≠ none ∧ s.joined = false := by
  cases hqueue : s.queue with
  | none =>
    rw [hqueue] at hitem
    simp at hitem
  | some q =>
    rw [hqueue, Option.getD_some] at hitem
    have hids := h.ids q hqueue
    have hget : (q.map PendingItem.id)[s.idx]? = some item.id := by
      rw [List.getElem?_map, hitem, Option.map_some]
    rw [hids] at hget
    obtain ⟨hlt, hval⟩ := List.getElem?_eq_some_iff.mp hget
    rw [List.length_range] at hlt
    rw [List.getElem_range] at hval
    refine ⟨hval.symm, hlt, Option.some_ne_none q, ?_⟩
    by_contra hjoined
    rw [Bool.not_eq_false] at hjoined
    rw [(h.joined hjoined).2.1] at hlt
    exact absurd hlt (lt_irrefl _)

theorem inv_take (h : Inv s) (hlt : s.idx < s.job.itemCount) (hjoined : s.joined = false)
    (hqueue : s.queue ≠ none) : Inv { s with idx := s.idx + 1, held := (i, s.idx) :: s.held } := by
  refine { h with
    idle := ?_, idx_le := hlt, untouched := ?_, heldTaken := ?_, heldOnce := ?_, handled := ?_
    preparesTaken := ?_, joined := ?_ }
  · exact fun hnone => absurd hnone hqueue
  · exact fun k hk => h.untouched k (Nat.le_of_succ_le hk)
  · intro k hk
    rcases List.mem_cons.mp hk with rfl | hk
    · exact Nat.lt_succ_self _
    · exact Nat.lt_succ_of_lt (h.heldTaken k hk)
  · refine List.nodup_cons.mpr ⟨fun hin => ?_, h.heldOnce⟩
    obtain ⟨k, hk, heq⟩ := List.mem_map.mp hin
    have hklt := h.heldTaken k hk
    rw [heq] at hklt
    exact absurd hklt (lt_irrefl _)
  · intro _ k hk hnot
    rw [List.map_cons, List.mem_cons, not_or] at hnot
    exact h.handled hjoined k (lt_of_le_of_ne (Nat.le_of_lt_succ hk) hnot.1) hnot.2
  · exact fun k hk => Nat.lt_succ_of_lt (h.preparesTaken k hk)
  · intro htrue
    rw [hjoined] at htrue
    cases htrue

theorem wp_takeItems (hi : i ≠ 0) (fuel : ℕ) (s : State) :
    jobWp i (takeItems fuel) (ThrowsAt i) s := by
  induction fuel generalizing s with
  | zero => exact throwsAt_ok
  | succ fuel ih =>
    have htake : jobWp i (perform .take) (fun r u => ∃ next, r = .ok next ∧ ∀ item, next = some item →
        WorkAt i item.id (fun _ prepared prep => prepared = none ∧ ¬ prep) u) s := by
      apply wp_perform (P := fun _ => True) (fun _ _ _ _ _ => trivial) trivial
      intro t _ hinv x r u hu
      simp only [exec] at hu
      split at hu
      · obtain ⟨rfl, rfl⟩ := Prod.mk.inj (Option.some.inj hu)
        exact ⟨hinv, fun j _ => kept_refl j t, none, rfl, fun item hitem => by cases hitem⟩
      · rename_i item hitem
        obtain ⟨rfl, rfl⟩ := Prod.mk.inj (Option.some.inj hu)
        obtain ⟨hid, hlt, hqueue, hjoined⟩ := taken_id hinv hitem
        rw [hid]
        refine ⟨inv_take hinv hlt hjoined hqueue, fun j hj => ?_, _, rfl, fun item' hitem' => ?_⟩
        · by_cases hzero : j = 0
          · rw [hzero, kept_zero]
            exact jobKept_of_pool hqueue hjoined rfl rfl rfl
          · rw [kept_worker hzero]
            exact fun k hk => ⟨List.mem_cons_of_mem _ hk, rfl, rfl, Iff.rfl⟩
        · obtain rfl := Option.some.inj hitem'
          rw [hid]
          refine ⟨List.mem_cons_self, (hinv.untouched _ le_rfl hlt).2, fun hin => ?_⟩
          exact absurd (hinv.preparesTaken _ hin) (lt_irrefl _)
    refine wp_bind (wp_mono (fun r u hu => ?_) htake)
    obtain ⟨next, rfl, hnext⟩ := hu
    cases next with
    | none => exact throwsAt_ok
    | some item =>
      refine wp_bind (wp_mono (fun r v hv => ?_) (wp_runItem hi item (hnext item rfl)))
      cases r with
      | error e => exact hv
      | ok a => exact ih v

/-- A worker keeps the contract. -/
theorem wp_worker (hi : i ≠ 0) (fuel : ℕ) (s : State) : jobWp i (worker fuel) anyEnd s := by
  refine wp_settle (wp_mono (fun r t ht => ?_) (wp_takeItems hi fuel s))
  cases r with
  | ok a => exact trivial
  | error e =>
    obtain ⟨id, hid⟩ := ht e rfl
    have hat : WorkAt i id (fun _ _ _ => True) t := ⟨hid, trivial⟩
    apply wp_perform (stable_workAt hi) hat
    intro u hu hinv x r v hv
    obtain ⟨rfl, rfl⟩ := Prod.mk.inj (Option.some.inj hv)
    have htouch : Touches id u { u with rejected := u.rejected.or (some e) } :=
      ⟨rfl, rfl, rfl, rfl, rfl, rfl, rfl, fun _ _ => ⟨rfl, rfl⟩, .inl rfl⟩
    exact ⟨inv_touches hinv hu.1 htouch, fun j hj => kept_touches hinv hu.1 htouch hj, trivial⟩

end Worker

end PartnerMint
