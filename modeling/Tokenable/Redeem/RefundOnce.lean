import Tokenable.Redeem.Refund

/-!
# How often a batch is refunded

`refundUsdcSection` decides on the stored refund statuses whether the USDC of its batch is still
to be sent, so the batch is paid once as long as no save takes a refunded status back. Only
`returnNft` can do that: it saves the whole row it loaded before its custody transfer.
`KeepsUsdcRefund` excludes exactly those saves; `refund_at_most_once` is the result for every
interleaving whose steps satisfy it, and `refund_twice` is a run with one such save.
-/

namespace Redeem
open Js Platform Async Vault

def refundCount (s : Store) (batchId : JsStr) : ℕ :=
  s.usdcRefunds.countP (fun t => t.batchId = batchId)

inductive RefundCall where
  | refundUsdcBatch (batchId : JsStr)
  | returnNft (id : JsStr)
  | refundFullBatch (batchId : JsStr)

abbrev RefundTask := LProg JsStr Res Empty Unit

def RefundCall.task (env : Env) : RefundCall → RefundTask
  | refundUsdcBatch batchId => (Redeem.refundUsdcBatch env batchId).swallow
  | returnNft id => (Redeem.returnNft env id).swallow
  | refundFullBatch batchId => (Redeem.refundFullBatch env batchId).swallow

/-- No save hits a row whose USDC has been refunded with a copy loaded before that refund. -/
def KeepsUsdcRefund : Allowed Store Cmd
  | _, s, .saveRedemptions rows =>
    ∀ p ∈ rows, ∀ x ∈ s.redemptions.rows, x.id = p.2.id → x.usdcRefunded → p.1.usdcRefunded
  | _, _, _ => True

instance (i : ℕ) (s : Store) (c : Cmd) : Decidable (KeepsUsdcRefund i s c) := by
  cases c <;> unfold KeepsUsdcRefund <;> infer_instance

/-- What no step undoes: the batch of a row, and that its USDC has been refunded. -/
structure RowStep (x y : VaultRedemption) : Prop where
  batch : y.paymentBatchId = x.paymentBatchId
  refunded : x.usdcRefunded → y.usdcRefunded

theorem RowStep.refl (x : VaultRedemption) : RowStep x x := ⟨rfl, id⟩

theorem RowStep.trans (x y z : VaultRedemption) (hxy : RowStep x y) (hyz : RowStep y z) :
    RowStep x z := ⟨hyz.batch.trans hxy.batch, fun h => hyz.refunded (hxy.refunded h)⟩

structure Evolve (s t : Store) : Prop where
  rows : s.redemptions.Keeps RowStep t.redemptions
  noNew : ∀ id, s.redemptions.get id = none → t.redemptions.get id = none

theorem Evolve.refl (s : Store) : Evolve s s := ⟨Db.Table.Keeps.refl RowStep.refl _, fun _ h => h⟩

theorem Evolve.trans (s t u : Store) (hst : Evolve s t) (htu : Evolve t u) : Evolve s u :=
  ⟨hst.rows.trans RowStep.trans htu.rows, fun id h => htu.noNew id (hst.noNew id h)⟩

theorem Evolve.of_eq {s t : Store} (h : t.redemptions = s.redemptions) : Evolve s t := by
  refine ⟨?_, fun id hid => h ▸ hid⟩
  rw [h]
  exact Db.Table.Keeps.refl RowStep.refl _

/-- Every row of a later state was already there, with the same batch. -/
theorem Evolve.back {s t : Store} (h : Evolve s t) {y : VaultRedemption}
    (hy : y ∈ t.redemptions.rows) : ∃ x ∈ s.redemptions.rows, x.id = y.id ∧ RowStep x y := by
  have hget := Db.Table.get_of_mem hy
  cases hs : s.redemptions.get y.id with
  | none => rw [h.noNew y.id hs] at hget; cases hget
  | some x =>
    obtain ⟨z, hz, hxz⟩ := h.rows y.id x hs
    obtain rfl := Option.some.inj (hz.symm.trans hget)
    exact ⟨x, Db.Table.mem_of_get hs, Db.Table.get_key hs, hxz⟩

def AllRefunded (s : Store) (batchId : JsStr) : Prop :=
  ∀ r ∈ s.redemptions.rows, r.inBatch batchId → r.usdcRefunded

theorem AllRefunded.mono {s t : Store} {batchId : JsStr} (h : Evolve s t)
    (hs : AllRefunded s batchId) : AllRefunded t batchId := by
  intro y hy hbatch
  obtain ⟨x, hx, -, hstep⟩ := h.back hy
  refine hstep.refunded (hs x hx ?_)
  rwa [VaultRedemption.inBatch, ← hstep.batch]

/-- The batch lock guards the number of refunds of the batch: while it is free, either none has
been sent or the whole batch says so. -/
def discipline : Discipline JsStr Store ℕ where
  base s := ∀ b, refundCount s b ≤ 1
  evolve := Evolve
  guarded := refundCount
  free s b := refundCount s b = 0 ∨ AllRefunded s b
  evolve_refl := Evolve.refl
  evolve_trans := Evolve.trans
  free_stable s t b _ hst hcount hfree := by
    rcases hfree with hzero | hall
    · exact .inl (hcount.trans hzero)
    · exact .inr (hall.mono hst)

def Loaded (s : Store) (r : VaultRedemption) : Prop :=
  ∃ x, s.redemptions.get r.id = some x ∧ x.paymentBatchId = r.paymentBatchId

theorem Loaded.mono {s t : Store} {r : VaultRedemption} (h : Evolve s t) (hr : Loaded s r) :
    Loaded t r := by
  obtain ⟨x, hx, hbatch⟩ := hr
  obtain ⟨y, hy, hxy⟩ := h.rows r.id x hx
  exact ⟨y, hy, hxy.batch.trans hbatch⟩

theorem loaded_of_mem {s : Store} {r : VaultRedemption} (h : r ∈ s.redemptions.rows) :
    Loaded s r := ⟨r, Db.Table.get_of_mem h, rfl⟩

/-- Saving entities that keep the batch of their copy and do not take a refund back. -/
theorem evolve_saveRedemptions {s : Store} {rows : List (VaultRedemption × VaultRedemption)}
    (hdistinct : rows.Pairwise (fun p q => p.2.id ≠ q.2.id))
    (hrows : ∀ p ∈ rows, Loaded s p.1 ∧ p.2.id = p.1.id ∧
      p.2.paymentBatchId = p.1.paymentBatchId ∧
      ∀ x, s.redemptions.get p.2.id = some x → x.usdcRefunded → p.2.usdcRefunded) :
    Evolve s (s.saveRedemptions (rows.map Prod.snd)) := by
  constructor
  · refine Db.Table.keeps_saveAll RowStep.refl RowStep.trans (List.pairwise_map.mpr hdistinct) ?_
    intro r hr x hx
    obtain ⟨p, hp, rfl⟩ := List.mem_map.mp hr
    obtain ⟨⟨y, hy, hbatch⟩, hid, hsame, hkeep⟩ := hrows p hp
    have hxy : x = y := Option.some.inj (hx.symm.trans (hid ▸ hy))
    exact ⟨hsame.trans (hbatch.symm.trans (by rw [hxy])), hkeep x hx⟩
  · intro id hid
    refine Db.Table.get_eq_none.mpr fun x hx => ?_
    rcases Db.Table.mem_saveAll hx with hmem | ⟨hmem, -⟩
    · obtain ⟨p, hp, rfl⟩ := List.mem_map.mp hmem
      obtain ⟨⟨y, hy, -⟩, hpid, -⟩ := hrows p hp
      rintro rfl
      rw [hpid, hy] at hid
      cases hid
    · exact Db.Table.get_eq_none.mp hid x hmem

variable {env : Env} {i : ℕ} {α : Type}

abbrev Quiet (i : ℕ) (p : M α) : Prop := discipline.Passive exec KeepsUsdcRefund i p

/-- The commands that touch neither the redemption rows nor the refunds. -/
def Inert (c : Cmd) : Prop :=
  ∀ i s x r m, exec i s x c = some (r, m) →
    m.redemptions = s.redemptions ∧ m.usdcRefunds = s.usdcRefunds

theorem quiet_perform {c : Cmd} (hc : Inert c) : Quiet i (perform c) := by
  refine Discipline.passive_call (fun t x r m ht _ hm => ?_) fun r => Discipline.passive_ret _
  obtain ⟨hrows, hrefunds⟩ := hc i t x r m hm
  have hcount : ∀ b, refundCount m b = refundCount t b := fun b => by
    rw [refundCount, hrefunds, refundCount]
  exact ⟨fun b => (hcount b).trans_le (ht b), Evolve.of_eq hrows, hcount⟩

theorem inert_of_read {c : Cmd} (h : ∀ i s x r m, exec i s x c = some (r, m) → m = s) :
    Inert c := fun i s x r m hm => by rw [h i s x r m hm]; exact ⟨rfl, rfl⟩

theorem inert_saveCycle (c : VaultCycle) : Inert (.saveCycle c) := by
  intro i s x r m hm
  cases hm
  exact ⟨rfl, rfl⟩

theorem inert_safeTransferFromCustody (tokenId : ℕ) (to_ : JsStr) (chainId : ℕ) :
    Inert (.safeTransferFromCustody tokenId to_ chainId) := by
  intro i s x r m hm
  simp only [exec] at hm
  split at hm <;> cases hm <;> exact ⟨rfl, rfl⟩

theorem quiet_findClaimOfBatch (batchId : JsStr) : Quiet i (findClaimOfBatch batchId) :=
  quiet_perform (inert_of_read fun _ _ _ _ _ hm => by cases hm; rfl)

theorem quiet_findOldestOfBatch (batchId : JsStr) : Quiet i (findOldestOfBatch batchId) :=
  quiet_perform (inert_of_read fun _ _ _ _ _ hm => by cases hm; rfl)

theorem quiet_findBatch (batchId : JsStr) : Quiet i (findBatch batchId) :=
  quiet_perform (inert_of_read fun _ _ _ _ _ hm => by cases hm; rfl)

theorem quiet_findTokenOfCycle (cycleId : JsStr) : Quiet i (findTokenOfCycle cycleId) :=
  quiet_perform (inert_of_read fun _ _ _ _ _ hm => by cases hm; rfl)

theorem quiet_now : Quiet i now :=
  quiet_perform (inert_of_read fun _ _ _ _ _ hm => by cases hm; rfl)

theorem quiet_safeTransferFromCustody (tokenId : ℕ) (to_ : JsStr) (chainId : ℕ) :
    Quiet i (safeTransferFromCustody tokenId to_ chainId) :=
  Discipline.passive_bind (quiet_perform (inert_safeTransferFromCustody tokenId to_ chainId))
    fun sent => Discipline.passive_ret sent

theorem quiet_getPaymentReceivedMicrosForBatch (batchId : JsStr) :
    Quiet i (getPaymentReceivedMicrosForBatch batchId) := by
  unfold getPaymentReceivedMicrosForBatch
  split_ifs with hempty
  · exact Discipline.passive_ret _
  · refine Discipline.passive_bind (quiet_findClaimOfBatch _) fun claim => ?_
    cases trimmedDigits (claim.bind PaymentClaim.paymentReceivedUsdcMicros) with
    | some fromClaim => exact Discipline.passive_ret _
    | none =>
      exact Discipline.passive_bind (quiet_findOldestOfBatch _) fun row => Discipline.passive_ret _

theorem quiet_resetCycles (cycles : List VaultCycle) : Quiet i (resetCycles cycles) := by
  induction cycles with
  | nil => exact Discipline.passive_ret _
  | cons cycle cycles ih =>
    refine Discipline.passive_bind ?_ fun _ => ih
    unfold resetCycle
    split_ifs
    · exact quiet_perform (inert_saveCycle _)
    · exact Discipline.passive_ret _

theorem quiet_resetCyclesIfRefunded (rows : List VaultRedemption) :
    Quiet i (resetCyclesIfRefunded rows) := by
  unfold resetCyclesIfRefunded
  dsimp only
  split_ifs
  · exact Discipline.passive_ret _
  · refine Discipline.passive_bind (quiet_perform ?_) quiet_resetCycles
    exact inert_of_read fun _ _ _ _ _ hm => by cases hm; rfl

theorem refundCount_addUsdcRefund (s : Store) (t : UsdcRefund) (batchId : JsStr) :
    refundCount (s.addUsdcRefund t) batchId =
      if t.batchId = batchId then refundCount s batchId + 1 else refundCount s batchId := by
  simp only [refundCount, Store.addUsdcRefund, List.countP_append, List.countP_singleton]
  split_ifs <;> simp_all

/-- Nobody else refunds the batch while the task holds its lock. -/
theorem lwp_transferUsdc {s : Locked JsStr Store} {batchId to_ amountMicros : JsStr} {chainId : ℕ}
    {Q : Except HttpError JsStr → Locked JsStr Store → Prop}
    (hheld : s.Held i batchId) (hzero : refundCount s.mem batchId = 0)
    (herr : ∀ e u, discipline.Rely i s u → discipline.base u.mem → Q (.error e) u)
    (hok : ∀ h u, Evolve s.mem u.mem → u.Held i batchId → discipline.base u.mem →
      Q (.ok h) u) :
    discipline.lwp exec KeepsUsdcRefund i (transferUsdc batchId to_ amountMicros chainId) Q s := by
  refine wp_bind (Discipline.lwp_mem fun t hst ht _ x r m hm => ?_)
  simp only [exec] at hm
  split at hm
  · rename_i txHash hreply
    cases hm
    have hcount : refundCount t.mem batchId = 0 := (hst.guarded batchId hheld).trans hzero
    have hbase : discipline.base
        (t.mem.addUsdcRefund ⟨batchId, to_, amountMicros, chainId, txHash⟩) := by
      intro k
      rw [refundCount_addUsdcRefund]
      split_ifs with hk
      · rw [← hk, hcount]
      · exact ht k
    refine ⟨hbase, Evolve.of_eq rfl, fun k hk => ?_, ?_⟩
    · refine (refundCount_addUsdcRefund _ _ _).trans (if_neg ?_)
      rintro rfl
      exact hk (hst.held _ hheld)
    · exact hok txHash _ (hst.evolve.trans _ _ _ (Evolve.of_eq rfl)) (hst.held _ hheld) hbase
  · cases hm
    exact ⟨ht, Evolve.refl _, fun _ _ => rfl, herr _ _ hst ht⟩

/-- `rows` are copies of all the stored rows of the batch. -/
structure Covers (s : Store) (batchId : JsStr) (rows : List VaultRedemption) : Prop where
  loaded : ∀ r ∈ rows, Loaded s r
  distinct : rows.Pairwise (fun a b => a.id ≠ b.id)
  cover : ∀ r ∈ s.redemptions.rows, r.inBatch batchId → r.id ∈ rows.map VaultRedemption.id

theorem covers_batch (s : Store) (batchId : JsStr) : Covers s batchId (s.batch batchId) where
  loaded _ hr := loaded_of_mem (mem_batch.mp hr).1
  distinct := batch_distinct s batchId
  cover _ hr hbatch := List.mem_map_of_mem (mem_batch.mpr ⟨hr, hbatch⟩)

theorem Covers.mono {s t : Store} {batchId : JsStr} {rows : List VaultRedemption}
    (hrows : Covers s batchId rows) (h : Evolve s t) : Covers t batchId rows where
  loaded r hr := (hrows.loaded r hr).mono h
  distinct := hrows.distinct
  cover y hy hbatch := by
    obtain ⟨x, hx, hid, hstep⟩ := h.back hy
    rw [← hid]
    refine hrows.cover x hx ?_
    rwa [VaultRedemption.inBatch, ← hstep.batch]

/-- The writes that follow a refund leave the whole batch refunded. -/
theorem recordRefund_keeps {s : Locked JsStr Store} {batchId txHash amountMicros : JsStr}
    {rows : List VaultRedemption} {Q : Except HttpError RefundUsdcResult → Locked JsStr Store → Prop}
    (hheld : s.Held i batchId) (hrows : Covers s.mem batchId rows)
    (hQ : ∀ r u, discipline.base u.mem → u.Held i batchId → discipline.free u.mem batchId →
      Q r u) :
    discipline.lwp exec KeepsUsdcRefund i (recordRefund rows txHash amountMicros) Q s := by
  refine wp_bind (Discipline.lwp_read (fun _ _ _ _ hm => by cases hm; rfl)
    fun t₁ x at_ ht₁ hbase₁ _ => ?_)
  have hcov₁ := hrows.mono ht₁.evolve
  refine wp_bind (Discipline.lwp_mem fun t₂ ht₂ hbase₂ _ y r m hm => ?_)
  cases hm
  have hcov₂ := hcov₁.mono ht₂.evolve
  set saved := rows.map (fun r => (r, r.applyUsdcRefundFields txHash amountMicros at_)) with hsaved
  have hevolve : Evolve t₂.mem (t₂.mem.saveRedemptions (saved.map Prod.snd)) := by
    refine evolve_saveRedemptions ?_ ?_
    · rw [hsaved, List.pairwise_map]
      exact hrows.distinct.imp fun h => by simpa using h
    · intro p hp
      obtain ⟨r, hr, rfl⟩ := List.mem_map.mp hp
      exact ⟨hcov₂.loaded r hr, by simp, by simp, fun _ _ _ => by simp⟩
  have hall : AllRefunded (t₂.mem.saveRedemptions (saved.map Prod.snd)) batchId := by
    intro y hy hbatch
    rcases Db.Table.mem_saveAll hy with hmem | ⟨hmem, hnot⟩
    · obtain ⟨p, hp, rfl⟩ := List.mem_map.mp hmem
      obtain ⟨r, -, rfl⟩ := List.mem_map.mp hp
      simp
    · refine absurd (hcov₂.cover y hmem hbatch) ?_
      simpa [hsaved, Function.comp_def] using hnot
  refine ⟨hbase₂, hevolve, fun _ _ => rfl, ?_⟩
  refine Discipline.lwp_bind_passive (quiet_resetCyclesIfRefunded _) hbase₂ ?_ ?_
  · intro e u hu hbase
    refine hQ _ u hbase (hu.held _ (ht₂.held _ (ht₁.held _ hheld))) (.inr (hall.mono hu.evolve))
  · intro _ u hu hbase
    refine hQ _ u hbase (hu.held _ (ht₂.held _ (ht₁.held _ hheld))) (.inr (hall.mono hu.evolve))

theorem refundUsdcSection_keeps {t : Locked JsStr Store} {batchId : JsStr}
    {Q : Except HttpError RefundUsdcResult → Locked JsStr Store → Prop}
    (ht : discipline.base t.mem) (hheld : t.Held i batchId) (hfree : discipline.free t.mem batchId)
    (hQ : ∀ r u, discipline.base u.mem → u.Held i batchId → discipline.free u.mem batchId →
      Q r u) :
    discipline.lwp exec KeepsUsdcRefund i (refundUsdcSection env batchId) Q t := by
  have hquit : ∀ r u, discipline.Rely i t u → discipline.base u.mem → Q r u := by
    intro r u htu hu
    refine hQ r u hu (htu.held _ hheld) ?_
    exact discipline.free_stable _ _ _ ht htu.evolve (htu.guarded _ hheld) hfree
  refine wp_bind (Discipline.lwp_read (fun _ _ _ _ hm => by cases hm; rfl)
    fun t₁ x rows ht₁ hbase₁ hrows => ?_)
  cases hrows
  refine Discipline.lwp_bind_passive (Discipline.passive_orThrow _ _) hbase₁
    (fun e u hu => hquit _ u (ht₁.trans hu)) fun first t₂ ht₂ hbase₂ => ?_
  refine Discipline.lwp_bind_passive (Discipline.passive_ret _) hbase₂
    (fun e u hu => hquit _ u (ht₁.trans (ht₂.trans hu))) fun _ t₃ ht₃ hbase₃ => ?_
  have h₃ := ht₁.trans (ht₂.trans ht₃)
  by_cases hall : (t₁.mem.batch batchId).all VaultRedemption.usdcRefunded
  · rw [if_pos hall]
    exact wp_ret (hquit _ _ h₃ hbase₃)
  rw [if_neg hall]
  have hzero : refundCount t.mem batchId = 0 := by
    rcases hfree with hzero | hrefunded
    · exact hzero
    · refine absurd (List.all_eq_true.mpr fun r hr => ?_) hall
      exact hrefunded.mono ht₁.evolve r (mem_batch.mp hr).1 (mem_batch.mp hr).2
  refine Discipline.lwp_bind_passive (quiet_getPaymentReceivedMicrosForBatch _) hbase₃
    (fun e u hu => hquit _ u (h₃.trans hu)) fun received t₄ ht₄ hbase₄ => ?_
  have h₄ := h₃.trans ht₄
  dsimp only
  refine Discipline.lwp_bind_passive (Discipline.passive_throwIf _ _) hbase₄
    (fun e u hu => hquit _ u (h₄.trans hu)) fun _ t₅ ht₅ hbase₅ => ?_
  refine Discipline.lwp_bind_passive (Discipline.passive_throwIf _ _) hbase₅
    (fun e u hu => hquit _ u (h₄.trans (ht₅.trans hu))) fun _ t₆ ht₆ hbase₆ => ?_
  have h₆ := h₄.trans (ht₅.trans ht₆)
  refine wp_bind (lwp_transferUsdc (h₆.held _ hheld) ((h₆.guarded _ hheld).trans hzero)
    (fun e u hu => hquit _ u (h₆.trans hu)) fun txHash t₇ ht₇ hheld₇ hbase₇ => ?_)
  have h₁₆ := ht₂.trans (ht₃.trans (ht₄.trans (ht₅.trans ht₆)))
  exact recordRefund_keeps hheld₇
    ((covers_batch t₁.mem batchId).mono (h₁₆.evolve.trans _ _ _ ht₇)) hQ

theorem passive_recordReturn (row : VaultRedemption) (txHash : JsStr) (at_ : ℕ) :
    discipline.PassiveFrom exec KeepsUsdcRefund i (fun s => Loaded s row)
      (recordReturn row txHash at_) := by
  intro s Q hs hrow hQ
  refine wp_bind (Discipline.lwp_mem fun t ht hbase hok _ r m hm => ?_)
  cases hm
  have hevolve : Evolve t.mem
      (t.mem.saveRedemptions ([(row, row.applyNftReturnFields txHash at_)].map Prod.snd)) := by
    refine evolve_saveRedemptions (List.pairwise_singleton _ _) fun p hp => ?_
    obtain rfl := List.mem_singleton.mp hp
    refine ⟨hrow.mono ht.evolve, by simp, by simp, fun x hx hrefunded => ?_⟩
    have hkeep := hok _ (.head _) x (Db.Table.mem_of_get hx) (Db.Table.get_key hx) hrefunded
    simpa using hkeep
  have htu := Discipline.rely_of_evolve (D := discipline) (t := t) (i := i) hevolve fun _ => rfl
  refine ⟨hbase, hevolve, fun _ _ => rfl, ?_⟩
  refine Discipline.lwp_bind_passive (quiet_resetCyclesIfRefunded _) hbase
    (fun e u hu => hQ _ u (ht.trans (htu.trans hu))) fun _ u hu hbase' => ?_
  exact hQ _ u (ht.trans (htu.trans hu)) hbase'

theorem quiet_returnNft (id : JsStr) : Quiet i (returnNft env id) := by
  intro s Q hs _ hQ
  refine wp_bind (Discipline.lwp_read (fun _ _ _ _ hm => by cases hm; rfl)
    fun t x found ht hbase hfound => ?_)
  cases hfound
  refine wp_bind (wp_orThrow (fun _ => hQ _ _ ht hbase) fun row hget => ?_)
  have hrow := loaded_of_mem (Db.Table.mem_of_get hget)
  have hkeep : ∀ s t, Evolve s t → Loaded s row → Loaded t row := fun _ _ h hr => hr.mono h
  have hrest : discipline.PassiveFrom exec KeepsUsdcRefund i (fun s => Loaded s row)
      (returnLoaded env row) := by
    refine Discipline.passiveFrom_bind hkeep (Discipline.passive_ret _) fun _ => ?_
    split_ifs
    · exact Discipline.passiveFrom_ret _
    refine Discipline.passiveFrom_bind hkeep (Discipline.passive_throwIf _ _) fun _ => ?_
    refine Discipline.passiveFrom_bind hkeep (quiet_findTokenOfCycle _) fun token => ?_
    refine Discipline.passiveFrom_bind hkeep (Discipline.passive_orThrow _ _) fun tokenIdText => ?_
    refine Discipline.passiveFrom_bind hkeep (Discipline.passive_orThrow _ _) fun tokenId => ?_
    refine Discipline.passiveFrom_bind hkeep (quiet_safeTransferFromCustody _ _ _) fun txHash => ?_
    exact Discipline.passiveFrom_bind hkeep quiet_now fun at_ => passive_recordReturn row txHash at_
  exact hrest t Q hbase hrow fun r u hu => hQ r u (ht.trans hu)

theorem quiet_returnRows (rows : List VaultRedemption) : Quiet i (returnRows env rows) := by
  induction rows with
  | nil => exact Discipline.passive_ret _
  | cons row rows ih =>
    refine Discipline.passive_bind ?_ fun entry =>
      Discipline.passive_bind ih fun rest => Discipline.passive_ret _
    unfold returnRow
    split_ifs
    · refine Discipline.passive_settle (quiet_returnNft row.id) fun r => ?_
      cases r with
      | ok result => exact Discipline.passive_ret _
      | error err => exact Discipline.passive_ret _
    all_goals exact Discipline.passive_ret _

theorem refundUsdcBatch_keeps {s : Locked JsStr Store} {batchId : JsStr}
    {Q : Except HttpError RefundUsdcResult → Locked JsStr Store → Prop}
    (hQ : ∀ r u, discipline.base u.mem → Q r u) :
    discipline.lwp exec KeepsUsdcRefund i (refundUsdcBatch env batchId) Q s := by
  refine Discipline.lwp_withLock fun t _ ht hheld hfree => ?_
  refine refundUsdcSection_keeps ht hheld hfree fun r u hu hheld' hfree' => ?_
  exact ⟨hu, hheld', hfree', fun v _ hv => hQ r v hv⟩

theorem refundFullBatch_keeps {s : Locked JsStr Store} (batchId : JsStr) :
    discipline.lwp exec KeepsUsdcRefund i (refundFullBatch env batchId) anyEnd s := by
  refine wp_bind (refundUsdcBatch_keeps fun r t ht => ?_)
  cases r with
  | error e => exact trivial
  | ok usdc =>
    have hrest : Quiet i (do
        let rows ← findBatch batchId
        let nftReturns ← returnRows env rows
        pure (⟨usdc, nftReturns⟩ : RefundFullResult)) :=
      Discipline.passive_bind (quiet_findBatch batchId) fun rows =>
        Discipline.passive_bind (quiet_returnRows rows) fun _ => Discipline.passive_ret _
    exact hrest t anyEnd ht trivial fun _ _ _ _ => trivial

theorem refundCall_keeps (c : RefundCall) (i : ℕ) (s : Locked JsStr Store)
    (hs : discipline.contract.inv s) : wp (lockedHandler exec) (lockedAllowed KeepsUsdcRefund)
      discipline.contract i (c.task env) anyEnd s := by
  cases c with
  | refundUsdcBatch batchId => exact wp_swallow (refundUsdcBatch_keeps fun _ _ _ => trivial)
  | returnNft id =>
    exact wp_swallow (quiet_returnNft id s _ hs.base trivial fun _ _ _ _ => trivial)
  | refundFullBatch batchId => exact wp_swallow (refundFullBatch_keeps batchId)

abbrev RefundPool := Pool (Locked JsStr Store) (LockCmd JsStr ⊕ Cmd) (LockRes JsStr Res) Empty Unit

def start (s : Store) : RefundPool := ⟨⟨Locks.unheld, s⟩, []⟩

/-- In every run of refund calls, in any number and interleaving, whose saves keep the refunds
that are already stored, each batch is refunded at most once. -/
theorem refund_at_most_once (env : Env) (s : Store) (hs : s.usdcRefunds = []) (q : RefundPool)
    (hrun : Pool.Reach (lockedHandler exec) (RefundCall.task env) (lockedAllowed KeepsUsdcRefund)
      (start s) q) (batchId : JsStr) : refundCount q.shared.mem batchId ≤ 1 := by
  have hzero : ∀ b, refundCount s b = 0 := fun b => by rw [refundCount, hs]; rfl
  have hinit : discipline.contract.inv (start s).shared :=
    ⟨fun b => (hzero b).trans_le (Nat.zero_le 1), fun b _ => .inl (hzero b)⟩
  have hinv := Pool.inv_of_reach (fun c i t ht => refundCall_keeps c i t ht) hinit hrun
  exact hinv.base batchId

section Runs

/-- One card in custody, paid with 100 micros in batch `b`. -/
def heldCard : VaultRedemption where
  id := js "r"
  vaultCycleId := js "c"
  ownerWalletAddress := js "0x00000000000000000000000000000000000000aa"
  requestedAt := 0
  status := .inCustody
  paymentBatchId := some (js "b")
  paymentReceivedUsdcMicros := some (js "100")
  custodyAt := some 0

def heldStore : Store where
  redemptions := ⟨[heldCard], by decide⟩
  claims := ⟨[⟨js "p", js "b", some (js "100"), none⟩], by decide⟩
  cycles := Db.Table.empty
  tokens := ⟨[{ tokenContract := js "n", tokenId := js "1", vaultCycleId := some (js "c") }],
    by decide⟩
  usdcRefunds := []
  custodyReturns := []

def feeEnv : Env where
  platformFeePrivateKey := some (js "key")
  platformFeeRecipient := some (js "0x00000000000000000000000000000000000000fe")

def steps (i n : ℕ) : List (Pool.Event RefundCall Oracle) :=
  List.replicate n (.run i { reply := .ok (js "0x01"), now := 1 })

/-- The refund runs to its end before the NFT is returned, and a second refund finds it done. -/
def refundThenReturn : List (Pool.Event RefundCall Oracle) :=
  .spawn (.refundUsdcBatch (js "b")) :: steps 0 8 ++ .spawn (.returnNft (js "r")) :: steps 1 6 ++
    .spawn (.refundFullBatch (js "b")) :: steps 2 3

theorem refund_at_most_once_refundThenReturn :
    ∃ q, Pool.Reach (lockedHandler exec) (RefundCall.task feeEnv) (lockedAllowed KeepsUsdcRefund)
      (start heldStore) q ∧ refundCount q.shared.mem (js "b") = 1 ∧
      refundCount q.shared.mem (js "b") ≤ 1 := by
  have hplay : ∃ q, Pool.Reach (lockedHandler exec) (RefundCall.task feeEnv)
      (lockedAllowed KeepsUsdcRefund) (start heldStore) q ∧
      refundCount q.shared.mem (js "b") = 1 :=
    Pool.exists_reach_of_runSchedule refundThenReturn _ (by decide)
  obtain ⟨q, hq, hcount⟩ := hplay
  exact ⟨q, hq, hcount, refund_at_most_once feeEnv heldStore rfl q hq (js "b")⟩

/-- `returnNft` loads the row, a whole `refundUsdcBatch` runs, `returnNft` saves its old copy,
and the batch is refunded again. -/
def staleReturn : List (Pool.Event RefundCall Oracle) :=
  .spawn (.returnNft (js "r")) :: steps 0 1 ++ .spawn (.refundUsdcBatch (js "b")) :: steps 1 8 ++
    steps 0 4 ++ .spawn (.refundUsdcBatch (js "b")) :: steps 2 5

theorem refund_twice :
    ∃ q, Pool.Reach (lockedHandler exec) (RefundCall.task feeEnv) (lockedAllowed anyStep)
      (start heldStore) q ∧ refundCount q.shared.mem (js "b") = 2 :=
  Pool.exists_reach_of_runSchedule staleReturn _ (by decide)

end Runs

end Redeem
