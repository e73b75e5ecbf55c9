import Tokenable.Platform.FeeWallet
import Tokenable.Redeem.Refund

/-!
# Refunds that fail and are repeated

One call of `refundUsdcBatch` after the other, each of them stopped after any number of its writes.
`refundDue` is what a call decides from what it reads. A call that finds the refund due sends the
USDC, saves the rows and resets their cycles one by one; a call that finds the rows refunded makes no
write, also when a transfer was repeated or a cycle was left behind.
-/

namespace Redeem
open Js Platform Async Vault

structure RefundWorld where
  wallet : FeeWallet
  custodyReply : Except HttpError JsStr := .ok []
  now : ℕ

/-- One call at a time: the locks are free, and only this call changes the store. -/
def solo (env : Env) (w : RefundWorld) (s : Store) :
    (c : LockCmd JsStr ⊕ Cmd) → LockRes JsStr Res c × Store
  | .inl _ => ((), s)
  | .inr (.findBatch batchId) => (s.batch batchId, s)
  | .inr (.findRedemption id) => (s.redemptions.get id, s)
  | .inr (.findClaimOfBatch batchId) =>
    (s.claims.rows.find? (fun c => c.paymentBatchId = batchId), s)
  | .inr (.findOldestOfBatch batchId) => ((s.batch batchId).head?, s)
  | .inr (.findTokenOfCycle cycleId) =>
    (s.tokens.rows.find? (fun t => t.vaultCycleId = some cycleId), s)
  | .inr (.findCycles ids) => (s.cycles.find (fun c => c.id ∈ ids), s)
  | .inr (.saveRedemptions rows) => ((), s.saveRedemptions (rows.map Prod.snd))
  | .inr (.saveCycle cycle) => ((), { s with cycles := s.cycles.save cycle })
  | .inr (.transferUsdc batchId to_ amountMicros chainId) =>
    let transfer := Platform.transferUsdc env w.wallet to_ amountMicros chainId
    (transfer.answer,
      transfer.moved.elim s fun txHash =>
        s.addUsdcRefund ⟨batchId, to_, amountMicros, chainId, txHash⟩)
  | .inr (.safeTransferFromCustody tokenId to_ chainId) =>
    (w.custodyReply, match w.custodyReply with
      | .ok txHash => { s with custodyReturns := s.custodyReturns ++ [⟨tokenId, to_, chainId, txHash⟩] }
      | .error _ => s)
  | .inr .now => (w.now, s)

def isWrite : LockCmd JsStr ⊕ Cmd → Bool
  | .inr (.saveRedemptions _) | .inr (.saveCycle _) | .inr (.transferUsdc ..)
  | .inr (.safeTransferFromCustody ..) => true
  | _ => false

def refundOnce (env : Env) (batchId : JsStr) (w : RefundWorld) (s : Store) :
    Except HttpError RefundUsdcResult × Store :=
  (refundUsdcBatch env batchId).play (solo env w) s

structure RefundAttempt where
  world : RefundWorld
  writes : ℕ

def refundAttempts (env : Env) (batchId : JsStr) (as : List RefundAttempt) (s : Store) : Store :=
  as.foldl (fun t a => ((refundUsdcBatch env batchId).playFor (solo env a.world) isWrite a.writes t).2) s

def Store.receivedMicros (s : Store) (batchId : JsStr) : Option JsStr :=
  if (trim batchId).isEmpty then none
  else
    (trimmedDigits ((s.claims.rows.find? fun c => c.paymentBatchId = trim batchId).bind
      PaymentClaim.paymentReceivedUsdcMicros)).or
      (trimmedDigits ((s.batch (trim batchId)).head?.bind VaultRedemption.paymentReceivedUsdcMicros))

/-- The cycles of the rows that the refund of the batch sets to refunded. -/
def Store.refundedCycleIds (s : Store) (batchId : JsStr) : List JsStr :=
  (((s.batch batchId).filter fun r =>
    (r.applyUsdcRefundFields [] [] 0).status = .refunded).map VaultRedemption.vaultCycleId).dedup

def Store.requestedCycles (s : Store) (ids : List JsStr) : List VaultCycle :=
  (s.cycles.find fun c => c.id ∈ ids).filter fun c => c.status = .redemptionRequested

inductive RefundDue where
  | refused (e : HttpError)
  | done (txHash : Option JsStr)
  | owed (first : VaultRedemption) (amountMicros : JsStr)

/-- What `refundUsdcBatch` decides before its first write. -/
def refundDue (env : Env) (s : Store) (batchId : JsStr) : RefundDue :=
  match (s.batch batchId).head? with
  | none => .refused (.notFound (js "No redemptions for batch " ++ batchId))
  | some first =>
    match assertRefundable (s.batch batchId) with
    | .error e => .refused e
    | .ok _ =>
      if (s.batch batchId).all VaultRedemption.usdcRefunded then .done first.refundTxHash
      else
        let amountMicros := trim ((s.receivedMicros batchId).getD [])
        if !isDigits amountMicros || toNat amountMicros = 0 then .refused missingAmount
        else if !env.isConfigured then
          .refused (.badRequest (js "PLATFORM_FEE_PRIVATE_KEY is not configured"))
        else .owed first amountMicros

section Calls
variable {env : Env} {w : RefundWorld} {n : ℕ} {s : Store} {batchId : JsStr} {α β : Type}

theorem playFor_perform {c : Cmd} {f : Res c → M α} (hc : isWrite (.inr c) = false) :
    (perform c >>= f).playFor (solo env w) isWrite n s =
      (f (solo env w s (.inr c)).1).playFor (solo env w) isWrite n (solo env w s (.inr c)).2 :=
  Prog.playFor_read hc

theorem playFor_throwIf (b : Bool) (e : HttpError) (f : Unit → M α) :
    (Prog.throwIf b e >>= f).playFor (solo env w) isWrite n s =
      if b then (some (.error e), s) else (f ()).playFor (solo env w) isWrite n s := by
  cases b <;> rfl

theorem playFor_getPaymentReceivedMicrosForBatch (f : Option JsStr → M α) :
    (getPaymentReceivedMicrosForBatch batchId >>= f).playFor (solo env w) isWrite n s =
      (f (s.receivedMicros batchId)).playFor (solo env w) isWrite n s := by
  unfold getPaymentReceivedMicrosForBatch Store.receivedMicros
  split_ifs with hblank
  · rfl
  · have hread : ∀ next : Option PaymentClaim → M α,
        (Prog.call (.inr (.findClaimOfBatch (trim batchId))) next : M α).playFor (solo env w) isWrite
          n s = (next (s.claims.rows.find? fun c => c.paymentBatchId = trim batchId)).playFor
            (solo env w) isWrite n s := fun next => Prog.playFor_read rfl
    refine (hread _).trans ?_
    simp only [Prog.settle_ret, Prog.onOk]
    cases hclaim : trimmedDigits ((s.claims.rows.find? fun c => c.paymentBatchId = trim batchId).bind
        PaymentClaim.paymentReceivedUsdcMicros) with
    | some fromClaim => rfl
    | none => rfl

def sendAndRecord (env : Env) (batchId : JsStr) (rows : List VaultRedemption)
    (first : VaultRedemption) (amountMicros : JsStr) : M RefundUsdcResult := do
  let txHash ← transferUsdc batchId first.ownerWalletAddress amountMicros
    (env.resolveChainId first.chainId)
  recordRefund rows txHash amountMicros

theorem playFor_refundUsdcSection :
    (refundUsdcSection env batchId).playFor (solo env w) isWrite n s =
      match refundDue env s batchId with
      | .refused e => (some (.error e), s)
      | .done txHash => (some (.ok ⟨txHash, true⟩), s)
      | .owed first amountMicros =>
        (sendAndRecord env batchId (s.batch batchId) first amountMicros).playFor (solo env w) isWrite
          n s := by
  refine (playFor_perform rfl).trans ?_
  dsimp only [solo]
  unfold refundDue
  cases (s.batch batchId).head? with
  | none => rfl
  | some first =>
    cases assertRefundable (s.batch batchId) with
    | error e => rfl
    | ok u =>
      have hcases : ∀ p q : M RefundUsdcResult,
          (if (s.batch batchId).all VaultRedemption.usdcRefunded then p else q).playFor (solo env w)
            isWrite n s =
          if (s.batch batchId).all VaultRedemption.usdcRefunded then p.playFor (solo env w) isWrite n s
          else q.playFor (solo env w) isWrite n s := by
        intro p q
        split_ifs <;> rfl
      refine (hcases _ _).trans ?_
      dsimp only
      split_ifs with hall hamount hconfigured
      · rfl
      · refine (playFor_getPaymentReceivedMicrosForBatch _).trans ?_
        rw [playFor_throwIf, if_pos hamount]
      · refine (playFor_getPaymentReceivedMicrosForBatch _).trans ?_
        rw [playFor_throwIf, if_neg hamount, playFor_throwIf, if_pos hconfigured]
      · refine (playFor_getPaymentReceivedMicrosForBatch _).trans ?_
        rw [playFor_throwIf, if_neg hamount, playFor_throwIf, if_neg hconfigured]
        rfl

theorem playFor_refundUsdcBatch :
    (refundUsdcBatch env batchId).playFor (solo env w) isWrite n s =
      (refundUsdcSection env batchId).playFor (solo env w) isWrite n s := by
  refine (Prog.playFor_read rfl).trans ((Prog.playFor_read rfl).trans ?_)
  exact Prog.playFor_settle_of_idle fun r m t => rfl

def resetTo (cycle : VaultCycle) : VaultCycle := { cycle with status := .minted }

def Store.resetAll (s : Store) (cycles : List VaultCycle) : Store :=
  { s with cycles := s.cycles.saveAll (cycles.map resetTo) }

/-- The loop of `resetCyclesIfRefunded` writes one cycle at a time. -/
theorem playFor_resetCycles (cycles : List VaultCycle) (f : Unit → M α) :
    (resetCycles cycles >>= f).playFor (solo env w) isWrite n s =
      let requested := cycles.filter (fun c => c.status = .redemptionRequested)
      if requested.length ≤ n then
        (f ()).playFor (solo env w) isWrite (n - requested.length) (s.resetAll requested)
      else (none, s.resetAll (requested.take n)) := by
  induction cycles generalizing n s with
  | nil => rfl
  | cons cycle cycles ih =>
    by_cases hrequested : cycle.status = .redemptionRequested
    · have hreset : resetCycle cycle = saveCycle (resetTo cycle) := if_pos hrequested
      have hfilter : (cycle :: cycles).filter (fun c => c.status = .redemptionRequested) =
          cycle :: cycles.filter (fun c => c.status = .redemptionRequested) := by
        simp [hrequested]
      rw [hfilter, resetCycles, hreset]
      cases n with
      | zero => exact Prog.playFor_write_zero rfl
      | succ n =>
        refine (Prog.playFor_write_succ rfl).trans ((ih (n := n)).trans ?_)
        simp only [List.length_cons, Nat.succ_le_succ_iff, Nat.add_sub_add_right, List.take_succ_cons]
        rfl
    · have hreset : resetCycle cycle = pure () := if_neg hrequested
      have hfilter : (cycle :: cycles).filter (fun c => c.status = .redemptionRequested) =
          cycles.filter (fun c => c.status = .redemptionRequested) := by
        simp [hrequested]
      rw [hfilter, resetCycles, hreset]
      exact ih

theorem playFor_resetCyclesOf (ids : List JsStr) (f : Unit → M α) :
    ((if ids.isEmpty then pure () else findCycles ids >>= resetCycles) >>= f).playFor (solo env w)
        isWrite n s =
      if (s.requestedCycles ids).length ≤ n then
        (f ()).playFor (solo env w) isWrite (n - (s.requestedCycles ids).length)
          (s.resetAll (s.requestedCycles ids))
      else (none, s.resetAll ((s.requestedCycles ids).take n)) := by
  by_cases hempty : ids.isEmpty = true
  · obtain rfl : ids = [] := List.isEmpty_iff.mp hempty
    have hnone : s.requestedCycles [] = [] := by
      simp [Store.requestedCycles, Db.Table.find]
    rw [hnone]
    rfl
  · rw [if_neg hempty]
    exact (playFor_perform rfl).trans (playFor_resetCycles _ f)

def Store.refundRows (s : Store) (batchId txHash amountMicros : JsStr) (at_ : ℕ) : Store :=
  s.saveRedemptions ((s.batch batchId).map fun r => r.applyUsdcRefundFields txHash amountMicros at_)

/-- Whether a refund closes a row does not depend on its transaction. -/
theorem refundedCycleIds_map (rows : List VaultRedemption) (txHash amountMicros : JsStr) (at_ : ℕ) :
    ((rows.map fun r => r.applyUsdcRefundFields txHash amountMicros at_).filter
        fun r => r.status = .refunded).map VaultRedemption.vaultCycleId =
      (rows.filter fun r => (r.applyUsdcRefundFields [] [] 0).status = .refunded).map
        VaultRedemption.vaultCycleId := by
  simp only [List.filter_map, List.map_map, Function.comp_def,
    VaultRedemption.status_applyUsdcRefundFields, VaultRedemption.vaultCycleId_applyUsdcRefundFields]

theorem playFor_recordRefund {s t : Store} {txHash amountMicros : JsStr}
    (hcycles : t.cycles = s.cycles) (hrows : t.redemptions = s.redemptions) :
    let ids := s.refundedCycleIds batchId
    let saved := t.refundRows batchId txHash amountMicros w.now
    (recordRefund (s.batch batchId) txHash amountMicros).playFor (solo env w) isWrite n t =
      match n with
      | 0 => (none, t)
      | n + 1 =>
        if (s.requestedCycles ids).length ≤ n then
          (some (.ok ⟨some txHash, false⟩), saved.resetAll (s.requestedCycles ids))
        else (none, saved.resetAll ((s.requestedCycles ids).take n)) := by
  dsimp only
  refine (playFor_perform rfl).trans ?_
  cases n with
  | zero => exact Prog.playFor_write_zero rfl
  | succ n =>
    refine (Prog.playFor_write_succ rfl).trans ?_
    have hpairs : ((s.batch batchId).map fun r =>
        (r, r.applyUsdcRefundFields txHash amountMicros w.now)).map Prod.snd =
          (s.batch batchId).map fun r => r.applyUsdcRefundFields txHash amountMicros w.now := by
      rw [List.map_map]
      rfl
    have hbatch : t.batch batchId = s.batch batchId := by rw [Store.batch, hrows, Store.batch]
    have hsame : (t.refundRows batchId txHash amountMicros w.now).requestedCycles
        (s.refundedCycleIds batchId) = s.requestedCycles (s.refundedCycleIds batchId) := by
      rw [Store.requestedCycles, Store.requestedCycles, ← hcycles]
      rfl
    have hreset : resetCyclesIfRefunded ((s.batch batchId).map fun r =>
        r.applyUsdcRefundFields txHash amountMicros w.now) =
          if (s.refundedCycleIds batchId).isEmpty then pure ()
          else findCycles (s.refundedCycleIds batchId) >>= resetCycles := by
      unfold resetCyclesIfRefunded Store.refundedCycleIds
      rw [refundedCycleIds_map]
    dsimp only [solo]
    rw [hpairs, hreset]
    refine (playFor_resetCyclesOf _ _).trans ?_
    rw [← hsame, Store.refundRows, hbatch]
    rfl

end Calls

/-- The transfers out of the fee wallet, without their transactions. -/
def Store.sent (s : Store) : List (JsStr × JsStr × JsStr × ℕ) :=
  s.usdcRefunds.map fun r => (r.batchId, r.to_, r.amountMicros, r.chainId)

/-- What one refund of the batch sends: nothing, when the fee wallet is the owner. -/
def refundOf (env : Env) (batchId : JsStr) (first : VaultRedemption) (amountMicros : JsStr) :
    List (JsStr × JsStr × JsStr × ℕ) :=
  if env.isFeeWallet first.ownerWalletAddress then []
  else [(batchId, first.ownerWalletAddress, amountMicros, env.resolveChainId first.chainId)]

/-- The store `t` after attempts that have made this progress from the store `s`. -/
structure RefundedSoFar (env : Env) (batchId : JsStr) (s : Store) (first : VaultRedemption)
    (amountMicros : JsStr) (p : Progress) (t : Store) : Prop where
  claims : t.claims = s.claims
  sent : t.sent = s.sent ++ (List.replicate p.sends (refundOf env batchId first amountMicros)).flatten
  unrecorded : p.written = none → t.redemptions = s.redemptions ∧ t.cycles = s.cycles
  recorded : ∀ j, p.written = some j →
    (∃ txHash at_, t.redemptions = (s.refundRows batchId txHash amountMicros at_).redemptions) ∧
      t.cycles = (s.resetAll ((s.requestedCycles (s.refundedCycleIds batchId)).take j)).cycles

abbrev Store.cyclesToReset (s : Store) (batchId : JsStr) : ℕ :=
  (s.requestedCycles (s.refundedCycleIds batchId)).length

def refundTransfer (env : Env) (w : RefundWorld) (first : VaultRedemption) (amountMicros : JsStr) :
    Transfer :=
  Platform.transferUsdc env w.wallet first.ownerWalletAddress amountMicros
    (env.resolveChainId first.chainId)

section Progress
variable {env : Env} {batchId : JsStr} {s t : Store} {first : VaultRedemption}
  {amountMicros : JsStr} {p : Progress} {k j n : ℕ} {w : RefundWorld}

theorem refundDue_congr (hrows : t.redemptions = s.redemptions) (hclaims : t.claims = s.claims) :
    refundDue env t batchId = refundDue env s batchId := by
  have hbatch : ∀ b, t.batch b = s.batch b := fun b => by rw [Store.batch, hrows, Store.batch]
  unfold refundDue Store.receivedMicros
  simp only [hbatch, hclaims]

/-- Rows that are all refunded are not refunded again. -/
theorem refundDue_ne_owed (hall : ∀ r ∈ t.redemptions.rows, r.inBatch batchId → r.usdcRefunded) :
    refundDue env t batchId ≠ .owed first amountMicros := by
  have hbatch : (t.batch batchId).all VaultRedemption.usdcRefunded = true := by
    rw [List.all_eq_true]
    intro r hr
    obtain ⟨hmem, hin⟩ := Db.Table.mem_find.mp (VaultRedemption.mem_oldestFirst.mp hr)
    exact hall r hmem hin
  unfold refundDue
  cases (t.batch batchId).head? with
  | none => simp
  | some first' =>
    cases assertRefundable (t.batch batchId) with
    | error e => simp
    | ok u => simp [hbatch]

theorem usdcRefunded_refundRows {txHash : JsStr} {at_ : ℕ} {r : VaultRedemption}
    (hr : r ∈ (s.refundRows batchId txHash amountMicros at_).redemptions.rows)
    (hin : r.inBatch batchId) : r.usdcRefunded := by
  rcases Db.Table.mem_saveAll hr with hmem | ⟨hmem, hnot⟩
  · obtain ⟨r', -, rfl⟩ := List.mem_map.mp hmem
    exact VaultRedemption.usdcRefunded_applyUsdcRefundFields r' txHash amountMicros at_
  · refine absurd ?_ hnot
    have hbatch : r ∈ s.batch batchId :=
      VaultRedemption.mem_oldestFirst.mpr (Db.Table.mem_find.mpr ⟨hmem, hin⟩)
    rw [List.map_map]
    exact List.mem_map.mpr ⟨r, hbatch, VaultRedemption.id_applyUsdcRefundFields r _ _ _⟩

/-- A call that finds nothing owed leaves the store as it is. -/
theorem playFor_refundUsdcBatch_of_not_owed
    (h : ∀ first amountMicros, refundDue env t batchId ≠ .owed first amountMicros) :
    ((refundUsdcBatch env batchId).playFor (solo env w) isWrite n t).2 = t := by
  rw [playFor_refundUsdcBatch, playFor_refundUsdcSection]
  cases hdue : refundDue env t batchId with
  | refused e => rfl
  | done txHash => rfl
  | owed first amountMicros => exact absurd hdue (h first amountMicros)

theorem RefundedSoFar.start : RefundedSoFar env batchId s first amountMicros .start s where
  claims := rfl
  sent := by simp [Progress.start]
  unrecorded _ := ⟨rfl, rfl⟩
  recorded j hj := by cases hj

def Store.transferred (env : Env) (batchId : JsStr) (first : VaultRedemption) (amountMicros : JsStr)
    (T : Transfer) (t : Store) : Store :=
  T.moved.elim t fun txHash => t.addUsdcRefund
    ⟨batchId, first.ownerWalletAddress, amountMicros, env.resolveChainId first.chainId, txHash⟩

theorem playFor_sendAndRecord_succ {rows : List VaultRedemption} :
    (sendAndRecord env batchId rows first amountMicros).playFor (solo env w) isWrite (n + 1) t =
      let T := refundTransfer env w first amountMicros
      match T.answer with
      | .error e => (some (.error e), t.transferred env batchId first amountMicros T)
      | .ok txHash => (recordRefund rows txHash amountMicros).playFor (solo env w) isWrite n
          (t.transferred env batchId first amountMicros T) := by
  refine (Prog.playFor_write_succ rfl).trans ?_
  dsimp only [solo]
  change Prog.playFor (solo env w) isWrite ((Prog.ret (refundTransfer env w first amountMicros).answer :
    M JsStr).settle (Prog.onOk fun txHash => recordRefund rows txHash amountMicros)) n
      (t.transferred env batchId first amountMicros (refundTransfer env w first amountMicros)) = _
  cases (refundTransfer env w first amountMicros).answer <;> rfl

/-- Each transfer that moves USDC is one more of the same. -/
theorem RefundedSoFar.transferred
    (h : RefundedSoFar env batchId s first amountMicros ⟨k, none⟩ t) {txHash : JsStr}
    (hmoved : (refundTransfer env w first amountMicros).moved = some txHash) :
    RefundedSoFar env batchId s first amountMicros ⟨k + 1, none⟩
      (t.transferred env batchId first amountMicros (refundTransfer env w first amountMicros)) := by
  have hother : env.isFeeWallet first.ownerWalletAddress = false := by
    by_contra hself
    rw [refundTransfer, moved_transferUsdc_self (Bool.not_eq_false _ ▸ hself)] at hmoved
    cases hmoved
  have hstore : t.transferred env batchId first amountMicros (refundTransfer env w first amountMicros) =
      t.addUsdcRefund ⟨batchId, first.ownerWalletAddress, amountMicros,
        env.resolveChainId first.chainId, txHash⟩ := by
    rw [Store.transferred, hmoved]
    rfl
  rw [hstore]
  refine ⟨h.claims, ?_, h.unrecorded, nofun⟩
  have hsent := h.sent
  simp only [Store.sent] at hsent
  simp [Store.sent, Store.addUsdcRefund, hsent, refundOf, hother, List.replicate_succ']

/-- A transfer that is skipped sends as much as any number of them. -/
theorem RefundedSoFar.skipped (h : RefundedSoFar env batchId s first amountMicros ⟨k, none⟩ t)
    {txHash : JsStr} (hskip : refundTransfer env w first amountMicros = .skipped txHash) :
    RefundedSoFar env batchId s first amountMicros ⟨k + 1, none⟩ t := by
  have hself : env.isFeeWallet first.ownerWalletAddress = true := by
    by_contra hother
    exact transferUsdc_ne_skipped (Bool.not_eq_true _ ▸ hother) hskip
  have hsent := h.sent
  refine ⟨h.claims, ?_, h.unrecorded, nofun⟩
  simp only [refundOf, hself, if_true, List.flatten_replicate_nil] at hsent ⊢
  exact hsent

theorem RefundedSoFar.record (h : RefundedSoFar env batchId s first amountMicros ⟨k, none⟩ t)
    (txHash : JsStr) :
    RefundedSoFar env batchId s first amountMicros ⟨k, some (min n (s.cyclesToReset batchId))⟩
      ((recordRefund (s.batch batchId) txHash amountMicros).playFor (solo env w) isWrite (n + 1) t).2 := by
  obtain ⟨hrows, hcycles⟩ := h.unrecorded rfl
  have hbatch : t.batch batchId = s.batch batchId := by rw [Store.batch, hrows, Store.batch]
  have hsaved : (t.refundRows batchId txHash amountMicros w.now).redemptions =
      (s.refundRows batchId txHash amountMicros w.now).redemptions := by
    simp only [Store.refundRows, Store.saveRedemptions, hbatch, hrows]
  rw [playFor_recordRefund hcycles hrows]
  dsimp only
  by_cases hall : s.cyclesToReset batchId ≤ n
  · rw [if_pos hall, Nat.min_eq_right hall]
    refine ⟨h.claims, h.sent, nofun, fun j hj => ⟨⟨_, _, hsaved⟩, ?_⟩⟩
    obtain rfl := Option.some.inj hj
    rw [Store.cyclesToReset, List.take_length]
    exact congrArg (fun c : CycleTable => c.saveAll _) hcycles
  · rw [if_neg hall, Nat.min_eq_left (by omega)]
    refine ⟨h.claims, h.sent, nofun, fun j hj => ⟨⟨_, _, hsaved⟩, ?_⟩⟩
    obtain rfl := Option.some.inj hj
    exact congrArg (fun c : CycleTable => c.saveAll _) hcycles

/-- What an attempt does while the refund is not recorded. -/
theorem RefundedSoFar.attempt_unrecorded (hdue : refundDue env s batchId = .owed first amountMicros)
    (h : RefundedSoFar env batchId s first amountMicros ⟨k, none⟩ t) :
    RefundedSoFar env batchId s first amountMicros
      (Progress.attempt (s.cyclesToReset batchId) ⟨k, none⟩
        ((refundTransfer env w first amountMicros).extent n))
      ((refundUsdcBatch env batchId).playFor (solo env w) isWrite n t).2 := by
  obtain ⟨hrows, hcycles⟩ := h.unrecorded rfl
  rw [playFor_refundUsdcBatch, playFor_refundUsdcSection, refundDue_congr hrows h.claims, hdue]
  dsimp only
  cases n with
  | zero =>
    have hstop : (sendAndRecord env batchId (t.batch batchId) first amountMicros).playFor
      (solo env w) isWrite 0 t = (none, t) := Prog.playFor_write_zero rfl
    rw [hstop, Transfer.extent_zero]
    exact h
  | succ n =>
    have hbatch : t.batch batchId = s.batch batchId := by rw [Store.batch, hrows, Store.batch]
    rw [playFor_sendAndRecord_succ, hbatch]
    have hmoved : ∀ txHash, (refundTransfer env w first amountMicros).moved = some txHash →
        RefundedSoFar env batchId s first amountMicros ⟨k + 1, none⟩ (t.transferred env batchId first
          amountMicros (refundTransfer env w first amountMicros)) := fun _ h' => h.transferred h'
    have hskipped : ∀ txHash, refundTransfer env w first amountMicros = .skipped txHash →
        RefundedSoFar env batchId s first amountMicros ⟨k + 1, none⟩ t := fun _ h' => h.skipped h'
    generalize refundTransfer env w first amountMicros = T at hmoved hskipped
    cases T with
    | failed e => exact h
    | unseen txHash e => exact hmoved txHash rfl
    | skipped txHash =>
      cases n with
      | zero => exact h
      | succ n => exact (hskipped txHash rfl).record txHash
    | mined txHash =>
      cases n with
      | zero => exact hmoved txHash rfl
      | succ n => exact (hmoved txHash rfl).record txHash

theorem RefundedSoFar.attempt (hdue : refundDue env s batchId = .owed first amountMicros)
    (h : RefundedSoFar env batchId s first amountMicros p t) :
    RefundedSoFar env batchId s first amountMicros
      (p.attempt (s.cyclesToReset batchId) ((refundTransfer env w first amountMicros).extent n))
      ((refundUsdcBatch env batchId).playFor (solo env w) isWrite n t).2 := by
  obtain ⟨k, written⟩ := p
  cases written with
  | none => exact h.attempt_unrecorded hdue
  | some j =>
    obtain ⟨⟨txHash, at_, hrows⟩, -⟩ := h.recorded j rfl
    have hall : ∀ r ∈ t.redemptions.rows, r.inBatch batchId → r.usdcRefunded := by
      intro r hr
      rw [hrows] at hr
      exact usdcRefunded_refundRows hr
    rw [playFor_refundUsdcBatch_of_not_owed fun _ _ => refundDue_ne_owed hall]
    exact h

def refundExtents (env : Env) (first : VaultRedemption) (amountMicros : JsStr)
    (as : List RefundAttempt) : List Extent :=
  as.map fun a => (refundTransfer env a.world first amountMicros).extent a.writes

theorem RefundedSoFar.attempts (hdue : refundDue env s batchId = .owed first amountMicros)
    (h : RefundedSoFar env batchId s first amountMicros p t) (as : List RefundAttempt) :
    RefundedSoFar env batchId s first amountMicros
      (p.attempts (s.cyclesToReset batchId) (refundExtents env first amountMicros as))
      (refundAttempts env batchId as t) := by
  induction as generalizing p t with
  | nil => exact h
  | cons a as ih => exact ih (h.attempt hdue)

/-- A call that succeeds has gone as far as one can. -/
theorem RefundedSoFar.once (hdue : refundDue env s batchId = .owed first amountMicros)
    (h : RefundedSoFar env batchId s first amountMicros p t) {r : RefundUsdcResult} {u : Store}
    (hu : refundOnce env batchId w t = (.ok r, u)) :
    RefundedSoFar env batchId s first amountMicros
      (p.attempt (s.cyclesToReset batchId) (.recorded (s.cyclesToReset batchId))) u := by
  obtain ⟨N, hN⟩ := Prog.exists_playFor_eq_play (solo env w) isWrite
    (refundUsdcBatch env batchId) t
  have hplay := hN (N + s.cyclesToReset batchId + 2) (by omega)
  rw [refundOnce] at hu
  rw [hu] at hplay
  have hstore := h.attempt (w := w) (n := N + s.cyclesToReset batchId + 2) hdue
  rw [hplay] at hstore
  obtain ⟨k, written⟩ := p
  cases written with
  | some j => exact hstore
  | none =>
    obtain ⟨hrows, -⟩ := h.unrecorded rfl
    rw [playFor_refundUsdcBatch, playFor_refundUsdcSection, refundDue_congr hrows h.claims, hdue]
      at hplay
    dsimp only at hplay
    rw [playFor_sendAndRecord_succ] at hplay
    have hrecorded : (refundTransfer env w first amountMicros).extent
        (N + s.cyclesToReset batchId + 2) = .recorded (N + s.cyclesToReset batchId) := by
      cases hT : refundTransfer env w first amountMicros with
      | failed e => simp [hT, Transfer.answer] at hplay
      | unseen txHash e => simp [hT, Transfer.answer] at hplay
      | skipped txHash => rfl
      | mined txHash => rfl
    rw [hrecorded] at hstore
    simpa [Progress.attempt] using hstore

/-- The two stores have the same transfers, row statuses and cycle statuses. -/
structure SameRefundEnd (t u : Store) : Prop where
  sent : t.sent = u.sent
  rows : ∀ id, (t.redemptions.get id).map (fun r => (r.status, r.refundStatus)) =
    (u.redemptions.get id).map fun r => (r.status, r.refundStatus)
  cycles : ∀ id, (t.cycles.get id).map VaultCycle.status = (u.cycles.get id).map VaultCycle.status

theorem status_refundRows (s : Store) (batchId txHash amountMicros txHash' amountMicros' id : JsStr)
    (at_ at' : ℕ) :
    ((s.refundRows batchId txHash amountMicros at_).redemptions.get id).map
        (fun r => (r.status, r.refundStatus)) =
      ((s.refundRows batchId txHash' amountMicros' at').redemptions.get id).map
        fun r => (r.status, r.refundStatus) := by
  have hget : ∀ h m a, (s.refundRows batchId h m a).redemptions.get id =
      (((s.batch batchId).find? fun r => r.id = id).map fun r => r.applyUsdcRefundFields h m a).or
        (s.redemptions.get id) := by
    intro h m a
    refine (Db.Table.get_saveAll ?_ id).trans ?_
    · simp only [List.pairwise_map, VaultRedemption.id_applyUsdcRefundFields]
      exact batch_distinct s batchId
    · rw [List.find?_map]
      simp only [Function.comp_def, VaultRedemption.id_applyUsdcRefundFields]
  rw [hget, hget]
  cases (s.batch batchId).find? fun r => r.id = id with
  | none => rfl
  | some r =>
    simp [VaultRedemption.status_applyUsdcRefundFields,
      VaultRedemption.refundStatus_applyUsdcRefundFields]

theorem requestedCycles_distinct (s : Store) (ids : List JsStr) :
    (s.requestedCycles ids).Pairwise fun a b => a.id ≠ b.id := by
  have hrows : s.cycles.rows.Pairwise fun a b => a.id ≠ b.id := List.pairwise_map.mp s.cycles.nodup
  exact (hrows.filter _).filter _

theorem get_resetAll (s : Store) (ids : List JsStr) (j : ℕ) (id : JsStr) :
    (s.resetAll ((s.requestedCycles ids).take j)).cycles.get id =
      ((((s.requestedCycles ids).take j).find? fun c => c.id = id).map resetTo).or
        (s.cycles.get id) := by
  refine (Db.Table.get_saveAll ?_ id).trans ?_
  · rw [List.pairwise_map]
    exact (requestedCycles_distinct s ids).take
  · rw [List.find?_map]
    rfl

/-- A cycle that was left behind is still in redemption. -/
theorem cycles_left_behind {t u : Store} (ht : RefundedSoFar env batchId s first amountMicros ⟨k, some j⟩ t)
    (hu : RefundedSoFar env batchId s first amountMicros ⟨1, some (s.cyclesToReset batchId)⟩ u)
    (hj : j < s.cyclesToReset batchId) :
    ∃ id, (t.cycles.get id).map VaultCycle.status ≠ (u.cycles.get id).map VaultCycle.status := by
  obtain ⟨-, hcycles⟩ := ht.recorded j rfl
  obtain ⟨-, hcycles'⟩ := hu.recorded _ rfl
  have hdistinct := requestedCycles_distinct s (s.refundedCycleIds batchId)
  have hget := get_resetAll s (s.refundedCycleIds batchId)
  obtain ⟨c, hc⟩ : ∃ c, c = (s.requestedCycles (s.refundedCycleIds batchId))[j] := ⟨_, rfl⟩
  have hmem : c ∈ s.requestedCycles (s.refundedCycleIds batchId) := hc ▸ List.getElem_mem hj
  obtain ⟨hfound, hstatus⟩ := List.mem_filter.mp hmem
  have hstored : s.cycles.get c.id = some c :=
    Db.Table.get_of_mem (Db.Table.mem_find.mp hfound).1
  have hbefore : ((s.requestedCycles (s.refundedCycleIds batchId)).take j).find?
      (fun c' => c'.id = c.id) = none := by
    rw [List.find?_eq_none]
    intro c' hc'
    obtain ⟨i, hi, rfl⟩ := List.mem_take_iff_getElem.mp hc'
    simpa [hc] using List.pairwise_iff_getElem.mp hdistinct i j (by omega) hj (by omega)
  have hafter : ((s.requestedCycles (s.refundedCycleIds batchId)).find?
      (fun c' => c'.id = c.id)).isSome := List.find?_isSome.mpr ⟨c, hmem, by simp⟩
  obtain ⟨c', hc'⟩ := Option.isSome_iff_exists.mp hafter
  refine ⟨c.id, ?_⟩
  have hleft : t.cycles.get c.id = some c := by
    rw [hcycles, hget, hbefore]
    exact hstored
  have hreset : u.cycles.get c.id = some (resetTo c') := by
    rw [hcycles', hget, Store.cyclesToReset, List.take_length, hc']
    rfl
  rw [hleft, hreset]
  have hrequested : c.status = .redemptionRequested := of_decide_eq_true hstatus
  simp [hrequested, resetTo]

theorem sameRefundEnd_iff (ht : RefundedSoFar env batchId s first amountMicros ⟨k, some j⟩ t) {u : Store}
    (hu : RefundedSoFar env batchId s first amountMicros ⟨1, some (s.cyclesToReset batchId)⟩ u)
    (hj : j ≤ s.cyclesToReset batchId)
    (hk : env.isFeeWallet first.ownerWalletAddress = true → k = 1) :
    SameRefundEnd t u ↔ k = 1 ∧ j = s.cyclesToReset batchId := by
  obtain ⟨⟨h, a, hrows⟩, hcycles⟩ := ht.recorded j rfl
  obtain ⟨⟨h', a', hrows'⟩, hcycles'⟩ := hu.recorded _ rfl
  constructor
  · intro hsame
    refine ⟨?_, ?_⟩
    · by_cases hself : env.isFeeWallet first.ownerWalletAddress = true
      · exact hk hself
      · have hlength := congrArg List.length hsame.sent
        rw [ht.sent, hu.sent] at hlength
        simpa [refundOf, hself] using hlength
    · by_contra hne
      obtain ⟨id, hid⟩ := cycles_left_behind ht hu (by omega)
      exact hid (hsame.cycles id)
  · rintro ⟨rfl, rfl⟩
    refine ⟨ht.sent.trans hu.sent.symm, fun id => ?_, fun id => ?_⟩
    · rw [hrows, hrows']
      exact status_refundRows ..
    · rw [hcycles, hcycles']

/-- The first attempt that sends the refund also saves the rows and resets every cycle, unless
nothing is owed. -/
def RefundResumes (env : Env) (batchId : JsStr) (s : Store) (as : List RefundAttempt) : Prop :=
  ∀ first amountMicros, refundDue env s batchId = .owed first amountMicros →
    Progress.FirstSendCompletes (s.cyclesToReset batchId) (refundExtents env first amountMicros as)

theorem refundAttempts_of_not_owed (as : List RefundAttempt)
    (h : ∀ first amountMicros, refundDue env s batchId ≠ .owed first amountMicros) :
    refundAttempts env batchId as s = s := by
  induction as with
  | nil => rfl
  | cons a as ih =>
    have hstay := playFor_refundUsdcBatch_of_not_owed (w := a.world) (n := a.writes) h
    rw [refundAttempts, List.foldl_cons, hstay]
    exact ih

theorem refundOnce_of_not_owed
    (h : ∀ first amountMicros, refundDue env s batchId ≠ .owed first amountMicros) :
    (refundOnce env batchId w s).2 = s := by
  obtain ⟨N, hN⟩ := Prog.exists_playFor_eq_play (solo env w) isWrite
    (refundUsdcBatch env batchId) s
  have hstay := playFor_refundUsdcBatch_of_not_owed (w := w) (n := N) h
  rw [hN N (Nat.le_refl N)] at hstay
  exact hstay

/-- A refund to the fee wallet itself is never sent. -/
theorem sent_not_mem_refundExtents (as : List RefundAttempt)
    (hself : env.isFeeWallet first.ownerWalletAddress = true) :
    .sent ∉ refundExtents env first amountMicros as := by
  intro hmem
  obtain ⟨a, -, ha⟩ := List.mem_map.mp hmem
  exact Transfer.extent_ne_sent (moved_transferUsdc_self hself) a.writes ha

/-- Stopped calls and then one that succeeds end as one call does, exactly when the first of them
that sends the USDC also makes the writes that follow. -/
theorem refund_repeated_iff {as : List RefundAttempt} {w' : RefundWorld} {r r' : RefundUsdcResult}
    {u : Store} (hu : refundOnce env batchId w s = (.ok r, u))
    (ht : refundOnce env batchId w' (refundAttempts env batchId as s) = (.ok r', t)) :
    SameRefundEnd t u ↔ RefundResumes env batchId s as := by
  by_cases howed : ∃ first amountMicros, refundDue env s batchId = .owed first amountMicros
  · obtain ⟨first, amountMicros, hdue⟩ := howed
    have hend := (RefundedSoFar.start.attempts hdue as).once hdue ht
    have hone : RefundedSoFar env batchId s first amountMicros
        ⟨1, some (s.cyclesToReset batchId)⟩ u := by
      have hcomplete := RefundedSoFar.start.once hdue hu
      simpa [Progress.attempt, Progress.start] using hcomplete
    have hresumes : RefundResumes env batchId s as ↔ Progress.FirstSendCompletes
        (s.cyclesToReset batchId) (refundExtents env first amountMicros as) := by
      constructor
      · intro h
        exact h first amountMicros hdue
      · intro h first' amountMicros' hdue'
        obtain ⟨rfl, rfl⟩ := RefundDue.owed.inj (hdue.symm.trans hdue')
        exact h
    obtain ⟨j, hj, hwritten⟩ := Progress.written_complete_le (s.cyclesToReset batchId)
      (refundExtents env first amountMicros as)
    have hself : env.isFeeWallet first.ownerWalletAddress = true →
        ((Progress.start.attempts (s.cyclesToReset batchId)
          (refundExtents env first amountMicros as)).attempt (s.cyclesToReset batchId)
            (.recorded (s.cyclesToReset batchId))).sends = 1 :=
      fun hself => Progress.sends_complete_of_not_sent _ (sent_not_mem_refundExtents as hself)
    rw [hresumes, ← Progress.completes_once_iff]
    generalize (Progress.start.attempts (s.cyclesToReset batchId)
      (refundExtents env first amountMicros as)).attempt (s.cyclesToReset batchId)
        (.recorded (s.cyclesToReset batchId)) = p at hend hwritten hself
    obtain ⟨k, written⟩ := p
    obtain rfl : written = some j := hwritten
    rw [sameRefundEnd_iff hend hone hj hself]
    simp
  · have hnot : ∀ first amountMicros, refundDue env s batchId ≠ .owed first amountMicros :=
      fun first amountMicros h => howed ⟨first, amountMicros, h⟩
    have hstay : t = u := by
      have hs := refundOnce_of_not_owed (w := w) hnot
      have hs' := refundOnce_of_not_owed (w := w') hnot
      rw [refundAttempts_of_not_owed as hnot] at ht
      rw [hu] at hs
      rw [ht] at hs'
      exact hs'.trans hs.symm
    subst hstay
    constructor
    · intro _ first amountMicros h
      exact absurd h (hnot first amountMicros)
    · intro _
      exact ⟨rfl, fun _ => rfl, fun _ => rfl⟩

/-- One call sends one refund. -/
theorem sent_refundOnce (hdue : refundDue env s batchId = .owed first amountMicros)
    {r : RefundUsdcResult} {u : Store} (hu : refundOnce env batchId w s = (.ok r, u)) :
    u.sent = s.sent ++ refundOf env batchId first amountMicros := by
  have hsent := (RefundedSoFar.start.once hdue hu).sent
  simpa [Progress.attempt, Progress.start] using hsent

end Progress

section Runs

def walletAddress : JsStr := js "0x00000000000000000000000000000000000000fe"

def retryEnv : Env where
  platformFeePrivateKey := some (js "key")
  platformFeeRecipient := some walletAddress
  usdcAddresses := [(1, js "0x00000000000000000000000000000000000000cc")]

def fundedWallet (txHash : String) : FeeWallet := ⟨walletAddress, 1000, .mined (js txHash)⟩

/-- A card whose redemption was paid with 100 micros and is still pending. -/
def pendingCard : VaultRedemption where
  id := js "r"
  vaultCycleId := js "c"
  ownerWalletAddress := js "0x00000000000000000000000000000000000000aa"
  requestedAt := 0
  paymentBatchId := some (js "b")

def pendingStore : Store where
  redemptions := ⟨[pendingCard], by decide⟩
  claims := ⟨[⟨js "paid", js "b", some (js "100"), some 1⟩], by decide⟩
  cycles := ⟨[⟨js "c", js "a", 1, 1, .redemptionRequested, none, none, none, 0, 0⟩], by decide⟩
  tokens := Db.Table.empty
  usdcRefunds := []
  custodyReturns := []

def firstRefund : RefundWorld := ⟨fundedWallet "0x01", .ok [], 1⟩

def laterRefund : RefundWorld := ⟨fundedWallet "0x02", .ok [], 2⟩

/-- The refund of `pendingStore`, undisturbed. -/
def refundedStore : Store := (refundOnce retryEnv (js "b") firstRefund pendingStore).2

/-- The store after one attempt that stops after `writes` writes and a call that succeeds. -/
def afterStop (writes : ℕ) : Store :=
  (refundOnce retryEnv (js "b") laterRefund
    (refundAttempts retryEnv (js "b") [⟨firstRefund, writes⟩] pendingStore)).2

theorem refundOnce_pendingStore :
    refundOnce retryEnv (js "b") firstRefund pendingStore =
      (.ok ⟨some (js "0x01"), false⟩, refundedStore) := Prod.ext (by decide) rfl

end Runs

end Redeem
