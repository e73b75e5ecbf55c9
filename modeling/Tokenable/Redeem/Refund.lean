import Tokenable.Async.Mutex
import Tokenable.Redeem.Redemption
import Tokenable.Vault.Entities

/-!
# Admin refunds: `refundUsdcBatch`, `returnNft`, `refundFullBatch`

The refund half of `RedeemsAdminService` over its database tables and the two wallets it signs
with. `refundUsdcBatch` runs inside the lock of its batch; `returnNft` does not. A save names,
next to each entity, the copy of the row that the call loaded; the copy has no effect.
-/

namespace Redeem
open Js Platform Async Vault

/-- A USDC transfer out of the fee wallet, with the batch it refunds. -/
structure UsdcRefund where
  batchId : JsStr
  to_ : JsStr
  amountMicros : JsStr
  chainId : ℕ
  txHash : JsStr
  deriving DecidableEq

structure CustodyReturn where
  tokenId : ℕ
  to_ : JsStr
  chainId : ℕ
  txHash : JsStr
  deriving DecidableEq

structure Store where
  redemptions : RedemptionTable
  claims : ClaimTable
  cycles : CycleTable
  tokens : TokenTable
  usdcRefunds : List UsdcRefund
  custodyReturns : List CustodyReturn

inductive Cmd where
  | findBatch (batchId : JsStr)
  | findRedemption (id : JsStr)
  | findClaimOfBatch (batchId : JsStr)
  | findOldestOfBatch (batchId : JsStr)
  | findTokenOfCycle (cycleId : JsStr)
  | findCycles (ids : List JsStr)
  | saveRedemptions (rows : List (VaultRedemption × VaultRedemption))
  | saveCycle (cycle : VaultCycle)
  | transferUsdc (batchId to_ amountMicros : JsStr) (chainId : ℕ)
  | safeTransferFromCustody (tokenId : ℕ) (to_ : JsStr) (chainId : ℕ)
  | now

abbrev Res : Cmd → Type
  | .findBatch _ => List VaultRedemption
  | .findRedemption _ => Option VaultRedemption
  | .findClaimOfBatch _ => Option PaymentClaim
  | .findOldestOfBatch _ => Option VaultRedemption
  | .findTokenOfCycle _ => Option RwaToken
  | .findCycles _ => List VaultCycle
  | .saveRedemptions _ => Unit
  | .saveCycle _ => Unit
  | .transferUsdc .. => Except HttpError JsStr
  | .safeTransferFromCustody .. => Except HttpError JsStr
  | .now => ℕ

def Store.batch (s : Store) (batchId : JsStr) : List VaultRedemption :=
  VaultRedemption.oldestFirst (s.redemptions.find (VaultRedemption.inBatch batchId))

theorem mem_batch {s : Store} {batchId : JsStr} {r : VaultRedemption} :
    r ∈ s.batch batchId ↔ r ∈ s.redemptions.rows ∧ r.inBatch batchId :=
  VaultRedemption.mem_oldestFirst.trans Db.Table.mem_find

theorem batch_distinct (s : Store) (batchId : JsStr) :
    (s.batch batchId).Pairwise (fun a b => a.id ≠ b.id) := by
  have hrows : s.redemptions.rows.Pairwise (fun a b => a.id ≠ b.id) :=
    List.pairwise_map.mp s.redemptions.nodup
  have hperm := List.perm_insertionSort (fun a b : VaultRedemption => a.requestedAt ≤ b.requestedAt)
    (s.redemptions.find (VaultRedemption.inBatch batchId))
  exact (hperm.pairwise_iff fun h => Ne.symm h).mpr (hrows.filter _)

def Store.saveRedemptions (s : Store) (rows : List VaultRedemption) : Store :=
  { s with redemptions := s.redemptions.saveAll rows }

def Store.addUsdcRefund (s : Store) (t : UsdcRefund) : Store :=
  { s with usdcRefunds := s.usdcRefunds ++ [t] }

def exec : Handler Store Oracle Cmd Res
  | _, s, _, .findBatch batchId => some (s.batch batchId, s)
  | _, s, _, .findRedemption id => some (s.redemptions.get id, s)
  | _, s, _, .findClaimOfBatch batchId =>
    some (s.claims.rows.find? (fun c => c.paymentBatchId = batchId), s)
  | _, s, _, .findOldestOfBatch batchId => some ((s.batch batchId).head?, s)
  | _, s, _, .findTokenOfCycle cycleId =>
    some (s.tokens.rows.find? (fun t => t.vaultCycleId = some cycleId), s)
  | _, s, _, .findCycles ids => some (s.cycles.find (fun c => c.id ∈ ids), s)
  | _, s, _, .saveRedemptions rows =>
    some ((), s.saveRedemptions (rows.map Prod.snd))
  | _, s, _, .saveCycle cycle => some ((), { s with cycles := s.cycles.save cycle })
  | _, s, x, .transferUsdc batchId to_ amountMicros chainId =>
    match x.reply with
    | .ok txHash =>
      some (.ok txHash, s.addUsdcRefund ⟨batchId, to_, amountMicros, chainId, txHash⟩)
    | .error e => some (.error e, s)
  | _, s, x, .safeTransferFromCustody tokenId to_ chainId =>
    match x.reply with
    | .ok txHash =>
      some (.ok txHash, { s with
        custodyReturns := s.custodyReturns ++ [⟨tokenId, to_, chainId, txHash⟩] })
    | .error e => some (.error e, s)
  | _, s, x, .now => some (x.now, s)

/-- Async code of the service: its lock is keyed by the batch id. -/
abbrev M := LProg JsStr Res HttpError

def perform (c : Cmd) : M (Res c) := .call (.inr c) (fun r => .ret (.ok r))

def findBatch (batchId : JsStr) : M (List VaultRedemption) := perform (.findBatch batchId)

def findRedemption (id : JsStr) : M (Option VaultRedemption) := perform (.findRedemption id)

def findClaimOfBatch (batchId : JsStr) : M (Option PaymentClaim) :=
  perform (.findClaimOfBatch batchId)

def findOldestOfBatch (batchId : JsStr) : M (Option VaultRedemption) :=
  perform (.findOldestOfBatch batchId)

def findTokenOfCycle (cycleId : JsStr) : M (Option RwaToken) := perform (.findTokenOfCycle cycleId)

def findCycles (ids : List JsStr) : M (List VaultCycle) := perform (.findCycles ids)

def saveRedemptions (rows : List (VaultRedemption × VaultRedemption)) : M Unit :=
  perform (.saveRedemptions rows)

def saveCycle (cycle : VaultCycle) : M Unit := perform (.saveCycle cycle)

def now : M ℕ := perform .now

def transferUsdc (batchId to_ amountMicros : JsStr) (chainId : ℕ) : M JsStr := do
  let sent ← (perform (.transferUsdc batchId to_ amountMicros chainId) : M (Except HttpError JsStr))
  Prog.ret sent

def safeTransferFromCustody (tokenId : ℕ) (to_ : JsStr) (chainId : ℕ) : M JsStr := do
  let sent ← (perform (.safeTransferFromCustody tokenId to_ chainId) : M (Except HttpError JsStr))
  Prog.ret sent

/-- `value?.trim()` when it is a string of digits. -/
def trimmedDigits (value : Option JsStr) : Option JsStr :=
  match value.map trim with
  | some v => if isDigits v then some v else none
  | none => none

def getPaymentReceivedMicrosForBatch (paymentBatchId : JsStr) : M (Option JsStr) :=
  if (trim paymentBatchId).isEmpty then pure none
  else do
    let claim ← findClaimOfBatch (trim paymentBatchId)
    match trimmedDigits (claim.bind PaymentClaim.paymentReceivedUsdcMicros) with
    | some fromClaim => pure (some fromClaim)
    | none => do
      let row ← findOldestOfBatch (trim paymentBatchId)
      pure (trimmedDigits (row.bind VaultRedemption.paymentReceivedUsdcMicros))

def resetCycle (cycle : VaultCycle) : M Unit :=
  if cycle.status = .redemptionRequested then saveCycle { cycle with status := .minted }
  else pure ()

def resetCycles : List VaultCycle → M Unit
  | [] => pure ()
  | cycle :: cycles => do
    resetCycle cycle
    resetCycles cycles

def resetCyclesIfRefunded (rows : List VaultRedemption) : M Unit :=
  let cycleIds := ((rows.filter (fun r => r.status = .refunded)).map
    VaultRedemption.vaultCycleId).dedup
  if cycleIds.isEmpty then pure ()
  else do
    let cycles ← findCycles cycleIds
    resetCycles cycles

structure RefundUsdcResult where
  txHash : Option JsStr
  alreadyRefunded : Bool
  deriving DecidableEq

def missingAmount : HttpError := .badRequest
  (js "payment_received_usdc_micros missing — cannot refund without recorded payment amount")

/-- The writes of `refundUsdcBatch` after the transfer. -/
def recordRefund (rows : List VaultRedemption) (txHash amountMicros : JsStr) :
    M RefundUsdcResult := do
  let at_ ← now
  let refunded := rows.map (fun r => (r, r.applyUsdcRefundFields txHash amountMicros at_))
  saveRedemptions refunded
  resetCyclesIfRefunded (refunded.map Prod.snd)
  pure ⟨some txHash, false⟩

/-- The section of `refundUsdcBatch` that runs inside the batch lock. -/
def refundUsdcSection (env : Env) (batchId : JsStr) : M RefundUsdcResult := do
  let rows ← findBatch batchId
  let first ← Prog.orThrow (.notFound (js "No redemptions for batch " ++ batchId)) rows.head?
  Prog.ret (assertRefundable rows)
  if rows.all VaultRedemption.usdcRefunded then
    pure ⟨first.refundTxHash, true⟩
  else do
    let received ← getPaymentReceivedMicrosForBatch batchId
    let amountMicros := trim (received.getD [])
    Prog.throwIf (!isDigits amountMicros || toNat amountMicros = 0) missingAmount
    Prog.throwIf (!env.isConfigured)
      (.badRequest (js "PLATFORM_FEE_PRIVATE_KEY is not configured"))
    let txHash ← transferUsdc batchId first.ownerWalletAddress amountMicros
      (env.resolveChainId first.chainId)
    recordRefund rows txHash amountMicros

def refundUsdcBatch (env : Env) (batchId : JsStr) : M RefundUsdcResult :=
  withLock batchId (refundUsdcSection env batchId)

structure ReturnNftResult where
  alreadyReturned : Bool
  txHash : Option JsStr
  deriving DecidableEq

/-- The writes of `returnNft` after the custody transfer. -/
def recordReturn (row : VaultRedemption) (txHash : JsStr) (at_ : ℕ) : M ReturnNftResult := do
  let returned := row.applyNftReturnFields txHash at_
  saveRedemptions [(row, returned)]
  resetCyclesIfRefunded [returned]
  pure ⟨false, some txHash⟩

/-- `returnNft` from the loaded row on. -/
def returnLoaded (env : Env) (row : VaultRedemption) : M ReturnNftResult := do
  Prog.ret (assertRefundable [row])
  if row.custodyReturnedAt.isSome && truthy row.custodyReturnTxHash then
    pure ⟨true, row.custodyReturnTxHash⟩
  else do
    Prog.throwIf (!row.wasEverInCustody)
      (.badRequest (js "NFT return requires status=in_custody or custody_at set"))
    let token ← findTokenOfCycle row.vaultCycleId
    let tokenIdText ← Prog.orThrow
      (.badRequest (js "No rwa_tokens row linked to vault cycle " ++ row.vaultCycleId))
      ((token.map RwaToken.tokenId).filter (fun t => !t.isEmpty))
    let tokenId ← Prog.orThrow (.badRequest (js "Invalid tokenId " ++ tokenIdText))
      (toNumber tokenIdText)
    let txHash ← safeTransferFromCustody tokenId row.ownerWalletAddress
      (env.resolveChainId row.chainId)
    let at_ ← now
    recordReturn row txHash at_

def returnNft (env : Env) (id : JsStr) : M ReturnNftResult := do
  let found ← findRedemption id
  let row ← Prog.orThrow (.notFound (js "Redemption not found")) found
  returnLoaded env row

structure NftReturn where
  redemptionId : JsStr
  txHash : Option JsStr
  alreadyReturned : Bool
  skipped : Option JsStr := none
  deriving DecidableEq

/-- One turn of the loop of `refundFullBatch`: an error of the return is recorded. -/
def returnRow (env : Env) (row : VaultRedemption) : M NftReturn :=
  if row.custodyReturnedAt.isNone && row.wasEverInCustody then
    (returnNft env row.id).settle fun
      | .ok result => pure ⟨row.id, result.txHash, result.alreadyReturned, none⟩
      | .error err => pure ⟨row.id, none, false, some err.message⟩
  else
    pure ⟨row.id, row.custodyReturnTxHash, row.custodyReturnedAt.isSome,
      if row.wasEverInCustody then none else some (js "never_in_custody")⟩

def returnRows (env : Env) : List VaultRedemption → M (List NftReturn)
  | [] => pure []
  | row :: rows => do
    let entry ← returnRow env row
    let rest ← returnRows env rows
    pure (entry :: rest)

structure RefundFullResult where
  usdc : RefundUsdcResult
  nftReturns : List NftReturn
  deriving DecidableEq

def refundFullBatch (env : Env) (batchId : JsStr) : M RefundFullResult := do
  let usdc ← refundUsdcBatch env batchId
  let rows ← findBatch batchId
  let nftReturns ← returnRows env rows
  pure ⟨usdc, nftReturns⟩

end Redeem
