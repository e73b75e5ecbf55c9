import Mathlib.Data.List.Sort
import Tokenable.Db.Table
import Tokenable.Platform.Config

/-!
# Redemption rows and their refund rules

One `VaultRedemption` per card of a redeem request; the cards paid by one USDC transfer share the
`paymentBatchId`. `refundStatus` records which of the two halves of a refund, the USDC and the
NFT, has happened. This file has the pure parts of the admin service: the refund guard, the
status predicates and the field updates of a USDC refund and of a custody return.
-/

namespace Redeem
open Js Platform

inductive RedemptionStatus where
  | pending | ownershipVerified | inCustody | burned | vaultReleasePending | completed | failed
  | cancelled | refunded
  deriving DecidableEq

def RedemptionStatus.text : RedemptionStatus → JsStr
  | pending => js "pending"
  | ownershipVerified => js "ownership_verified"
  | inCustody => js "in_custody"
  | burned => js "burned"
  | vaultReleasePending => js "vault_release_pending"
  | completed => js "completed"
  | failed => js "failed"
  | cancelled => js "cancelled"
  | refunded => js "refunded"

inductive RefundStatus where
  | none | usdcRefunded | nftReturned | fullyRefunded
  deriving DecidableEq

structure VaultRedemption where
  id : JsStr
  vaultCycleId : JsStr
  ownerWalletAddress : JsStr
  requestedAt : ℕ
  status : RedemptionStatus := .pending
  paymentTxHash : Option JsStr := none
  paymentBatchId : Option JsStr := none
  chainId : Option ℕ := none
  paymentReceivedUsdcMicros : Option JsStr := none
  custodyTxHash : Option JsStr := none
  custodyAt : Option ℕ := none
  custodyReturnTxHash : Option JsStr := none
  custodyReturnedAt : Option ℕ := none
  refundStatus : RefundStatus := .none
  refundTxHash : Option JsStr := none
  refundedUsdcMicros : Option JsStr := none
  refundedAt : Option ℕ := none
  trackingNumber : Option JsStr := none
  trackingCarrier : Option JsStr := none
  trackingSetAt : Option ℕ := none
  deriving DecidableEq

/-- The ledger row that ties a USDC payment to the one batch it funds. -/
structure PaymentClaim where
  paymentTxHash : JsStr
  paymentBatchId : JsStr
  paymentReceivedUsdcMicros : Option JsStr
  chainId : Option ℕ
  deriving DecidableEq

abbrev RedemptionTable := Db.Table VaultRedemption JsStr VaultRedemption.id

abbrev ClaimTable := Db.Table PaymentClaim JsStr PaymentClaim.paymentTxHash

namespace VaultRedemption

def inBatch (batchId : JsStr) (r : VaultRedemption) : Bool := r.paymentBatchId = some batchId

/-- `order: { requestedAt: 'ASC' }` -/
def oldestFirst (rows : List VaultRedemption) : List VaultRedemption :=
  rows.insertionSort (fun a b => a.requestedAt ≤ b.requestedAt)

def wasEverInCustody (r : VaultRedemption) : Bool :=
  r.custodyAt.isSome || truthy r.custodyTxHash || r.status = .inCustody

def nftReturned (r : VaultRedemption) : Bool :=
  r.custodyReturnedAt.isSome || truthy r.custodyReturnTxHash || r.refundStatus = .nftReturned ||
    r.refundStatus = .fullyRefunded

/-- The test of `refundUsdcBatch` for a row whose USDC has already been sent back. -/
def usdcRefunded (r : VaultRedemption) : Bool :=
  r.refundStatus = .usdcRefunded || r.refundStatus = .fullyRefunded

def applyUsdcRefundFields (r : VaultRedemption) (txHash amountMicros : JsStr) (at_ : ℕ) :
    VaultRedemption :=
  let row := { r with
    refundTxHash := some txHash
    refundedUsdcMicros := some amountMicros
    refundedAt := some at_ }
  if nftReturned row || !wasEverInCustody row then
    { row with refundStatus := .fullyRefunded, status := .refunded }
  else { row with refundStatus := .usdcRefunded }

/-- The fields `returnNft` sets after the custody transfer. -/
def applyNftReturnFields (r : VaultRedemption) (txHash : JsStr) (at_ : ℕ) : VaultRedemption :=
  let row := { r with custodyReturnTxHash := some txHash, custodyReturnedAt := some at_ }
  if usdcRefunded row then { row with refundStatus := .fullyRefunded, status := .refunded }
  else { row with refundStatus := .nftReturned }

theorem mem_oldestFirst {rows : List VaultRedemption} {r : VaultRedemption} :
    r ∈ oldestFirst rows ↔ r ∈ rows :=
  (List.perm_insertionSort _ rows).mem_iff

@[simp] theorem id_applyUsdcRefundFields (r : VaultRedemption) (h m : JsStr) (a : ℕ) :
    (r.applyUsdcRefundFields h m a).id = r.id := by
  unfold applyUsdcRefundFields
  dsimp only
  split_ifs <;> rfl

@[simp] theorem paymentBatchId_applyUsdcRefundFields (r : VaultRedemption) (h m : JsStr) (a : ℕ) :
    (r.applyUsdcRefundFields h m a).paymentBatchId = r.paymentBatchId := by
  unfold applyUsdcRefundFields
  dsimp only
  split_ifs <;> rfl

@[simp] theorem usdcRefunded_applyUsdcRefundFields (r : VaultRedemption) (h m : JsStr) (a : ℕ) :
    (r.applyUsdcRefundFields h m a).usdcRefunded = true := by
  unfold applyUsdcRefundFields
  dsimp only
  split_ifs <;> rfl

/-- Whether a USDC refund closes a row depends on the row only. -/
theorem status_applyUsdcRefundFields (r : VaultRedemption) (h m : JsStr) (a : ℕ) :
    (r.applyUsdcRefundFields h m a).status =
      if r.nftReturned || !r.wasEverInCustody then .refunded else r.status :=
  apply_ite status _ _ _

theorem refundStatus_applyUsdcRefundFields (r : VaultRedemption) (h m : JsStr) (a : ℕ) :
    (r.applyUsdcRefundFields h m a).refundStatus =
      if r.nftReturned || !r.wasEverInCustody then .fullyRefunded else .usdcRefunded :=
  apply_ite refundStatus _ _ _

@[simp] theorem vaultCycleId_applyUsdcRefundFields (r : VaultRedemption) (h m : JsStr) (a : ℕ) :
    (r.applyUsdcRefundFields h m a).vaultCycleId = r.vaultCycleId := by
  unfold applyUsdcRefundFields
  dsimp only
  split_ifs <;> rfl

@[simp] theorem id_applyNftReturnFields (r : VaultRedemption) (h : JsStr) (a : ℕ) :
    (r.applyNftReturnFields h a).id = r.id := by
  unfold applyNftReturnFields
  dsimp only
  split_ifs <;> rfl

@[simp] theorem paymentBatchId_applyNftReturnFields (r : VaultRedemption) (h : JsStr) (a : ℕ) :
    (r.applyNftReturnFields h a).paymentBatchId = r.paymentBatchId := by
  unfold applyNftReturnFields
  dsimp only
  split_ifs <;> rfl

/-- A custody return keeps the USDC half of the copy it started from. -/
@[simp] theorem usdcRefunded_applyNftReturnFields (r : VaultRedemption) (h : JsStr) (a : ℕ) :
    (r.applyNftReturnFields h a).usdcRefunded = r.usdcRefunded := by
  have hrow : usdcRefunded { r with custodyReturnTxHash := some h, custodyReturnedAt := some a } =
      r.usdcRefunded := rfl
  unfold applyNftReturnFields
  dsimp only
  rw [hrow]
  split_ifs with hr
  · rw [hr]
    rfl
  · rw [Bool.not_eq_true] at hr
    rw [hr]
    rfl

end VaultRedemption

def blockedRefundStatuses : List RedemptionStatus := [.burned, .vaultReleasePending, .completed]

def assertRefundable (rows : List VaultRedemption) : Except HttpError Unit :=
  if rows.isEmpty then .error (.badRequest (js "No redemption rows to refund"))
  else if rows.any (fun r => truthy (r.trackingNumber.map trim)) then
    .error (.badRequest (js "Refunds are not allowed after a tracking number has been entered"))
  else
    match rows.find? (fun r => r.status ∈ blockedRefundStatuses) with
    | some blocked =>
      .error (.badRequest (js "Refunds are not allowed after status=" ++ blocked.status.text))
    | none => .ok ()

end Redeem
