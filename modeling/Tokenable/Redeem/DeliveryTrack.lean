import Tokenable.Js.Grouping
import Tokenable.Redeem.ReceiptBurn

/-!
# The tracking job of shipped redemptions

`RedeemDeliveryTrackService`: a pass asks the carrier for the numbers of the rows that are under way
and stamps those that it calls delivered. It then takes the rows that were delivered a grace period
ago, the oldest 200, and confirms the receipt of the first 40 of their batches, where each card of
the batch was delivered that long ago.
-/

namespace Receipts
open Js Platform Async Db Vault Redeem Backend

section Poll
variable (cfg : Config)

def compact (s : JsStr) : JsStr := s.filter fun c => !isSpace c

def trackKey (trackingNumber : JsStr) : JsStr := upper (compact trackingNumber)

/-- A row without a carrier counts as one of FedEx. -/
def isFedExTrackableCarrier (carrier : Option JsStr) : Bool :=
  let c := lower (trim (carrier.getD []))
  c.isEmpty || c = js "fedex"

/-- `/^1{6,15}$/` -/
def isSandboxOnesTrackingNumber (trackingNumber : JsStr) : Bool :=
  let key := compact trackingNumber
  decide (6 ≤ key.length) && decide (key.length ≤ 15) && key.all (· = '1')

def maxTrackNumbersPerPoll : ℕ := 90

/-- The rows of a tracking number that the pass has not stamped. -/
abbrev Groups := OrderedMap JsStr (List VaultRedemption)

def stamped (at_ : ℕ) (r : VaultRedemption) : Entity where
  row := r
  assign d := { d with carrierDeliveredAt := some at_ }

def stampCarrierDelivered (key : JsStr) (at_ : ℕ) (byNumber : Groups) : M (ℕ × Groups) :=
  match byNumber.get? key with
  | none => pure (0, byNumber)
  | some pending =>
    if pending.isEmpty then pure (0, byNumber)
    else do
      perform (.saveRedemptions (pending.map (stamped at_)))
      pure (pending.length, byNumber.set key [])

/-- The keys with the time of delivery, in the order in which they are stamped. -/
def stampEach : List (JsStr × ℕ) → Groups → M (ℕ × Groups)
  | [], byNumber => pure (0, byNumber)
  | (key, at_) :: rest, byNumber => do
    let first ← stampCarrierDelivered key at_ byNumber
    let others ← stampEach rest first.2
    pure (first.1 + others.1, others.2)

/-- A result without a time of delivery is skipped. -/
def TrackResult.stamp (r : TrackResult) : Option (JsStr × ℕ) :=
  if r.delivered then r.deliveredAt.map fun at_ => (trackKey r.trackingNumber, at_) else none

def trackable (r : VaultRedemption) : Bool :=
  truthy (r.trackingNumber.map trim) && isFedExTrackableCarrier r.trackingCarrier

/-- The test numbers, which the sandbox of the carrier never delivers. -/
def stampSandboxOnes (numbers : List JsStr) (byNumber : Groups) : M ℕ :=
  if cfg.sandboxOnesAsDelivered then do
    let now ← perform (.table .now)
    let marked ← stampEach ((numbers.filter isSandboxOnesTrackingNumber).map (·, now)) byNumber
    pure marked.1
  else pure 0

/-- How many numbers were tracked, and how many rows were stamped. -/
def pollDeliveries : M (ℕ × ℕ) := do
  let rows ← perform .findUndelivered
  let byNumber := groupBy (fun r => trackKey (r.trackingNumber.getD [])) (rows.filter trackable)
  let numbers := byNumber.keys.take maxTrackNumbersPerPoll
  if numbers.isEmpty then pure (0, 0)
  else do
    let results ← (perform (.trackByNumbers numbers)).outcome
    let marked ← stampEach ((results.toOption.getD []).filterMap TrackResult.stamp) byNumber
    let ones ← stampSandboxOnes cfg numbers marked.2
    pure (numbers.length, marked.1 + ones)

end Poll

section AutoReceipt
variable (cfg : Config)

/-- The gate of the automatic receipt; an error is the reason to wait. -/
def batchReadyForAutoReceipt (rows : List Parcel) (graceMs now : ℕ) : Except JsStr Unit :=
  if rows.isEmpty then .error (js "empty")
  else if rows.all fun p => p.1.status = .completed then .error (js "already_completed")
  else if rows.any fun p => p.1.refundStatus ≠ .none || p.1.status = .refunded then
    .error (js "refunded")
  else if rows.any fun p => p.1.status ∉ eligibleStatuses then .error (js "bad_status")
  else if rows.any fun p => !truthy (p.1.trackingNumber.map trim) then
    .error (js "missing_tracking")
  else if rows.any fun p => !isFedExTrackableCarrier p.1.trackingCarrier then
    .error (js "non_fedex")
  else if rows.any fun p => p.2.carrierDeliveredAt.isNone then .error (js "not_all_delivered")
  else if rows.any fun p => now < p.2.carrierDeliveredAt.getD 0 + graceMs then
    .error (js "grace_pending")
  else .ok ()

def maxAutoBatchesPerPoll : ℕ := 40

/-- Whether the batch was confirmed; a failure to do so is logged. -/
def autoConfirmBatch (batchId : JsStr) (sample : List VaultRedemption) : M Bool :=
  match sample.head?.bind VaultRedemption.chainId with
  | none => pure false
  | some chainId => do
    let parcels ← findParcelsByBatchId batchId chainId
    let now ← perform (.table .now)
    match batchReadyForAutoReceipt parcels cfg.graceMs now with
    | .error _ => pure false
    | .ok () => do
      let result ←
        (finalizeReceiptWithBurn cfg .auto (toConfirm (parcels.map Prod.fst)) chainId).outcome
      pure result.isOk

def autoConfirmBatches : List (JsStr × List VaultRedemption) → M ℕ
  | [] => pure 0
  | (batchId, sample) :: batches => do
    let isConfirmed ← autoConfirmBatch cfg batchId sample
    let others ← autoConfirmBatches batches
    pure (if isConfirmed then others + 1 else others)

def autoConfirmDueBatches : M ℕ := do
  let now ← perform (.table .now)
  let candidates ← perform (.findDueCandidates (now - cfg.graceMs))
  let byBatch := groupBy (fun r => r.paymentBatchId.getD []) candidates
  autoConfirmBatches cfg (byBatch.entries.take maxAutoBatchesPerPoll)

/-- A pass of the job, under its lock. -/
def pollOnce : M Unit := do
  let _ ← pollDeliveries cfg
  if cfg.autoReceiptEnabled then (autoConfirmDueBatches cfg).discard else pure ()

end AutoReceipt

/-- A call of the panel, of a receipt or of the tracking job, or a transfer or burn that the owner
index records. -/
inductive ReceiptCall where
  | burnTokenOnChain (tokenId : Option ℕ) (chainId : ℕ)
  | confirmReceipt (batchId : JsStr) (chainId : ℕ)
  | pollOnce
  | recordOwner (contract tokenId owner : JsStr)
  | recordBurn (contract tokenId : JsStr)

def ReceiptCall.task (cfg : Config) : ReceiptCall → M Unit
  | .burnTokenOnChain tokenId chainId => (Receipts.burnTokenOnChain cfg tokenId chainId).discard
  | .confirmReceipt batchId chainId => (Receipts.confirmReceipt cfg batchId chainId).discard
  | .pollOnce => Receipts.pollOnce cfg
  | .recordOwner contract tokenId owner => perform (.recordOwner contract tokenId owner)
  | .recordBurn contract tokenId => perform (.recordBurn contract tokenId)

end Receipts
