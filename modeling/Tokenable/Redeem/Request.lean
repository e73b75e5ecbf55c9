import Mathlib.Algebra.GroupWithZero.Nat
import Tokenable.Backend.Store

/-!
# Paid redeem requests

`requestRedemptionBatch` checks a USDC payment on chain and opens the redemptions it pays for.
`createPaidRedemptionBatch` claims the payment hash and inserts the redemption rows in one
transaction. The save of the claim is a `SELECT` by primary key, then an `INSERT` when there is no
row and an `UPDATE` of the row otherwise.
-/

namespace Redeem
open Js Platform Async Db Vault Orders Backend

def redeemV1ChainId : ℕ := 11155111

def paymentAlreadyUsed : HttpError :=
  .conflict (js "This payment transaction was already used for a redeem batch")

/-- A `QueryFailedError` that no handler translates. -/
def queryFailed : HttpError := .internal (js "duplicate key value violates unique constraint")

def orQueryFailed (saved : Except PgError Unit) : BackendM Unit :=
  match saved with
  | .ok () => pure ()
  | .error .uniqueViolation => throw queryFailed

def hasPaymentClaim (paymentTxHash : JsStr) : BackendM Bool := do
  let hash := lower (trim paymentTxHash)
  if hash.isEmpty then pure false
  else do
    let n ← (db (.countClaims hash) : BackendM ℕ)
    pure (0 < n)

def savePaymentClaim (claim : PaymentClaim) (existing : Option PaymentClaim) :
    BackendM (Except PgError Unit) :=
  match existing with
  | none => tx (.insertClaim claim)
  | some _ => tx (.updateClaim claim)

def insertPaymentClaimOrConflict (claim : PaymentClaim) : BackendM Unit := do
  let existing ← (tx (.findClaim claim.paymentTxHash) : BackendM (Option PaymentClaim))
  let saved ← savePaymentClaim claim existing
  match saved with
  | .ok () => pure ()
  | .error .uniqueViolation => throw paymentAlreadyUsed

def notRedeemable (status : JsStr) : HttpError :=
  .conflict (js "Vault cycle is not in a redeemable state (status=" ++ status ++ js ")")

def findOrCreateAsset (token : RwaToken) (cert : JsStr) : BackendM VaultAsset := do
  let found ← (tx (.lockAsset cert) : BackendM (Option VaultAsset))
  match found with
  | some asset => pure asset
  | none => do
    let vaultRef ← (rpc (.computeVaultRef cert) : BackendM JsStr)
    let id ← (rpc .uuid : BackendM JsStr)
    let asset : VaultAsset := {
      id := id
      externalCertNumber := cert
      vaultRef := vaultRef
      displayName := (token.displayName.map trim).filter (fun n => !n.isEmpty) }
    let saved ← (tx (.insertAsset asset) : BackendM (Except PgError Unit))
    orQueryFailed saved
    pure asset

def findOrCreateMintedCycle (assetId : JsStr) (chainId : ℕ) : BackendM VaultCycle := do
  let found ← (tx (.lockOpenCycle assetId chainId) : BackendM (Option VaultCycle))
  match found with
  | some openCycle =>
    if openCycle.status ≠ .minted then throw (notRedeemable openCycle.status.text)
    else pure openCycle
  | none => do
    let priorCount ← (tx (.countCycles assetId) : BackendM ℕ)
    let id ← (rpc .uuid : BackendM JsStr)
    let cycle : VaultCycle := {
      id := id
      vaultAssetId := assetId
      chainId := chainId
      cycleNumber := priorCount + 1
      status := .minted }
    tx (.saveCycle cycle)
    pure cycle

/-- Create or link the cycle of a token that is minted on chain and has lost its own. -/
def backfillCycleForToken (token : RwaToken) (chainId : ℕ) : BackendM JsStr := do
  let cert := trim (token.certNumber.getD [])
  Prog.throwIf cert.isEmpty (.notFound (js "Token #" ++ token.tokenId ++
    js " has no vault record and no PSA cert number — cannot process redemption. Contact support."))
  let asset ← findOrCreateAsset token (normalizeCert cert)
  let cycle ← findOrCreateMintedCycle asset.id chainId
  let vaultRef ← (rpc (.computeVaultRef (normalizeCert cert)) : BackendM JsStr)
  tx (.saveToken { token with
    vaultCycleId := some cycle.id
    vaultRef := if truthy token.vaultRef then token.vaultRef else some vaultRef })
  pure cycle.id

structure PaidItem where
  tokenContract : JsStr
  tokenId : JsStr
  ownerWalletAddress : JsStr
  deriving DecidableEq

structure PaidBatch where
  paymentTxHash : JsStr
  paymentBatchId : JsStr
  paymentReceivedUsdcMicros : JsStr
  chainId : ℕ
  items : List PaidItem
  deriving DecidableEq

def PaidBatch.claim (p : PaidBatch) : PaymentClaim :=
  ⟨p.paymentTxHash, p.paymentBatchId, some p.paymentReceivedUsdcMicros, some p.chainId⟩

def PaidBatch.row (p : PaidBatch) (item : PaidItem) (cycle : VaultCycle) (id : JsStr) (at_ : ℕ) :
    VaultRedemption where
  id := id
  vaultCycleId := cycle.id
  ownerWalletAddress := lower item.ownerWalletAddress
  requestedAt := at_
  status := .ownershipVerified
  paymentTxHash := some p.paymentTxHash
  paymentBatchId := some p.paymentBatchId
  chainId := some p.chainId
  paymentReceivedUsdcMicros := some p.paymentReceivedUsdcMicros

/-- The token of a card, locked, when it is registered and not burned. -/
def lockRedeemableToken (item : PaidItem) : BackendM RwaToken := do
  let found ← (tx (.lockToken item.tokenContract item.tokenId) : BackendM (Option RwaToken))
  let token ← Prog.orThrow (.notFound (js "Token #" ++ item.tokenId ++
    js " is not registered on Tokenable — cannot process redemption. Contact support.")) found
  Prog.throwIf token.burnedAt.isSome (.badRequest (js "Token has already been redeemed"))
  pure token

def cycleIdOf (token : RwaToken) (chainId : ℕ) : BackendM JsStr :=
  match token.vaultCycleId with
  | some id => pure id
  | none => backfillCycleForToken token chainId

def lockMintedCycle (token : RwaToken) (chainId : ℕ) : BackendM VaultCycle := do
  let cycleId ← cycleIdOf token chainId
  let found ← (tx (.lockCycle cycleId) : BackendM (Option VaultCycle))
  let cycle ← Prog.orThrow (notRedeemable (js "unknown")) found
  Prog.throwIf (cycle.status ≠ .minted) (notRedeemable cycle.status.text)
  pure cycle

def insertPaidRedemptionRow (p : PaidBatch) (item : PaidItem) : BackendM VaultRedemption := do
  let token ← lockRedeemableToken item
  let cycle ← lockMintedCycle token p.chainId
  let existingOpen ← (tx (.lockOpenRedemption cycle.id) : BackendM (Option VaultRedemption))
  match existingOpen with
  | some open_ => throw (.conflict (js "Token #" ++ item.tokenId ++
      js " already has an open redemption (" ++ open_.id ++ js ")"))
  | none => do
    let id ← (rpc .uuid : BackendM JsStr)
    let at_ ← (rpc .now : BackendM ℕ)
    let row := p.row item cycle id at_
    let saved ← (tx (.insertRedemption row) : BackendM (Except PgError Unit))
    orQueryFailed saved
    tx (.saveCycle { cycle with status := .redemptionRequested })
    pure row

def insertPaidRedemptionRows (p : PaidBatch) : List PaidItem → BackendM (List VaultRedemption)
  | [] => pure []
  | item :: items => do
    let row ← insertPaidRedemptionRow p item
    let rows ← insertPaidRedemptionRows p items
    pure (row :: rows)

def createPaidRedemptionBatch (params : PaidBatch) : BackendM (List VaultRedemption) := do
  let p := { params with
    paymentTxHash := lower (trim params.paymentTxHash)
    paymentBatchId := trim params.paymentBatchId }
  Prog.throwIf (p.paymentTxHash.isEmpty || p.paymentBatchId.isEmpty)
    (.badRequest (js "paymentTxHash and paymentBatchId required"))
  Prog.throwIf p.items.isEmpty (.badRequest (js "items required"))
  transaction do
    insertPaymentClaimOrConflict p.claim
    insertPaidRedemptionRows p p.items

/-- The USDC that the logs of a transaction move from one of `fromSet` to `payTo`. -/
def paidMicros (usdc payTo : JsStr) (fromSet : List JsStr) (transfers : List ReceiptTransfer) : ℕ :=
  ((transfers.filter fun log => lower log.address = usdc && lower log.recipient = payTo &&
    lower log.sender ∈ fromSet).map ReceiptTransfer.value).sum

def verifyUsdcPaymentToFeeRecipient (env : Env) (txHash : JsStr) (fromAddresses : List JsStr)
    (expectedMicros chainId : ℕ) : BackendM ℕ := do
  let payTo ← Prog.orThrow (.internal (js "PLATFORM_FEE_RECIPIENT is not configured"))
    env.getConfiguredRecipient
  let fromSet := (fromAddresses.map lower).filter (fun a => !a.isEmpty)
  Prog.throwIf fromSet.isEmpty (.badRequest (js "No payer wallet linked"))
  let found ← orThrowAnswer (rpc (.transactionReceipt chainId txHash))
  let notFound : HttpError := .badRequest (js "Payment transaction not found or failed on-chain")
  let receipt ← Prog.orThrow notFound found
  Prog.throwIf (!receipt.succeeded) notFound
  let usdc ← Prog.ret (env.getUsdcAddress chainId)
  let paid := paidMicros usdc payTo fromSet receipt.transfers
  if paid < expectedMicros then do
    let address ← (rpc (.getAddress payTo) : BackendM JsStr)
    throw (.badRequest (js "USDC payment insufficient: got " ++ ofNat paid ++ js " micros, need " ++
      ofNat expectedMicros ++ js " to " ++ address))
  else pure paid

structure RedeemBatchRequestDto where
  tokenIds : List ℕ
  shipTo : Option ShipTo
  paymentTxHash : JsStr
  deriving DecidableEq

/-- The card of `tokenId`: it has a fee line, and a wallet of the user owns it on chain. -/
def prepareItem (contract : JsStr) (estimate : RedeemEstimate) (wallets : List JsStr)
    (chainId tokenId : ℕ) : BackendM PaidItem := do
  Prog.throwIf (!estimate.cards.any (fun c => c.tokenId = tokenId))
    (.badRequest (js "Missing fee line for token #" ++ ofNat tokenId))
  let onChainOwner ← orThrowAnswer (rpc (.getRwaTokenOwner chainId tokenId))
  Prog.throwIf (!wallets.any (fun w => lower (trim w) = onChainOwner))
    (.forbidden (js "Token #" ++ ofNat tokenId ++
      js ": on-chain owner is not a wallet linked to your account"))
  pure ⟨contract, ofNat tokenId, onChainOwner⟩

def prepareItems (contract : JsStr) (estimate : RedeemEstimate) (wallets : List JsStr)
    (chainId : ℕ) : List ℕ → BackendM (List PaidItem)
  | [] => pure []
  | tokenId :: tokenIds => do
    let item ← prepareItem contract estimate wallets chainId tokenId
    let items ← prepareItems contract estimate wallets chainId tokenIds
    pure (item :: items)

def cancelOrders : List Order → BackendM Unit
  | [] => pure ()
  | order :: orders => do
    let at_ ← (rpc .now : BackendM ℕ)
    db (.saveOrders [(order, { order with status := .cancelled, updatedAt := at_ })])
    cancelOrders orders

def cancelActiveOrdersForTokens (tokenContract : JsStr) (tokenIds : List ℕ) : BackendM Unit :=
  if tokenIds.isEmpty then pure ()
  else do
    let activeOrders ← (db (.activeOrdersOfTokens (lower (trim tokenContract))
      (tokenIds.map ofNat)) : BackendM (List Order))
    cancelOrders activeOrders

structure RedeemBatchResult where
  paymentBatchId : JsStr
  paymentTxHash : JsStr
  paymentReceivedUsdcMicros : JsStr
  custodyWalletAddress : JsStr
  chainId : ℕ
  estimate : RedeemEstimate
  redemptions : List VaultRedemption
  deriving DecidableEq

/-- The checks before the payment is looked at, and the fresh estimate. -/
def quoteRequest (tokenIds : List ℕ) (shipTo : Option ShipTo) (chainId : ℕ) :
    BackendM (RedeemEstimate × JsStr) := do
  Prog.throwIf tokenIds.isEmpty (.badRequest (js "tokenIds required"))
  let shipTo ← Prog.orThrow (.badRequest (js "shipTo required")) shipTo
  let countryIso ← Prog.ret (resolveShipToDestinationIso2 shipTo)
  orThrowAnswer (rpc (.assertRedeemable chainId tokenIds))
  let code := shipTo.countryCode.getD countryIso
  let fresh ← orThrowAnswer
    (rpc (.estimate chainId tokenIds { shipTo with countryCode := some code }))
  Prog.throwIf (fresh.cardCount ≠ tokenIds.length)
    (.badRequest (js "Could not resolve fees for all tokens"))
  pure (fresh, quotePinKey tokenIds ⟨some shipTo.country, some code, some shipTo.postal⟩)

/-- The payment hash is unclaimed, and its transaction pays the fresh or the pinned quote: the
amount paid and the estimate it matches. -/
def checkPayment (env : Env) (paymentTxHash : JsStr) (wallets : List JsStr)
    (fresh : RedeemEstimate) (pinKey : JsStr) (chainId : ℕ) : BackendM (ℕ × RedeemEstimate) := do
  let claimed ← hasPaymentClaim paymentTxHash
  Prog.throwIf claimed paymentAlreadyUsed
  let pinned ← (rpc (.pinnedQuote pinKey) : BackendM (Option PinnedQuote))
  let paid ← verifyUsdcPaymentToFeeRecipient env paymentTxHash
    (wallets.map fun w => lower (trim w)) (expectedMicros fresh pinned) chainId
  pure (paid, estimateMatchingPayment fresh (pinned.map PinnedQuote.estimate) paid)

def requestRedemptionBatch (env : Env) (userId : JsStr) (dto : RedeemBatchRequestDto)
    (chainId : ℕ) : BackendM RedeemBatchResult := do
  orThrowAnswer (rpc (.assertApprovedForCustody userId))
  Prog.throwIf (chainId ≠ redeemV1ChainId)
    (.badRequest (js "Redeem payment + custody intake is Sepolia-only in v1"))
  let tokenIds := (dto.tokenIds.filter (0 < ·)).eraseDups
  let quote ← quoteRequest tokenIds dto.shipTo chainId
  let wallets ← (rpc (.listWalletsForUser userId) : BackendM (List JsStr))
  Prog.throwIf wallets.isEmpty (.badRequest (js "Link a wallet before redeeming"))
  let paymentTxHash := lower (trim dto.paymentTxHash)
  let payment ← checkPayment env paymentTxHash wallets quote.1 quote.2 chainId
  let contract ← Prog.ret (env.getRwaAddress chainId)
  let batchId ← (rpc .uuid : BackendM JsStr)
  let items ← prepareItems contract payment.2 wallets chainId tokenIds
  let rows ← createPaidRedemptionBatch
    ⟨paymentTxHash, batchId, ofNat payment.1, chainId, items⟩
  cancelActiveOrdersForTokens contract tokenIds
  let custodyWallet ← orThrowAnswer (rpc (.getCustodyWalletAddress chainId))
  pure ⟨batchId, paymentTxHash, ofNat payment.1, custodyWallet, chainId, payment.2, rows⟩

end Redeem
