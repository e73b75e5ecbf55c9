import Tokenable.Async.Serial
import Tokenable.Platform.FeeWallet
import Tokenable.Redeem.Refund

/-!
# Cards in custody: intake, tracking and refund

The redemption rows of `RedeemsAdminService` together with the chain that their NFTs are on: the
tracking calls, `confirmCustodyTransfers` of `RwaRedeemService`, and the admin refunds, whose NFT
transfers go through `RwaChainWriterService`. `owner` is the owner of each NFT by chain and token id,
as `ownerOf` returns it.
-/

namespace Custody
open Js Platform Async Vault Redeem

/-- A `Transfer` event of an ERC-721 contract; addresses are in lower case. -/
structure TransferLog where
  address : JsStr
  from_ : JsStr
  to_ : JsStr
  tokenId : ℕ
  deriving DecidableEq

structure TxReceipt where
  succeeded : Bool
  logs : List TransferLog
  deriving DecidableEq

abbrev Nft := ℕ × ℕ

structure Store where
  db : Redeem.Store
  assets : List VaultAsset
  owner : Nft → Option JsStr

/-- The custody wallet of each chain, and the ship-to columns of a redemption row as one text. -/
structure Config where
  env : Env
  custodyWallet : ℕ → JsStr
  shipTo : JsStr → JsStr := fun _ => []

/-- `userTransfer` is a transaction of a user, who owns the NFT, and no call of the backend. -/
inductive Cmd where
  | redeem (c : Redeem.Cmd)
  | userTransfer (nft : Nft) (to_ : JsStr)
  | findTokensOfCycles (cycleIds : List JsStr)
  | assertApprovedForCustody
  | isRequester (batchId : JsStr)
  | findBatchOnChain (batchId : JsStr) (chainId : ℕ)
  | getTokenIdForRedemption (redemptionId : JsStr)
  | getRwaTokenOwner (tokenId chainId : ℕ)
  | getTransactionReceipt (txHash : JsStr)

abbrev Res : Cmd → Type
  | .redeem c => Redeem.Res c
  | .userTransfer .. => Unit
  | .findTokensOfCycles _ => List RwaToken
  | .assertApprovedForCustody => Except HttpError Unit
  | .isRequester _ => Bool
  | .findBatchOnChain .. => List VaultRedemption
  | .getTokenIdForRedemption _ => Option JsStr
  | .getRwaTokenOwner .. => Except HttpError JsStr
  | .getTransactionReceipt _ => Except HttpError (Option TxReceipt)

/-- What the world outside decides at a step: the time, the fee wallet, the fate of an NFT
transaction, the identity checks, and an RPC node that may fail. -/
structure Answer where
  now : ℕ := 0
  wallet : FeeWallet
  submission : Submission
  approved : Except HttpError Unit := .ok ()
  isRequester : Bool := true
  rpcFailure : Option HttpError := none
  receipt : Option TxReceipt := none

def blankCert (t : RwaToken) : Bool := (trim (t.certNumber.getD [])).isEmpty

/-- `RWA_TOKEN_ON_CYCLE_CERT_JOIN` -/
def onCycleCert (tokens : List RwaToken) (cycleId certNumber : JsStr) : List RwaToken :=
  let linked := tokens.filter fun t => t.vaultCycleId = some cycleId
  let sameCert (t : RwaToken) : Bool :=
    !blankCert t && upper (trim (t.certNumber.getD [])) = upper (trim certNumber)
  linked.filter fun t => sameCert t || (blankCert t && !linked.any sameCert)

/-- The token id that the user is to transfer for a redemption. -/
def Store.tokenIdForRedemption (s : Store) (redemptionId : JsStr) : Option JsStr := do
  let r ← s.db.redemptions.get redemptionId
  let c ← s.db.cycles.get r.vaultCycleId
  let a ← s.assets.find? fun a => a.id = c.vaultAssetId
  let t ← (onCycleCert s.db.tokens.rows c.id a.externalCertNumber).head?
  pure t.tokenId

def Store.batchOnChain (s : Store) (batchId : JsStr) (chainId : ℕ) : List VaultRedemption :=
  VaultRedemption.oldestFirst (s.db.redemptions.find fun r =>
    r.inBatch batchId && (s.db.cycles.get r.vaultCycleId).any fun c =>
      r.chainId.getD c.chainId = chainId)

def Store.setOwner (s : Store) (nft : Nft) (owner : Option JsStr) : Store :=
  { s with owner := Function.update s.owner nft owner }

variable (cfg : Config)

/-- `safeTransferFromCustody`: what the caller sees, and the transaction that has moved the NFT. -/
def transferFromCustody (s : Store) (submission : Submission) (tokenId : ℕ) (to_ : JsStr)
    (chainId : ℕ) : Transfer :=
  if !isAddress (lower (trim to_)) then .failed (.badRequest (js "Invalid recipient wallet address"))
  else
    match s.owner (chainId, tokenId) with
    | none => .failed (.badRequest (js "Token #" ++ ofNat tokenId ++ js " is not minted on chain"))
    | some owner =>
      if owner ≠ cfg.custodyWallet chainId then
        .failed (.badRequest (js "Token #" ++ ofNat tokenId ++ js " is not held in custody (owner=" ++
          owner ++ js ")"))
      else
        match submission with
        | .refused e => .failed e
        | .unseen txHash e => .unseen txHash e
        | .mined txHash =>
          if txHash.isEmpty then .unseen txHash (.internal (js "Transfer transaction failed"))
          else .mined txHash

/-- The commands of the admin refunds, on the wallet and the chain. -/
def execRedeem (s : Store) (x : Answer) : (c : Redeem.Cmd) → Redeem.Res c × Store
  | .findBatch batchId => (s.db.batch batchId, s)
  | .findRedemption id => (s.db.redemptions.get id, s)
  | .findClaimOfBatch batchId => (s.db.claims.rows.find? fun c => c.paymentBatchId = batchId, s)
  | .findOldestOfBatch batchId => ((s.db.batch batchId).head?, s)
  | .findTokenOfCycle cycleId =>
    (s.db.tokens.rows.find? fun t => t.vaultCycleId = some cycleId, s)
  | .findCycles ids => (s.db.cycles.find fun c => c.id ∈ ids, s)
  | .saveRedemptions rows => ((), { s with db := s.db.saveRedemptions (rows.map Prod.snd) })
  | .saveCycle cycle => ((), { s with db := { s.db with cycles := s.db.cycles.save cycle } })
  | .transferUsdc batchId to_ amountMicros chainId =>
    let transfer := Platform.transferUsdc cfg.env x.wallet to_ amountMicros chainId
    (transfer.answer, transfer.moved.elim s fun txHash =>
      { s with db := s.db.addUsdcRefund ⟨batchId, to_, amountMicros, chainId, txHash⟩ })
  | .safeTransferFromCustody tokenId to_ chainId =>
    let transfer := transferFromCustody cfg s x.submission tokenId to_ chainId
    (transfer.answer, transfer.moved.elim s fun txHash =>
      { s.setOwner (chainId, tokenId) (some (lower (trim to_))) with
        db := { s.db with
          custodyReturns := s.db.custodyReturns ++ [⟨tokenId, to_, chainId, txHash⟩] } })
  | .now => (x.now, s)

/-- Nobody outside the platform moves an NFT out of the custody wallet. -/
def Store.userTransfer (s : Store) (nft : Nft) (to_ : JsStr) : Store :=
  if s.owner nft = none ∨ s.owner nft = some (cfg.custodyWallet nft.1) then s
  else s.setOwner nft (some to_)

def exec (s : Store) (x : Answer) : (c : Cmd) → Res c × Store
  | .redeem c => execRedeem cfg s x c
  | .userTransfer nft to_ => ((), s.userTransfer cfg nft to_)
  | .findTokensOfCycles cycleIds =>
    (s.db.tokens.find fun t => t.vaultCycleId.any fun id => id ∈ cycleIds, s)
  | .assertApprovedForCustody => (x.approved, s)
  | .isRequester _ => (x.isRequester, s)
  | .findBatchOnChain batchId chainId => (s.batchOnChain batchId chainId, s)
  | .getTokenIdForRedemption redemptionId => (s.tokenIdForRedemption redemptionId, s)
  | .getRwaTokenOwner tokenId chainId =>
    (match x.rpcFailure, s.owner (chainId, tokenId) with
      | some e, _ => .error e
      | none, none =>
        .error (.notFound (js "RWA #" ++ ofNat tokenId ++ js " does not exist on chain"))
      | none, some owner => .ok owner, s)
  | .getTransactionReceipt _ =>
    (match x.rpcFailure with
      | some e => .error e
      | none => .ok x.receipt, s)

/-- Async code over the tables and the chain; the lock is the batch lock of the refunds. -/
abbrev M := LProg JsStr Res HttpError

def perform (c : Cmd) : M (Res c) := .call (.inr c) (fun r => .ret (.ok r))

/-- A call of the refund half of `RedeemsAdminService`. -/
def admin {α : Type} : Redeem.M α → M α
  | .ret r => .ret r
  | .call (.inl l) next => .call (.inl l) fun r => admin (next r)
  | .call (.inr c) next => .call (.inr (.redeem c)) fun r => admin (next r)

def attempt {α : Type} (r : Except HttpError α) : M α := .ret r

def isTracked (r : VaultRedemption) : Bool := truthy (r.trackingNumber.map trim)

/-- The row after `updateTracking` with a trimmed number and carrier. -/
def track (r : VaultRedemption) (trackingNumber : JsStr) (carrier : Option JsStr) (at_ : ℕ) :
    VaultRedemption :=
  if isTracked r then { r with trackingCarrier := carrier.or r.trackingCarrier }
  else { r with
    trackingNumber := some trackingNumber, trackingSetAt := some at_, trackingCarrier := carrier }

def hasOtherTracking (r : VaultRedemption) (trackingNumber : JsStr) : Bool :=
  isTracked r && r.trackingNumber.map trim ≠ some trackingNumber

def trimmedCarrier (carrier : Option JsStr) : Option JsStr :=
  (carrier.map trim).filter fun c => !c.isEmpty

def updateTracking (id trackingNumber : JsStr) (trackingCarrier : Option JsStr) : M Unit := do
  let found ← admin (findRedemption id)
  let row ← Prog.orThrow (.notFound (js "Redemption not found")) found
  let number := trim trackingNumber
  Prog.throwIf number.isEmpty (.badRequest (js "trackingNumber is required"))
  Prog.throwIf (hasOtherTracking row number)
    (.badRequest (js "Redemption already has a different tracking number"))
  let at_ ← admin now
  admin (saveRedemptions [(row, track row number (trimmedCarrier trackingCarrier) at_)])

/-- Which shipment a card belongs to: that of its partner's vault, or the PSA vault. -/
def redeemShipmentKey (token : Option RwaToken) : JsStr :=
  if token.bind RwaToken.settlementPolicy = some .selfVaultHold then
    let partnerId := trim ((token.bind RwaToken.vaultPartnerId).getD [])
    js "partner:" ++ if partnerId.isEmpty then js "unknown" else partnerId
  else js "psa_vault"

def terminalRedeemStatuses : List RedemptionStatus := [.completed, .cancelled, .refunded, .failed]

def isActiveRedeemShipmentStatus (status : RedemptionStatus) : Bool :=
  status ∉ terminalRedeemStatuses

structure TrackingParams where
  shipmentKey : JsStr
  trackingNumber : JsStr
  trackingCarrier : Option JsStr := none
  redemptionIds : List JsStr := []
  partnerOnly : Bool := false

/-- `tokenByCycle.get`: of two tokens of one cycle the later one. -/
def tokenByCycle (tokens : List RwaToken) (cycleId : JsStr) : Option RwaToken :=
  tokens.reverse.find? fun t => t.vaultCycleId = some cycleId

/-- The cards of a shipment that a batch update of the tracking is about. -/
def trackingTargets (params : TrackingParams) (tokens : List RwaToken)
    (rows : List VaultRedemption) : List VaultRedemption :=
  rows.filter fun r =>
    redeemShipmentKey (tokenByCycle tokens r.vaultCycleId) = trim params.shipmentKey &&
      (params.redemptionIds.isEmpty || r.id ∈ params.redemptionIds) &&
      isActiveRedeemShipmentStatus r.status

def mixedShipTo (targets : List VaultRedemption) : Bool :=
  targets.any fun r => cfg.shipTo r.id ≠ (targets.head?.map fun t => cfg.shipTo t.id).getD []

def updateTrackingBatch (batchId : JsStr) (params : TrackingParams) : M Unit := do
  let shipmentKey := trim params.shipmentKey
  Prog.throwIf shipmentKey.isEmpty (.badRequest (js "shipmentKey is required"))
  Prog.throwIf (params.partnerOnly && params.redemptionIds.isEmpty)
    (.badRequest (js "redemptionIds is required for partner tracking"))
  let rows ← admin (findBatch batchId)
  Prog.throwIf rows.isEmpty (.notFound (js "No redemptions for batch " ++ batchId))
  let number := trim params.trackingNumber
  Prog.throwIf number.isEmpty (.badRequest (js "trackingNumber is required"))
  let at_ ← admin now
  let tokens ← perform (.findTokensOfCycles (rows.map VaultRedemption.vaultCycleId))
  let targets := trackingTargets params tokens rows
  Prog.throwIf targets.isEmpty (.notFound (js "No active cards in batch " ++ batchId ++
    js " for shipment " ++ shipmentKey))
  Prog.throwIf (params.partnerOnly && mixedShipTo cfg targets) (.badRequest
    (js "Partner tracking updates must target one ship-to destination per request"))
  let other := targets.find? fun r => hasOtherTracking r number
  Prog.throwIf other.isSome (.badRequest (js "Shipment " ++ shipmentKey ++
    js " already has a different tracking number on " ++ (other.map VaultRedemption.id).getD []))
  admin (saveRedemptions
    (targets.map fun r => (r, track r number (trimmedCarrier params.trackingCarrier) at_)))

def redeemV1ChainId : ℕ := 11155111

def markCustodyReceived (redemptionId custodyTxHash : JsStr) : M Unit := do
  let found ← admin (findRedemption redemptionId)
  let row ← Prog.orThrow (.notFound (js "Redemption " ++ redemptionId ++ js " not found")) found
  if row.status = .inCustody && truthy row.custodyTxHash then pure ()
  else do
    Prog.throwIf (row.status ≠ .ownershipVerified) (.conflict (js "Redemption " ++ row.id ++
      js " cannot accept custody (status=" ++ row.status.text ++ js ")"))
    let at_ ← admin now
    admin (saveRedemptions [(row, { row with
      custodyTxHash := some (lower (trim custodyTxHash)), custodyAt := some at_
      status := .inCustody })])

def transferByToken (transfers : List (ℕ × JsStr)) (tokenId : ℕ) : Option JsStr :=
  (transfers.reverse.find? fun t => t.1 = tokenId).map fun t => lower (trim t.2)

def zeroHash : JsStr := js "0x" ++ List.replicate 64 '0'

def isCustodyTransfer (rwa fromAddress toAddress : JsStr) (tokenId : ℕ) (l : TransferLog) : Bool :=
  l.address = rwa && l.from_ = lower fromAddress && l.to_ = lower toAddress && l.tokenId = tokenId

/-- The transaction is a transfer into custody, and custody owns the NFT now. -/
def verifyNftTransferredToCustody (txHash rwa fromAddress toAddress : JsStr) (tokenId chainId : ℕ) :
    M Unit := do
  let answer ← perform (.getTransactionReceipt txHash)
  let found ← attempt answer
  let receipt ← Prog.orThrow (.badRequest (js "NFT transfer tx not found or failed: " ++ txHash))
    (found.filter TxReceipt.succeeded)
  Prog.throwIf (!receipt.logs.any (isCustodyTransfer rwa fromAddress toAddress tokenId))
    (.badRequest (js "Tx " ++ txHash ++ js " does not transfer token #" ++ ofNat tokenId ++
      js " from " ++ lower fromAddress ++ js " to custody " ++ lower toAddress))
  let current ← perform (.getRwaTokenOwner tokenId chainId)
  let owner ← attempt current
  Prog.throwIf (owner ≠ lower toAddress) (.badRequest (js "After transfer, token #" ++ ofNat tokenId ++
    js " owner is " ++ owner ++ js ", expected custody " ++ lower toAddress))

/-- One turn of the loop of `confirmCustodyTransfers`. -/
def confirmRow (rwa : JsStr) (transfers : List (ℕ × JsStr)) (chainId : ℕ) (row : VaultRedemption) :
    M Unit := do
  let found ← perform (.getTokenIdForRedemption row.id)
  let text ← Prog.orThrow (.badRequest (js "Could not resolve tokenId for redemption " ++ row.id))
    (found.filter fun t => !t.isEmpty)
  let tokenId ← Prog.orThrow (.internal (js "invalid BigNumberish value")) (toNumber text)
  let answer ← perform (.getRwaTokenOwner tokenId chainId)
  let onChainOwner ← attempt answer
  if onChainOwner = cfg.custodyWallet chainId then
    markCustodyReceived row.id (((transferByToken transfers tokenId).or row.custodyTxHash).getD zeroHash)
  else do
    let expectedFrom := lower (trim row.ownerWalletAddress)
    Prog.throwIf (onChainOwner ≠ expectedFrom) (.badRequest (js "Token #" ++ ofNat tokenId ++
      js " is owned by " ++ onChainOwner ++ js ", not your redeem wallet (" ++ expectedFrom ++
      js ") or custody — cannot confirm transfers"))
    let txHash ← Prog.orThrow (.badRequest (js "Missing custody transfer tx for token #" ++
      ofNat tokenId ++ js " — all NFTs must be transferred before Preparing"))
      ((transferByToken transfers tokenId).filter fun t => !t.isEmpty)
    verifyNftTransferredToCustody txHash rwa row.ownerWalletAddress (cfg.custodyWallet chainId) tokenId
      chainId
    markCustodyReceived row.id txHash

def confirmRows (rwa : JsStr) (transfers : List (ℕ × JsStr)) (chainId : ℕ) :
    List VaultRedemption → M Unit
  | [] => pure ()
  | row :: rows => do
    confirmRow cfg rwa transfers chainId row
    confirmRows rwa transfers chainId rows

def findRedemptionsByBatchId (batchId : JsStr) (chainId : ℕ) : M (List VaultRedemption) :=
  if (trim batchId).isEmpty then pure [] else perform (.findBatchOnChain (trim batchId) chainId)

def confirmCustodyTransfers (batchId : JsStr) (transfers : List (ℕ × JsStr)) (chainId : ℕ) :
    M Unit := do
  let gate ← perform .assertApprovedForCustody
  attempt gate
  Prog.throwIf (chainId ≠ redeemV1ChainId)
    (.badRequest (js "Redeem custody intake is Sepolia-only in v1"))
  let rows ← findRedemptionsByBatchId batchId chainId
  Prog.throwIf rows.isEmpty (.badRequest (js "Unknown paymentBatchId"))
  let isRequester ← perform (.isRequester batchId)
  Prog.throwIf (!isRequester) (.forbidden (js "Batch does not belong to this user"))
  Prog.throwIf (rows.any fun r => r.refundStatus ≠ .none || r.status = .refunded)
    (.badRequest (js "This redeem batch was refunded"))
  let rwa ← attempt (cfg.env.getRwaAddress chainId)
  let pending := rows.filter fun r => r.status = .ownershipVerified
  if pending.isEmpty then pure ()
  else do
    confirmRows cfg (lower rwa) transfers chainId pending
    let updated ← findRedemptionsByBatchId batchId chainId
    Prog.throwIf (!updated.all fun r => r.status = .inCustody)
      (.badRequest (js "Not all NFTs in this batch are in custody yet"))

section Runs

def feeAddress : JsStr := js "0x" ++ List.replicate 40 'f'

def custodyAddress : JsStr := js "0x" ++ List.replicate 40 'c'

def ownerAddress : JsStr := js "0x" ++ List.replicate 40 'a'

def rwaAddress : JsStr := js "0x" ++ List.replicate 40 '1'

/-- One custody wallet, on Sepolia. -/
def sepolia : Config where
  env :=
    { defaultChainId := some redeemV1ChainId
      platformFeePrivateKey := some (js "key")
      platformFeeRecipient := some feeAddress
      rwaAddresses := [(redeemV1ChainId, rwaAddress)]
      usdcAddresses := [(redeemV1ChainId, js "0x" ++ List.replicate 40 '2')] }
  custodyWallet := fun _ => custodyAddress

/-- A world in which every transaction is mined, with this hash. -/
def minedAs (txHash : String) : Answer where
  now := 5
  wallet := ⟨feeAddress, 1000, .mined (js txHash)⟩
  submission := .mined (js txHash)

/-- A card of batch `b`, paid with 100 micros, whose NFT is still to be handed over. -/
def verifiedCard : VaultRedemption where
  id := js "r1"
  vaultCycleId := js "c1"
  ownerWalletAddress := ownerAddress
  requestedAt := 1
  status := .ownershipVerified
  paymentBatchId := some (js "b")
  chainId := some redeemV1ChainId
  paymentReceivedUsdcMicros := some (js "100")

def custodyCard : VaultRedemption :=
  { verifiedCard with
    status := .inCustody, custodyTxHash := some (js "0x0c"), custodyAt := some 2 }

def cardCycle : VaultCycle :=
  { id := js "c1", vaultAssetId := js "a1", chainId := redeemV1ChainId, cycleNumber := 1
    status := .redemptionRequested }

/-- One card, NFT 7, with its NFT at an address. -/
def oneCard (row : VaultRedemption) (holder : JsStr) : Store where
  db :=
    { redemptions := ⟨[row], List.nodup_singleton _⟩
      claims := ⟨[⟨js "paid", js "b", some (js "100"), some redeemV1ChainId⟩], List.nodup_singleton _⟩
      cycles := ⟨[cardCycle], List.nodup_singleton _⟩
      tokens := ⟨[{ tokenContract := rwaAddress, tokenId := js "7", vaultCycleId := some (js "c1") }],
        List.nodup_singleton _⟩
      usdcRefunds := []
      custodyReturns := [] }
  assets := [{ id := js "a1", externalCertNumber := js "123" }]
  owner := fun nft => if nft = (redeemV1ChainId, 7) then some holder else none

/-- Batch `b` with a card whose NFT, 7, is in custody, and one that is still to be handed over, NFT 8. -/
def twoCards (first : VaultRedemption) : Store where
  db :=
    { redemptions := Db.Table.empty.saveAll
        [first, { verifiedCard with id := js "r2", vaultCycleId := js "c2" }]
      claims := (oneCard first custodyAddress).db.claims
      cycles := ⟨[cardCycle, { cardCycle with id := js "c2", vaultAssetId := js "a2" }], by decide⟩
      tokens := ⟨[{ tokenContract := rwaAddress, tokenId := js "7", vaultCycleId := some (js "c1") },
        { tokenContract := rwaAddress, tokenId := js "8", vaultCycleId := some (js "c2") }], by decide⟩
      usdcRefunds := []
      custodyReturns := [] }
  assets := [{ id := js "a1", externalCertNumber := js "123" },
    { id := js "a2", externalCertNumber := js "456" }]
  owner := fun nft =>
    if nft = (redeemV1ChainId, 7) then some custodyAddress
    else if nft = (redeemV1ChainId, 8) then some ownerAddress
    else none

end Runs

end Custody
