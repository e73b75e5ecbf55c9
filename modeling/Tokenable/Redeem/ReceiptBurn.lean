import Tokenable.Async.Expand
import Tokenable.Custody.Service
import Tokenable.Vault.Registry
import Tokenable.Vault.TokenSpelling

/-!
# The burn that follows a confirmed receipt

When the receipt of a paid batch is confirmed, each of its cards that is not marked as burned is
burned on chain, and then its redemptions become `completed`. A burn is a transaction, the mark in
the registry that the owner index makes of it, and the statements of `completeRedemptionBurn`. Any
of these may fail, before or after it has had its effect; a process that has died takes no further
step.

A row is saved with all the columns that it was loaded with. `deliveries` has every value that the
two columns of the tracking job have had, so that a row may be saved with an earlier one.
-/

namespace Receipts
open Js Platform Async Db Vault Redeem Orders Backend

structure Config where
  env : Env
  keccak : JsStr → JsStr
  custodyWallet : ℕ → JsStr
  minterAddress : JsStr
  autoReceiptEnabled : Bool := true
  sandboxOnesAsDelivered : Bool := false
  graceMs : ℕ := 259200000

inductive Via where
  | user
  | auto
  deriving DecidableEq

structure Delivery where
  carrierDeliveredAt : Option ℕ := none
  receiptConfirmedVia : Option Via := none
  deriving DecidableEq

structure Store where
  db : Tables
  owner : Custody.Nft → Option JsStr
  /-- The values that the columns of a redemption have had, the latest first. -/
  deliveries : JsStr → List Delivery := fun _ => []

def Store.delivery (s : Store) (id : JsStr) : Delivery := (s.deliveries id).headD {}

/-- A redemption with the columns of the tracking job. -/
abbrev Parcel := VaultRedemption × Delivery

/-- A row to save, and what was assigned to its other columns since it was loaded. -/
structure Entity where
  row : VaultRedemption
  assign : Delivery → Delivery := id

structure TrackResult where
  trackingNumber : JsStr
  delivered : Bool
  deliveredAt : Option ℕ

/-- `findTokenForReceipt` is the lookup of `ensureBurnedForRedeem`, for one redemption. -/
inductive Cmd where
  | table (c : Cycles.Cmd)
  | findTokenForReceipt (redemptionId contract tokenId : JsStr)
  | findBatchOnChain (batchId : JsStr) (chainId : ℕ)
  | isRequester (batchId : JsStr)
  | getTokenIdForRedemption (redemptionId : JsStr)
  | saveRedemptions (rows : List Entity)
  | findUndelivered
  | trackByNumbers (numbers : List JsStr)
  | findDueCandidates (dueBefore : ℤ)
  | findActiveOrders (contract tokenId : JsStr)
  | saveOrder (order : Order)
  | ownerOf (chainId tokenId : ℕ)
  | syncTokenFromChain (contract : JsStr) (tokenId : ℕ)
  | burn (chainId tokenId : ℕ) (signer : JsStr)
  | recordOwner (contract tokenId owner : JsStr)
  | recordBurn (contract tokenId : JsStr)
  | refreshCurrentSlotSnapshot (owner : JsStr) (chainId : ℕ)

abbrev Value : Cmd → Type
  | .table c => Cycles.Res c
  | .findTokenForReceipt .. => Option RwaToken
  | .findBatchOnChain .. => List Parcel
  | .isRequester _ => Bool
  | .getTokenIdForRedemption _ => Option JsStr
  | .saveRedemptions _ => Unit
  | .findUndelivered => List VaultRedemption
  | .trackByNumbers _ => List TrackResult
  | .findDueCandidates _ => List VaultRedemption
  | .findActiveOrders .. => List Order
  | .saveOrder _ => Unit
  | .ownerOf .. => Option JsStr
  | .syncTokenFromChain .. => Unit
  | .burn .. => JsStr
  | .recordOwner .. => Unit
  | .recordBurn .. => Unit
  | .refreshCurrentSlotSnapshot .. => Unit

abbrev Res (c : Cmd) : Type := Except HttpError (Value c)

/-- What becomes of a statement or a call: `unseen` has had its effect, and the caller sees an
error. -/
inductive Fate where
  | done
  | failed (e : HttpError)
  | unseen (e : HttpError)

/-- What the world outside decides at a step. -/
structure Answer where
  fate : Fate := .done
  draws : Cycles.Draws := fun _ => idleWorld
  sources : Sources :=
    ⟨fun _ => .error (.internal []), fun _ => .error (.internal []), fun _ => false,
    fun _ => true⟩
  isRequester : Bool := true
  tracked : List TrackResult := []
  txHash : JsStr := []
  /-- The value of the delivery columns with which a saved row was loaded. -/
  loaded : JsStr → ℕ := fun _ => 0

section Statements

def findToken (tokens : List RwaToken) (contract tokenId : JsStr) : Option RwaToken :=
  tokens.find? fun t => t.tokenContract = contract && t.tokenId = tokenId

def batchOnChain (t : Tables) (batchId : JsStr) (chainId : ℕ) : List VaultRedemption :=
  VaultRedemption.oldestFirst (t.redemptions.find fun r =>
    r.inBatch batchId &&
      (t.cycles.get r.vaultCycleId).any fun c => r.chainId.getD c.chainId = chainId)

def trackEligibleStatuses : List RedemptionStatus := [.inCustody, .burned, .vaultReleasePending]

/-- `ORDER BY tracking_set_at` puts nulls last. -/
def trackedBefore (a b : VaultRedemption) : Bool :=
  b.trackingSetAt.isNone || a.trackingSetAt.any fun x => b.trackingSetAt.any fun y => x ≤ y

def undelivered (s : Store) : List VaultRedemption :=
  ((s.db.redemptions.find fun r =>
    decide (r.status ∈ trackEligibleStatuses) && r.trackingNumber.isSome &&
      r.refundStatus = .none &&
      (s.delivery r.id).carrierDeliveredAt.isNone).insertionSort (trackedBefore · ·)).take 400

/-- `TRIM(tracking_number) <> ''`, which trims blanks only. -/
def hasTracking (r : VaultRedemption) : Bool := (r.trackingNumber.getD []).any (· ≠ ' ')

def isDue (s : Store) (dueBefore : ℤ) (r : VaultRedemption) : Bool :=
  r.paymentBatchId.isSome && r.refundStatus = .none &&
    decide (r.status ∈ trackEligibleStatuses ++ [.completed]) && hasTracking r &&
      (s.delivery r.id).carrierDeliveredAt.any fun d : ℕ => (d : ℤ) ≤ dueBefore

def deliveredAt (s : Store) (r : VaultRedemption) : ℕ :=
  (s.delivery r.id).carrierDeliveredAt.getD 0

def dueCandidates (s : Store) (dueBefore : ℤ) : List VaultRedemption :=
  ((s.db.redemptions.find (isDue s dueBefore)).insertionSort
    fun a b => deliveredAt s a ≤ deliveredAt s b).take 200

/-- The delivery columns after a save: those that the row was loaded with, and what was assigned. -/
def savedDeliveries (s : Store) (loaded : JsStr → ℕ) (rows : List Entity) (id : JsStr) :
    List Delivery :=
  match rows.find? fun e => e.row.id = id with
  | none => s.deliveries id
  | some e => e.assign ((s.deliveries id)[loaded id]?.getD (s.delivery id)) :: s.deliveries id

def tokenIdForRedemption (t : Tables) (redemptionId : JsStr) : Option JsStr := do
  let r ← t.redemptions.get redemptionId
  let c ← t.cycles.get r.vaultCycleId
  let a ← t.assets.find? fun a => a.id = c.vaultAssetId
  let token ← (Custody.onCycleCert t.tokens c.id a.externalCertNumber).head?
  pure token.tokenId

/-- The rows that the sync leaves; the contract and the token id are the primary key. -/
def syncTokens (x : Sources) (contract : JsStr) (tokens : List RwaToken) (tokenId : ℕ) :
    List RwaToken :=
  if h : (tokens.map RwaToken.key).Nodup then
    (Vault.syncTokenFromChain x contract ⟨tokens, h⟩ tokenId).rows
  else tokens

def recordOwner (t : Tables) (contract tokenId owner : JsStr) : Tables :=
  if (trim tokenId).isEmpty || !isAddress (lower (trim owner)) then t
  else t.recordOwner (lower (trim contract)) (trim tokenId) (lower (trim owner))

theorem redemptions_recordOwner (t : Tables) (contract tokenId owner : JsStr) :
    (recordOwner t contract tokenId owner).redemptions = t.redemptions := by
  unfold recordOwner
  split_ifs <;> rfl

/-- `COALESCE(burned_at, NOW())` -/
def markBurned (contract tokenId : JsStr) (now : ℕ) (t : RwaToken) : RwaToken :=
  if t.tokenContract = contract ∧ t.tokenId = tokenId then
    { t with ownerWallet := none, burnedAt := t.burnedAt.or (some now) }
  else t

def recordBurn (t : Tables) (contract tokenId : JsStr) (now : ℕ) : Tables :=
  if (trim tokenId).isEmpty then t
  else { t with tokens := t.tokens.map (markBurned (lower (trim contract)) (trim tokenId) now) }

theorem redemptions_recordBurn (t : Tables) (contract tokenId : JsStr) (now : ℕ) :
    (recordBurn t contract tokenId now).redemptions = t.redemptions := by
  unfold recordBurn
  split_ifs <;> rfl

end Statements

section Exec
variable (cfg : Config)

/-- `burn` of the signer's own token; the contract reverts otherwise. -/
def burnNft (s : Store) (x : Answer) (nft : Custody.Nft) (signer : JsStr) :
    Except HttpError JsStr × Store :=
  match s.owner nft with
  | none => (.error (.internal (js "ERC721: invalid token ID")), s)
  | some owner =>
    if owner = signer then (.ok x.txHash, { s with owner := Function.update s.owner nft none })
    else (.error (.internal (js "ERC721: caller is not token owner or approved")), s)

/-- The delivery columns after a statement of the cycle service. -/
def tableDeliveries (s : Store) (x : Answer) : Cycles.Cmd → JsStr → List Delivery
  | .saveRedemption r => savedDeliveries s x.loaded [{ row := r }]
  -- a new row starts with none
  | .insertRedemption _ => fun id => if s.db.redemptions.get id = none then [] else s.deliveries id
  | _ => s.deliveries

def run (s : Store) (x : Answer) : (c : Cmd) → Res c × Store
  | .table c =>
    let r := Cycles.exec cfg.env cfg.keccak s.db x.draws c
    (.ok r.1, { s with db := r.2, deliveries := tableDeliveries s x c })
  | .findTokenForReceipt _ contract tokenId => (.ok (findToken s.db.tokens contract tokenId), s)
  | .findBatchOnChain batchId chainId =>
    (.ok ((batchOnChain s.db batchId chainId).map fun r => (r, s.delivery r.id)), s)
  | .isRequester _ => (.ok x.isRequester, s)
  | .getTokenIdForRedemption redemptionId => (.ok (tokenIdForRedemption s.db redemptionId), s)
  | .saveRedemptions rows =>
    (.ok (), { s with
      db := { s.db with redemptions := s.db.redemptions.saveAll (rows.map Entity.row) }
      deliveries := savedDeliveries s x.loaded rows })
  | .findUndelivered => (.ok (undelivered s), s)
  | .trackByNumbers _ => (.ok x.tracked, s)
  | .findDueCandidates dueBefore => (.ok (dueCandidates s dueBefore), s)
  | .findActiveOrders contract tokenId => (.ok (s.db.activeOrdersOfTokens contract [tokenId]), s)
  | .saveOrder order => (.ok (), { s with db := { s.db with orders := s.db.orders.save order } })
  | .ownerOf chainId tokenId => (.ok (s.owner (chainId, tokenId)), s)
  | .syncTokenFromChain contract tokenId =>
    (.ok (), { s with db := { s.db with
      tokens := syncTokens x.sources contract s.db.tokens tokenId } })
  | .burn chainId tokenId signer => burnNft s x (chainId, tokenId) signer
  | .recordOwner contract tokenId owner =>
    (.ok (), { s with db := recordOwner s.db contract tokenId owner })
  | .recordBurn contract tokenId =>
    (.ok (), { s with db := recordBurn s.db contract tokenId (x.draws 0 .now) })
  | .refreshCurrentSlotSnapshot .. => (.ok (), s)

def exec (s : Store) (x : Answer) (c : Cmd) : Res c × Store :=
  match x.fate with
  | .done => run cfg s x c
  | .failed e => (.error e, s)
  | .unseen e => (.error e, (run cfg s x c).2)

def handler : Handler Store Answer Cmd Res := fun _ s x c => some (exec cfg s x c)

end Exec

abbrev M := Prog Cmd Res HttpError

def perform (c : Cmd) : M (Value c) := .call c .ret

/-- A function of the cycle service, each of whose statements may fail. -/
def tables {α : Type} (p : Cycles.M α) : M α := p.expand fun c => perform (.table c)

section Burn
variable (cfg : Config)

def cancelOrders : List Order → M (List JsStr)
  | [] => pure []
  | order :: orders => do
    perform (.saveOrder { order with status := .cancelled })
    let cancelled ← cancelOrders orders
    pure (order.orderHash :: cancelled)

def cancelActiveOrdersForToken (contract : JsStr) (tokenId : ℕ) : M (List JsStr) := do
  let orders ← perform (.findActiveOrders (lower contract) (numberText tokenId))
  cancelOrders orders

def getRwaTokenOwner (tokenId chainId : ℕ) : M JsStr := do
  let owner ← perform (.ownerOf chainId tokenId)
  let address ← Prog.orThrow
    (.notFound (js "RWA #" ++ numberText tokenId ++ js " does not exist on chain")) owner
  pure (lower (trim address))

def notMinted (tid : ℕ) : HttpError :=
  .badRequest (js "Token #" ++ numberText tid ++
    js " is not minted on chain (may already be burned).")

def ownerToBurn (tid chainId : ℕ) : M JsStr :=
  (perform (.ownerOf chainId tid)).settle fun
    | .ok (some owner) => .ret (.ok (lower (trim owner)))
    | .ok none => .ret (.error (notMinted tid))
    | .error e =>
      .ret (.error (.internal (js "Could not resolve owner for token #" ++ numberText tid ++
        js ": " ++ e.message)))

def burnSigner (tid chainId : ℕ) (owner : JsStr) : Except HttpError JsStr :=
  if owner = cfg.custodyWallet chainId then .ok owner
  else if owner = cfg.minterAddress then .ok owner
  else .error (.badRequest (js "Token #" ++ numberText tid ++
    js " must be in platform custody to burn (owner=" ++ owner ++
      js "). Transfer it to custody first."))

def syncTokenFromChain (tokenId chainId : ℕ) : M Unit := do
  let contract ← Prog.ret (cfg.env.getRwaAddress chainId)
  (perform (.syncTokenFromChain contract tokenId)).swallow

def mentions (pattern : JsStr) (e : HttpError) : Bool := contains (lower pattern) (lower e.message)

def burnError (tid : ℕ) (e : HttpError) : HttpError :=
  if mentions (js "ERC721: invalid token ID") e || mentions (js "nonexistent token") e then
    notMinted tid
  else if mentions (js "not token owner or approved") e then
    .badRequest (js "Token #" ++ numberText tid ++
      js " is not owned or approved by the platform burn wallet.")
  else .internal (js "Burn transaction reverted: " ++ e.message)

/-- An error of the transaction or of the database gets a text of its own. -/
def inBurn {α : Type} (tid : ℕ) (p : M α) : M α :=
  p.settle (Prog.onError fun e => throw (burnError tid e))

def sendBurn (tid chainId : ℕ) (signer : JsStr) : M JsStr := do
  let txHash ← inBurn tid (perform (.burn chainId tid signer))
  Prog.throwIf txHash.isEmpty (.internal (js "Burn transaction failed"))
  let contract ← Prog.ret (cfg.env.getRwaAddress chainId)
  inBurn tid (perform (.recordBurn contract (numberText tid)))
  pure txHash

def adminBurn (tid chainId : ℕ) (expectedOwner : JsStr) : M JsStr := do
  let owner ← ownerToBurn tid chainId
  let expected := lower (trim expectedOwner)
  Prog.throwIf (isAddress expected && expected ≠ owner)
    (.badRequest (js "On-chain owner changed before burn — refresh the page and retry."))
  let signer ← Prog.ret (burnSigner cfg tid chainId owner)
  sendBurn cfg tid chainId signer

/-- The calls of the burn panel and of the receipts. -/
def onChain (chainId : ℕ) : (c : TokenSpelling.Cmd) → M (TokenSpelling.Res c)
  | .findToken contract tokenId => (perform (.table (.findToken contract tokenId))).outcome
  | .findOpenRedemptionForCycle cycleId =>
    (perform (.table (.findLatestRedemption cycleId Cycles.closedStatuses))).outcome
  | .cancelActiveOrdersForToken contract tokenId =>
    (cancelActiveOrdersForToken contract tokenId).outcome
  | .getRwaTokenOwner tokenId => (getRwaTokenOwner tokenId chainId).outcome
  | .syncTokenFromChain tokenId => (syncTokenFromChain cfg tokenId chainId).outcome
  | .adminBurn tokenId expectedOwner => (adminBurn cfg tokenId chainId expectedOwner).outcome
  | .completeRedemptionBurn p => (tables (Cycles.completeRedemptionBurn p)).outcome
  | .refreshCurrentSlotSnapshot owner =>
    (perform (.refreshCurrentSlotSnapshot owner chainId)).swallow.outcome

/-- The lookup that decides whether the card of a redemption is already burned. -/
def receiptLookup (redemptionId : JsStr) (chainId : ℕ) :
    (c : TokenSpelling.Cmd) → M (TokenSpelling.Res c)
  | .findToken contract tokenId =>
    (perform (.findTokenForReceipt redemptionId contract tokenId)).outcome
  | c => onChain cfg chainId c

def burnTokenOnChain (tokenId : Option ℕ) (chainId : ℕ) : M (JsStr × List JsStr) := do
  let contract ← Prog.ret (cfg.env.getRwaAddress chainId)
  (TokenSpelling.burnTokenOnChain contract tokenId).expand (onChain cfg chainId)

def ensureBurnedForRedeem (redemptionId : JsStr) (tokenId : Option ℕ) (chainId : ℕ) :
    M TokenSpelling.BurnOutcome := do
  let contract ← Prog.ret (cfg.env.getRwaAddress chainId)
  (TokenSpelling.ensureBurnedForRedeem contract tokenId).expandFirst
    (receiptLookup cfg redemptionId chainId) (onChain cfg chainId)

end Burn

section Receipt
variable (cfg : Config)

def unresolved (redemptionId : JsStr) : HttpError :=
  .badRequest (js "Cannot resolve NFT tokenId for redemption " ++ redemptionId ++
    js " — burn blocked")

def burnFailed (tokenId : Option ℕ) : HttpError → HttpError
  | .badRequest m => .badRequest m
  | e => .internal (js "Failed to burn token #" ++ tokenId.elim (js "Infinity") numberText ++
      js " after redeem receipt: " ++ e.message)

def ensureTokenBurned (row : VaultRedemption) (chainId : ℕ) : M Unit := do
  let found ← perform (.getTokenIdForRedemption row.id)
  let tokenIdStr ← Prog.orThrow (unresolved row.id) (found.filter isDigits)
  let tokenId := numberOf tokenIdStr
  (ensureBurnedForRedeem cfg row.id tokenId chainId).discard.settle
    (Prog.onError fun e => throw (burnFailed tokenId e))

def ensureBatchTokensBurned (chainId : ℕ) : List VaultRedemption → M Unit
  | [] => pure ()
  | row :: rows => do
    ensureTokenBurned cfg row chainId
    ensureBatchTokensBurned chainId rows

def findParcelsByBatchId (paymentBatchId : JsStr) (chainId : ℕ) : M (List Parcel) :=
  if (trim paymentBatchId).isEmpty then pure []
  else perform (.findBatchOnChain (trim paymentBatchId) chainId)

def findRedemptionsByBatchId (paymentBatchId : JsStr) (chainId : ℕ) : M (List VaultRedemption) := do
  let parcels ← findParcelsByBatchId paymentBatchId chainId
  pure (parcels.map Prod.fst)

def incomplete (rows : List VaultRedemption) : List VaultRedemption :=
  rows.filter fun r => r.status ≠ .completed

def confirmed (r : VaultRedemption) : VaultRedemption := { r with status := .completed }

/-- A row that is completed already keeps how it was confirmed. -/
def received (via : Via) (r : VaultRedemption) : Entity where
  row := confirmed r
  assign d :=
    if r.status = .completed then
      { d with receiptConfirmedVia := d.receiptConfirmedVia.or (some via) }
    else { d with receiptConfirmedVia := some via }

def markUserReceiptConfirmed (via : Via) (rows : List VaultRedemption) : M (List VaultRedemption) :=
  if rows.isEmpty then pure []
  else do
    perform (.saveRedemptions (rows.map (received via)))
    pure (rows.map confirmed)

def reload (rows : List VaultRedemption) (chainId : ℕ) : M (List VaultRedemption) :=
  match rows.head?.bind VaultRedemption.paymentBatchId with
  | some batchId => findRedemptionsByBatchId batchId chainId
  | none => pure rows

/-- The rows that are not completed, or all of them when there are none. -/
def toConfirm (rows : List VaultRedemption) : List VaultRedemption :=
  if (incomplete rows).isEmpty then rows else incomplete rows

def finalizeReceiptWithBurn (via : Via) (rows : List VaultRedemption) (chainId : ℕ) :
    M (List VaultRedemption) := do
  ensureBatchTokensBurned cfg chainId rows
  let fresh ← reload rows chainId
  markUserReceiptConfirmed via (toConfirm fresh)

def eligibleStatuses : List RedemptionStatus := trackEligibleStatuses ++ [.completed]

def assertReceivable (rows : List VaultRedemption) : Except HttpError Unit :=
  if rows.any fun r => r.refundStatus ≠ .none || r.status = .refunded then
    .error (.badRequest (js "This redeem batch was refunded"))
  else if rows.any fun r => r.status ∉ eligibleStatuses then
    .error (.badRequest (js "All cards must be in custody (or further) before confirming receipt"))
  else if rows.any fun r => !truthy (r.trackingNumber.map trim) then
    .error (.badRequest
      (js "Every vault shipment needs a tracking number before you can confirm receipt"))
  else .ok ()

def confirmReceipt (batchId : JsStr) (chainId : ℕ) : M (List VaultRedemption) := do
  let rows ← findRedemptionsByBatchId batchId chainId
  Prog.throwIf rows.isEmpty (.badRequest (js "Unknown paymentBatchId"))
  let isRequester ← perform (.isRequester batchId)
  Prog.throwIf (!isRequester) (.forbidden (js "Batch does not belong to this user"))
  Prog.ret (assertReceivable rows)
  finalizeReceiptWithBurn cfg .user rows chainId

end Receipt

end Receipts
