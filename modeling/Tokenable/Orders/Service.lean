import Tokenable.Orders.Validation

/-!
# The order service

Creation, fulfilment, cancellation, replacement and expiry of orders. Whether an order was filled is read
from Seaport, or inferred from who owns the token on chain. Every save of an order writes the whole
row that the call loaded; it names the loaded copy, which has no effect.

Notifications and chart refreshes are not awaited and touch none of the tables.
-/

namespace Orders
open Js Platform Async Db Vault Settlement Backend

def seaportOrderIsFullyFilled (status : SeaportFillStatus) : Bool :=
  !status.isCancelled && status.totalSize ≠ 0 && status.totalSize ≤ status.totalFilled

def withHexPrefix (hash : JsStr) : JsStr := if hash.take 2 = js "0x" then hash else js "0x" ++ hash

/-- The Seaport hash of the signed parameters, and the fill status of that hash. -/
def readSeaportFilled (order : Order) (chainId : ℕ) : BackendM (Except JsStr Bool) := do
  let hash ← (rpc (.getOrderHash chainId (seaportHashableParameters order.parameters)) :
    BackendM (Except JsStr JsStr))
  match hash with
  | .error message => pure (.error message)
  | .ok hash => do
    let status ← (rpc (.getOrderStatus chainId (withHexPrefix (lower hash))) :
      BackendM (Except JsStr SeaportFillStatus))
    pure (status.map seaportOrderIsFullyFilled)

def isSeaportOrderFullyFilledOnChain (order : Order) (chainId : ℕ) : BackendM Bool := do
  let filled ← readSeaportFilled order chainId
  pure (filled.toOption = some true)

def seaportFillNotFound (what : JsStr) : HttpError :=
  .badRequest (js "On-chain Seaport fill was not found for this " ++ what ++
    js " — listing and ownership were not updated")

def assertSeaportOrderFilledOnChain (order : Order) (chainId : ℕ) : BackendM Unit := do
  let filled ← readSeaportFilled order chainId
  match filled with
  | .ok true => pure ()
  | .ok false => throw (seaportFillNotFound (js "order"))
  | .error _ => throw (.unavailable (js "Could not verify on-chain Seaport fill — try again"))

def zeroAddress : JsStr := js "0x0000000000000000000000000000000000000000"

def nonexistentToken (message : JsStr) : Bool :=
  containsCI (js "nonexistent token") message || containsCI (js "invalid token") message

/-- What `readOnChainRwaOwner` makes of the answer of `ownerOf`. -/
def ownerAnswer (tid chainId : ℕ) (expected : JsStr) : Except JsStr JsStr → Except HttpError JsStr
  | .ok raw =>
    let owner := lower (trim raw)
    if owner.isEmpty || owner = zeroAddress then
      .error (.badRequest (js "RWA #" ++ ofNat tid ++ js " has no on-chain owner"))
    else .ok owner
  | .error message =>
    if nonexistentToken message then
      .error (.badRequest (js "RWA #" ++ ofNat tid ++ js " does not exist on " ++ expected ++
        js " (chain " ++ ofNat chainId ++ js "). Align CHAIN_" ++ ofNat chainId ++
        js "_RWA_ADDRESS / frontend NEXT_PUBLIC_CHAIN_" ++ ofNat chainId ++
        js "_RWA with the mint contract, or reset marketplace rows for the previous CA before listing."))
    else .error (.unavailable (js "Could not verify on-chain NFT ownership — try again"))

def readOnChainRwaOwner (env : Env) (tokenContract tokenId : JsStr) (chainId : ℕ) :
    BackendM JsStr := do
  let tid ← Prog.orThrow (.badRequest (js "Invalid tokenId " ++ tokenId))
    (toNumber (normalizeDecimalTokenId tokenId))
  let expected ← Prog.ret (env.getRwaAddress chainId)
  Prog.throwIf (lower tokenContract ≠ expected)
    (.badRequest (js "tokenContract must match RWA for chain " ++ ofNat chainId))
  let answer ← (rpc (.ownerOf chainId expected tid) : BackendM (Except JsStr JsStr))
  Prog.ret (ownerAnswer tid chainId expected answer)

/-- The owner of the token of the ask satisfies the test; no readable owner does. -/
def askOwnerIs (env : Env) (ask : Order) (chainId : ℕ) (test : JsStr → Bool) : BackendM Bool :=
  let tid := normalizeDecimalTokenId ask.tokenId
  if tid.isEmpty || tid = js "0" then pure false
  else (readOnChainRwaOwner env ask.tokenContract tid chainId).settle fun
    | .ok owner => pure (test owner)
    | .error _ => pure false

def orElse (p q : BackendM Bool) : BackendM Bool := do
  let b ← p
  if b then pure true else q

/-- Filled on Seaport, or the seller no longer owns the listed token. -/
def isAskListingConsumedOnChain (env : Env) (ask : Order) (chainId : ℕ) : BackendM Bool :=
  orElse (isSeaportOrderFullyFilledOnChain ask chainId)
    (askOwnerIs env ask chainId fun owner => owner ≠ lower (trim ask.offerer))

/-- Filled on Seaport, or the bidder owns the token of the ask. -/
def isBidSettledForAsk (env : Env) (bid ask : Order) (chainId : ℕ) : BackendM Bool :=
  orElse (isSeaportOrderFullyFilledOnChain bid chainId)
    (askOwnerIs env ask chainId fun owner => owner = lower (trim bid.offerer))

def anySettledAsk (env : Env) (bid : Order) (chainId : ℕ) : List Order → BackendM Bool
  | [] => pure false
  | ask :: asks => do
    let consumed ← isAskListingConsumedOnChain env ask chainId
    if consumed then orElse (isBidSettledForAsk env bid ask chainId) (anySettledAsk env bid chainId asks)
    else anySettledAsk env bid chainId asks

def collectionOf (o : Order) : JsStr := lower (trim (o.collectionKey.getD []))

def contractOf (o : Order) : JsStr := lower (trim o.tokenContract)

def criteriaBidShowsInboundOwnership (env : Env) (bid : Order) (chainId : ℕ) : BackendM Bool :=
  if (collectionOf bid).isEmpty || (contractOf bid).isEmpty then pure false
  else do
    let asks ← (db (.ordersOfCollection (collectionOf bid) (contractOf bid) .ask none 30) :
      BackendM (List Order))
    anySettledAsk env bid chainId asks

def isActiveOrderConsumedForReconcile (env : Env) (order : Order) (chainId : ℕ) : BackendM Bool :=
  orElse (isSeaportOrderFullyFilledOnChain order chainId)
    (match order.side with
      | .ask => isAskListingConsumedOnChain env order chainId
      | .bid => criteriaBidShowsInboundOwnership env order chainId)

/-- `catch (e) { if (!(e instanceof BadRequestException)) throw e; … }` -/
def onBadRequest {α : Type} (p : BackendM α) (h : HttpError → BackendM α) : BackendM α :=
  p.settle fun
    | .ok a => pure a
    | .error (.badRequest message) => h (.badRequest message)
    | .error e => throw e

def assertBidSettledForMatchedPair (env : Env) (bid ask : Order) (chainId : ℕ) : BackendM Unit :=
  onBadRequest (assertSeaportOrderFilledOnChain bid chainId) fun _ => do
    let settled ← isBidSettledForAsk env bid ask chainId
    Prog.throwIf (!settled) (seaportFillNotFound (js "bid"))

/-- Filled on Seaport, or, for an ask, the token is with the buyer that the caller names. -/
def assertOrderSettledForFulfill (env : Env) (order : Order) (buyerAddress : Option JsStr)
    (chainId : ℕ) : BackendM Unit :=
  onBadRequest (assertSeaportOrderFilledOnChain order chainId) fun e => do
    let buyer := lower (trim (buyerAddress.getD []))
    Prog.throwIf (order.side ≠ .ask || buyer.isEmpty) e
    let owner ← readOnChainRwaOwner env order.tokenContract order.tokenId chainId
    Prog.throwIf (!(owner = buyer && owner ≠ lower (trim order.offerer))) e

def findByHash (orderHash : JsStr) : BackendM Order := do
  let found ← (db (.orderByHash orderHash) : BackendM (Option Order))
  let order ← Prog.orThrow (.notFound (js "Order not found: " ++ orderHash)) found
  orThrowAnswer (rpc (.listingDisplay order))
  pure order

def saveOrder (loaded row : Order) : BackendM Order := do
  let at_ ← (rpc .now : BackendM ℕ)
  db (.saveOrders [(loaded, { row with updatedAt := at_ })])
  pure { row with updatedAt := at_ }

def assertActive (order : Order) : BackendM Unit :=
  Prog.throwIf (order.status ≠ .active)
    (.badRequest (js "Order is already " ++ order.status.text))

def assertOfferer (order : Order) (callerAddress message : JsStr) : BackendM Unit :=
  Prog.throwIf (lower order.offerer ≠ lower callerAddress) (.badRequest message)

def cancelOrder (orderHash callerAddress : JsStr) : BackendM Order := do
  let order ← findByHash orderHash
  assertActive order
  assertOfferer order callerAddress (js "Only the offerer can cancel this order")
  saveOrder order { order with status := .cancelled }

def isDeadTokenBidFunding (funding : BidFunding) (needed : ℤ) (endTimeSec : ℕ) : Option JsStr :=
  if 0 < endTimeSec && endTimeSec ≤ funding.nowSec then some (js "expired")
  else if 0 < needed && (funding.balance < needed || funding.allowance < needed) then
    some (js "underfunded")
  else none

def firstOfferAmount (o : Order) : Option JsStr := o.parameters.offer.head?.map SeaportItem.startAmount

def Order.mark (o : Order) (marks : List (JsStr × JsStr)) : Order :=
  { o with parameters := { o.parameters with marks := o.parameters.marks ++ marks } }

def invalidateDeadBid (orderHash callerAddress : JsStr) (chainId : ℕ) : BackendM Order := do
  let order ← findByHash orderHash
  if order.status ≠ .active then pure order
  else do
    Prog.throwIf (!isTokenBidOrder order)
      (.badRequest (js "Only active token bids can be invalidated as dead offers"))
    let needed := (toBigInt ((firstOfferAmount order).getD (js "0"))).getD 0
    let funding ← orThrowAnswer (rpc (.bidFunding chainId order.offerer))
    let reason ← Prog.orThrow
      (.badRequest (js "Bid still appears fundable on-chain; not invalidating"))
      (isDeadTokenBidFunding funding needed order.parameters.endTime)
    saveOrder order ({ order with status := .cancelled }.mark
      [(js "_deadBid", js "true"), (js "_deadBidReason", reason),
        (js "_deadBidBy", lower callerAddress)])

def recordOwner (tokenContract tokenId owner : JsStr) : BackendM Unit :=
  if (trim tokenId).isEmpty || !isAddress (lower (trim owner)) then pure ()
  else db (.recordOwner (lower (trim tokenContract)) (trim tokenId) (lower (trim owner)))

def invalidateUnownedAsk (env : Env) (orderHash callerAddress : JsStr) (chainId : ℕ) :
    BackendM Order := do
  let order ← findByHash orderHash
  if order.status ≠ .active then pure order
  else do
    Prog.throwIf (order.side ≠ .ask)
      (.badRequest (js "Only ask listings can be invalidated as unowned"))
    let owner ← readOnChainRwaOwner env order.tokenContract order.tokenId chainId
    Prog.throwIf (owner = lower order.offerer)
      (.badRequest (js "Listing wallet still owns this token on-chain"))
    let saved ← saveOrder order ({ order with status := .cancelled }.mark
      [(js "_unownedAsk", js "true"), (js "_onChainOwner", owner),
        (js "_unownedAskBy", lower callerAddress)])
    recordOwner order.tokenContract order.tokenId owner
    pure saved

def blank (s : Option JsStr) : Bool := (trim (s.getD [])).isEmpty

def markFulfilled (order : Order) (buyerAddress fillTxHash : Option JsStr) : Order :=
  match order.side with
  | .ask =>
    let fillTx := lower (trim (fillTxHash.getD []))
    backfillAskTokenIdFromParameters { order with
      status := .fulfilled
      parameters := { order.parameters with
        tapeFillSide := some (js "buy")
        filledByBuyer := if blank buyerAddress then order.parameters.filledByBuyer
          else some (lower (trim (buyerAddress.getD [])))
        settlementAmount := if blank buyerAddress then order.parameters.settlementAmount
          else some order.considerationAmount
        fillTxHash := if isTxHash fillTx then some fillTx else order.parameters.fillTxHash } }
  | .bid => { order with
      status := .fulfilled
      parameters := { order.parameters with
        tapeFillSide := some (js "sell")
        settlementAmount := some ((firstOfferAmount order).getD order.considerationAmount) } }

def microsToUsdc (micros : JsStr) : ℚ := (toNumber micros).getD 0 / 10 ^ 6

/-- `portfolioHoldings.seedMarketplaceBuyCostBasis`, with its failures logged. -/
def seedMarketplaceBuyCostBasis (env : Env) (wallet : JsStr) (tid : ℕ) (costUsd : ℚ)
    (acquiredAt : ℕ) (chainId : Option ℕ) : BackendM Unit :=
  if (lower (trim wallet)).isEmpty then pure ()
  else
    match env.getRwaAddress (chainId.getD env.getDefaultChainId) with
    | .ok contract =>
      db (.seedMarketplaceBuyCostBasis contract (lower (trim wallet)) tid costUsd acquiredAt)
    | .error _ => pure ()

def seedMarketplaceBuyFromAskFill (env : Env) (buyerWallet : JsStr) (askOrder : Order)
    (acquiredAt : ℕ) (chainId : Option ℕ) : BackendM Unit :=
  match resolveFulfilledAskTokenId askOrder with
  | none => pure ()
  | some tid =>
    if 0 < microsToUsdc askOrder.considerationAmount then
      seedMarketplaceBuyCostBasis env buyerWallet (toNat tid)
        (microsToUsdc askOrder.considerationAmount) acquiredAt chainId
    else pure ()

/-- The settlement policy that the ask of a settled fill restores on its token. -/
def restoredPolicy (env : Env) (ask : Option Order) : Option SettlementPolicy :=
  ask.bind fun ask =>
    let stamped := trim (ask.parameters.settlementPolicy.getD [])
    if stamped = js "self_vault_hold" then some .selfVaultHold
    else if stamped = js "standard" then some .standard
    else if isFullPlatformTakeAsk env ask then some .selfVaultHold
    else none

def recordBuyerOwnershipAfterSettle (env : Env) (tokenContract : JsStr) (tokenId : Option JsStr)
    (buyerWallet : JsStr) (ask : Option Order) : BackendM Unit := do
  let buyer := lower (trim buyerWallet)
  let tid := trim (tokenId.getD [])
  let contract := trim tokenContract
  if buyer.isEmpty || tid.isEmpty || contract.isEmpty then pure ()
  else do
    recordOwner contract tid buyer
    match restoredPolicy env ask with
    | some policy => db (.ensureSettlementPolicy (lower contract) tid policy)
    | none => pure ()

def cancelActiveAsks (contract tokenId : JsStr) (except : Option ℕ) : BackendM Unit := do
  let at_ ← (rpc .now : BackendM ℕ)
  db (.cancelActiveAsks contract tokenId except at_)

/-- `Number(order.parameters.consideration[0].itemType) === 2` on a bid. -/
def isTokenConsiderationBid (o : Order) : Bool := o.side = .bid && o.firstConsiderationType = some 2

def assertNotHoldBidOnly (order : Order) : BackendM Unit :=
  if isTokenConsiderationBid order then do
    let policy ← (db (.getSettlementPolicy order.tokenContract order.tokenId) :
      BackendM (Option SettlementPolicy))
    Prog.throwIf (policy = some .selfVaultHold) (.badRequest
      (js "Self-vault hold tokens cannot settle via bid-only fulfill. List an ask or match bid+ask on Seaport."))
  else pure ()

/-- The settlement, the cost basis and the owner of a filled ask. -/
def recordAskFill (env : Env) (ask : Order) (buyerWallet costMicros : JsStr)
    (tokenId : Option JsStr) (chainId : Option ℕ) : BackendM Unit := do
  db (.maybeCreateSelfVaultSettlement ask ⟨buyerWallet, chainId⟩)
  seedMarketplaceBuyFromAskFill env buyerWallet { ask with considerationAmount := costMicros }
    ask.updatedAt chainId
  recordBuyerOwnershipAfterSettle env ask.tokenContract tokenId buyerWallet (some ask)

/-- The other active asks of the token, if the row names one. -/
def clearAsks (contract : JsStr) (tokenId : Option JsStr) (except : Option ℕ) : BackendM Unit :=
  match tokenId with
  | some tid => cancelActiveAsks contract tid except
  | none => pure ()

def recordAskBuyer (env : Env) (saved : Order) (buyerAddress : Option JsStr)
    (chainId : Option ℕ) : BackendM Unit :=
  if blank buyerAddress then pure ()
  else recordAskFill env saved (buyerAddress.getD []) saved.considerationAmount
    (resolveFulfilledAskTokenId saved) chainId

def afterAskFulfilled (env : Env) (saved : Order) (buyerAddress : Option JsStr)
    (chainId : Option ℕ) : BackendM Unit := do
  clearAsks saved.tokenContract (resolveFulfilledAskTokenId saved) (some saved.id)
  recordAskBuyer env saved buyerAddress chainId

def recordBidBuyer (env : Env) (saved : Order) (buyerAddress : Option JsStr)
    (chainId : Option ℕ) : BackendM Unit :=
  if blank buyerAddress then pure ()
  else do
    let offerAmt := (firstOfferAmount saved).getD saved.considerationAmount
    seedMarketplaceBuyFromAskFill env (buyerAddress.getD [])
      { saved with side := .ask, considerationAmount := offerAmt } saved.updatedAt chainId
    recordBuyerOwnershipAfterSettle env saved.tokenContract (some saved.tokenId)
      (buyerAddress.getD []) none

def afterTokenBidFulfilled (env : Env) (saved : Order) (buyerAddress : Option JsStr)
    (chainId : Option ℕ) : BackendM Unit := do
  let tid := normalizeDecimalTokenId saved.tokenId
  clearAsks saved.tokenContract (if tid.isEmpty then none else some tid) none
  recordBidBuyer env saved buyerAddress chainId

def afterFulfilled (env : Env) (saved : Order) (buyerAddress : Option JsStr)
    (chainId : Option ℕ) : BackendM Unit :=
  if saved.side = .ask then afterAskFulfilled env saved buyerAddress chainId
  else if !isCriteriaCollectionBidOrder saved && isTokenConsiderationBid saved then
    afterTokenBidFulfilled env saved buyerAddress chainId
  else pure ()

def fulfillOrder (env : Env) (orderHash : JsStr) (buyerAddress : Option JsStr)
    (chainId : Option ℕ) (fillTxHash : Option JsStr) : BackendM Order := do
  let order ← findByHash orderHash
  assertActive order
  assertOrderSettledForFulfill env order buyerAddress (chainId.getD env.getDefaultChainId)
  assertNotHoldBidOnly order
  let saved ← saveOrder order (markFulfilled order buyerAddress fillTxHash)
  afterFulfilled env saved buyerAddress chainId
  pure saved

/-- The checks of `fulfillMatchedPair` after those on chain. -/
def matchedPairError (ask bid : Order) : Option HttpError :=
  let bidItemType := bid.firstConsiderationType
  let keys := (ask.collectionKey.filter (fun k => !k.isEmpty),
    bid.collectionKey.filter (fun k => !k.isEmpty))
  if bidItemType ≠ some 2 && bidItemType ≠ some 4 then
    some (.badRequest (js "bid must be a token bid (itemType 2) or legacy criteria bid (itemType 4)"))
  else if bidItemType = some 2 &&
      normalizeDecimalTokenId ask.tokenId ≠ normalizeDecimalTokenId bid.tokenId then
    some (.badRequest (js "Token bid must target the same tokenId as the listing"))
  else if keys.1.isSome && keys.2.isSome && keys.1.map lower ≠ keys.2.map lower then
    some (.badRequest (js "Listing and bid must belong to the same collection"))
  else
    match toNumber ask.considerationAmount, toNumber bid.considerationAmount with
    | some askPrice, some bidPrice =>
      if bidPrice < askPrice then
        some (.badRequest (js "Bid USDC amount must be at least the listing price"))
      else none
    | _, _ => some (.badRequest (js "Invalid consideration amounts"))

/-- The USDC that the bid offers, or else its consideration amount. -/
def matchedAmount (bid : Order) : JsStr :=
  let offerAmt := trim ((firstOfferAmount bid).getD [])
  if offerAmt.isEmpty then bid.considerationAmount else offerAmt

def matchedAsk (ask bid : Order) : Order :=
  backfillAskTokenIdFromParameters { ask with
    status := .fulfilled
    parameters := { ask.parameters with
      tapeFillSide := some (js "sell")
      filledByBuyer := some (lower (trim bid.offerer))
      matchedBidOrderHash := some bid.orderHash
      settlementAmount := some (matchedAmount bid) } }

def matchedBid (ask bid : Order) : Order :=
  { bid with
    status := .fulfilled
    parameters := { bid.parameters with
      tapeFillSide := some (js "sell")
      matchedAskOrderHash := some ask.orderHash
      settlementAmount := some (matchedAmount bid) } }

/-- The writes of `fulfillMatchedPair`. -/
def settleMatchedPair (env : Env) (ask bid : Order) (chainId : Option ℕ) :
    BackendM (Order × Order) := do
  let at_ ← (rpc .now : BackendM ℕ)
  let savedAsk := { matchedAsk ask bid with updatedAt := at_ }
  let savedBid := { matchedBid ask bid with updatedAt := at_ }
  db (.saveOrders [(ask, savedAsk), (bid, savedBid)])
  cancelActiveAsks savedAsk.tokenContract savedAsk.tokenId (some savedAsk.id)
  recordAskFill env savedAsk bid.offerer (matchedAmount bid) (some savedAsk.tokenId) chainId
  pure (savedAsk, savedBid)

def fulfillMatchedPair (env : Env) (askHash bidHash : JsStr) (chainId : Option ℕ) :
    BackendM (Order × Order) := do
  let ask ← findByHash askHash
  let bid ← findByHash bidHash
  Prog.throwIf (ask.side ≠ .ask || bid.side ≠ .bid)
    (.badRequest (js "askHash must be a listing and bidHash a buy order"))
  Prog.throwIf (ask.status ≠ .active || bid.status ≠ .active)
    (.badRequest (js "Both orders must be active"))
  let fillChain := chainId.getD env.getDefaultChainId
  assertOrderSettledForFulfill env ask (some bid.offerer) fillChain
  assertBidSettledForMatchedPair env bid ask fillChain
  match matchedPairError ask bid with
  | some e => throw e
  | none => settleMatchedPair env ask bid chainId

/-- One candidate of the pairing loop; a failing pair is logged and the loop goes on. -/
def tryPair (env : Env) (askHash bidHash : JsStr) (chainId : ℕ) : BackendM Bool :=
  (fulfillMatchedPair env askHash bidHash (some chainId)).settle fun
    | .ok _ => pure true
    | .error _ => pure false

def tryAsks (env : Env) (bid : Order) (chainId : ℕ) : List Order → BackendM Bool
  | [] => pure false
  | ask :: asks => do
    let consumed ← isAskListingConsumedOnChain env ask chainId
    if !consumed then tryAsks env bid chainId asks
    else do
      let settled ← isBidSettledForAsk env bid ask chainId
      if !settled then tryAsks env bid chainId asks
      else orElse (tryPair env ask.orderHash bid.orderHash chainId) (tryAsks env bid chainId asks)

def tryBids (env : Env) (ask : Order) (chainId : ℕ) : List Order → BackendM Bool
  | [] => pure false
  | bid :: bids => do
    let settled ← isBidSettledForAsk env bid ask chainId
    if !settled then tryBids env ask chainId bids
    else orElse (tryPair env ask.orderHash bid.orderHash chainId) (tryBids env ask chainId bids)

def tryFulfillMatchedPairForConsumedOrder (env : Env) (order : Order) (chainId : ℕ) :
    BackendM Bool :=
  if (collectionOf order).isEmpty || (contractOf order).isEmpty then pure false
  else
    match order.side with
    | .bid => do
      let asks ← (db (.ordersOfCollection (collectionOf order) (contractOf order) .ask
        (some .active) 20) : BackendM (List Order))
      tryAsks env order chainId asks
    | .ask => do
      let bids ← (db (.ordersOfCollection (collectionOf order) (contractOf order) .bid
        (some .active) 20) : BackendM (List Order))
      tryBids env order chainId bids

/-- The owner of the token of a filled ask; the offerer when it cannot be read. -/
def selfFillOwner (env : Env) (order : Order) (chainId : ℕ) : BackendM JsStr :=
  match resolveFulfilledAskTokenId order with
  | some tid => (readOnChainRwaOwner env order.tokenContract tid chainId).settle fun
      | .ok owner => pure owner
      | .error _ => pure (lower (trim order.offerer))
  | none => pure (lower (trim order.offerer))

/-- An ask that Seaport filled while its offerer owns the token: the offerer bought it. -/
def selfFillParameters (env : Env) (order : Order) (chainId : ℕ) : BackendM OrderParameters :=
  if order.side ≠ .ask then pure order.parameters
  else do
    let filled ← isSeaportOrderFullyFilledOnChain order chainId
    if !filled then pure order.parameters
    else do
      let owner ← selfFillOwner env order chainId
      if owner = lower (trim order.offerer) then
        pure { order.parameters with
          tapeFillSide := some (js "buy")
          filledByBuyer := some (lower (trim order.offerer)) }
      else pure order.parameters

def reconcileOrder (env : Env) (order : Order) (chainId : ℕ) : BackendM Unit :=
  if order.status ≠ .active then pure ()
  else do
    let consumed ← isActiveOrderConsumedForReconcile env order chainId
    if !consumed then pure ()
    else do
      let paired ← tryFulfillMatchedPairForConsumedOrder env order chainId
      if paired then pure ()
      else do
        let parameters ← selfFillParameters env order chainId
        let _ ← saveOrder order { order with status := .fulfilled, parameters := parameters }
        pure ()

def reconcileOnChainFilledActiveOrders (env : Env) (chainId : ℕ) : List Order → BackendM Unit
  | [] => pure ()
  | order :: orders => do
    reconcileOrder env order chainId
    reconcileOnChainFilledActiveOrders env chainId orders

def findActiveAsksByOfferer (env : Env) (offererAddress : JsStr) (limit : Option ℕ) (chainId : ℕ) :
    BackendM Unit :=
  if (lower (trim offererAddress)).isEmpty then pure ()
  else do
    let rwa ← Prog.ret (env.getRwaAddress chainId)
    let rows ← (db (.activeAsksOfWallet (lower (trim offererAddress)) rwa
      (min (max 1 (limit.getD 500)) 500)) : BackendM (List Order))
    reconcileOnChainFilledActiveOrders env chainId rows

def findCollectionBidsByOfferer (env : Env) (offererAddress : JsStr) (limit : Option ℕ)
    (chainId : ℕ) : BackendM Unit :=
  if (lower (trim offererAddress)).isEmpty then pure ()
  else do
    let rwa ← Prog.ret (env.getRwaAddress chainId)
    let rows ← (db (.collectionBidsOfWallet (lower (trim offererAddress)) rwa
      (min (max 1 (limit.getD 100)) 500)) : BackendM (List Order))
    reconcileOnChainFilledActiveOrders env chainId rows

def expireOrders : BackendM Unit := do
  let now ← (rpc .now : BackendM ℕ)
  let due ← (db (.dueOrders now) : BackendM (List Order))
  if due.isEmpty then pure () else db (.expireOrders now)

def resolveAskCollectionKey (dto : CreateOrderDto) (chainId : ℕ) : BackendM (Option JsStr) := do
  let key ← (rpc (.ensureCollectionForListing dto.tokenId chainId) : BackendM (Option JsStr))
  if !blank key then pure (key.map fun k => lower (trim k))
  else do
    let prior ← (db (.priorAskKey dto.tokenContract
      [dto.tokenId, normalizeDecimalTokenId dto.tokenId]) : BackendM (Option JsStr))
    if blank prior then pure none else pure (prior.map fun k => lower (trim k))

def SettlementPolicy.text : SettlementPolicy → JsStr
  | .standard => js "standard"
  | .selfVaultHold => js "self_vault_hold"

def bidCollectionKey (dto : CreateOrderDto) (chainId : ℕ) : BackendM (Option JsStr) := do
  let key := lower (trim (dto.collectionKey.getD []))
  Prog.throwIf key.isEmpty (.badRequest (js "collectionKey is required for token bids"))
  let col ← (rpc (.findCollection key chainId) : BackendM (Option JsStr))
  let found ← Prog.orThrow (.notFound (js "Collection not found: " ++ key)) col
  pure (some found)

def stampPolicy (dto : CreateOrderDto) : BackendM OrderParameters :=
  match dto.side with
  | .bid => pure dto.parameters
  | .ask => do
    let policy ← (db (.getSettlementPolicy dto.tokenContract (normalizeDecimalTokenId dto.tokenId)) :
      BackendM (Option SettlementPolicy))
    pure { dto.parameters with settlementPolicy := policy.map SettlementPolicy.text }

def collectionKeyOf (dto : CreateOrderDto) (chainId : ℕ) : BackendM (Option JsStr) :=
  match dto.side with
  | .bid => bidCollectionKey dto chainId
  | .ask => resolveAskCollectionKey dto chainId

def materializeOrderFromDto (dto : CreateOrderDto) (chainId : ℕ) : BackendM Order := do
  let collectionKey ← collectionKeyOf dto chainId
  let params ← stampPolicy dto
  let hash ← (rpc (.getOrderHash chainId (seaportHashableParameters params)) :
    BackendM (Except JsStr JsStr))
  let orderHash ← Prog.ret (hash.mapError HttpError.internal)
  let id ← (rpc .nextOrderId : BackendM ℕ)
  pure {
    id := id
    orderHash := lower orderHash
    offerer := dto.offerer
    side := dto.side
    tokenContract := dto.tokenContract
    tokenId := normalizeDecimalTokenId dto.tokenId
    collectionKey := collectionKey
    considerationAmount := dto.considerationAmount
    parameters := params
    startTime := 1000 * params.startTime
    endTime := 1000 * params.endTime }

/-- `persistOrder(order, em)`, where `em` runs its statements on their own or in a transaction. -/
def persistOrderWith (em : (q : Stmt) → BackendM q.Res) (order : Order) : BackendM Order := do
  let saved ← (em (.insertOrder order) : BackendM (Except PgError Unit))
  match saved with
  | .ok () => pure order
  | .error .uniqueViolation =>
    throw (.conflict (js "An order with this hash already exists. Try again with a new salt."))

def persistOrder (order : Order) : BackendM Order := persistOrderWith tx order

/-- `em.findOne` of the order that is replaced, and its checks common to asks and bids. -/
def loadReplaced (oldOrderHash : JsStr) : BackendM Order := do
  let found ← (tx (.orderByHash oldOrderHash) : BackendM (Option Order))
  Prog.orThrow (.notFound (js "Order not found: " ++ oldOrderHash)) found

def cancelReplaced (old : Order) : BackendM Unit := do
  let at_ ← (rpc .now : BackendM ℕ)
  tx (.saveOrders [(old, { old with status := .cancelled, updatedAt := at_ })])

/-- The new listing keeps the collection of the old one when it has none of its own. -/
def insertReplacementAsk (old : Order) (dto : CreateOrderDto) (chainId : ℕ) : BackendM Order := do
  let order ← materializeOrderFromDto dto chainId
  let key := if blank order.collectionKey && !blank old.collectionKey then
    old.collectionKey.map fun k => lower (trim k) else order.collectionKey
  Prog.throwIf (blank key)
    (.badRequest (js "Could not resolve marketplace collection for this listing replacement."))
  let saved ← persistOrder { order with collectionKey := key }
  let _ ← (rpc (.getReviewStatus (key.getD [])) : BackendM (Option JsStr))
  pure saved

def assertAskSettlementPolicy (env : Env) (dto : CreateOrderDto) (chainId : ℕ) : BackendM Unit := do
  let policy ← (db (.getSettlementPolicy dto.tokenContract dto.tokenId) :
    BackendM (Option SettlementPolicy))
  match policy with
  | none => throw (.badRequest (js "Token #" ++ dto.tokenId ++
      js " vault custody is unknown — mint registry incomplete; refresh or contact support"))
  | some .standard => pure ()
  | some .selfVaultHold => Prog.ret (assertHoldListing env dto chainId)

def assertAskOffererOwnsToken (env : Env) (dto : CreateOrderDto) (chainId : ℕ) : BackendM Unit := do
  let owner ← readOnChainRwaOwner env dto.tokenContract dto.tokenId chainId
  Prog.throwIf (owner ≠ lower (trim dto.offerer)) (.badRequest (js "Cannot list token #" ++
    dto.tokenId ++ js ": connected wallet does not own this card on-chain (owner is " ++ owner ++
    js ")"))

/-- The cycle of a listed token is not being, and has not been, redeemed. -/
def assertTokenRedeemableForListing (tokenContract tokenId : JsStr) : BackendM Unit :=
  if !isDigits (trim tokenId) then pure ()
  else do
    let found ← (db (.findToken tokenContract tokenId) : BackendM (Option RwaToken))
    match found with
    | none => pure ()
    | some token => do
      Prog.throwIf token.burnedAt.isSome
        (.badRequest (js "Token #" ++ tokenId ++ js " has been redeemed and cannot be listed"))
      match token.vaultCycleId with
      | none => pure ()
      | some cycleId => do
        let cycle ← (db (.findCycle cycleId) : BackendM (Option VaultCycle))
        Prog.throwIf (cycle.any fun c => c.status = .redemptionRequested || c.status = .redeemed)
          (.badRequest (js "Token #" ++ tokenId ++
            js " has a pending or completed redemption and cannot be listed"))

/-- The spellings of a token id in the rows of the book. -/
def tokenIdVariants (tokenId : JsStr) : List JsStr :=
  [tokenId, normalizeDecimalTokenId tokenId].filter (fun s => !s.isEmpty)

def supersede (order : Order) (owner : JsStr) : Order :=
  { order with status := .cancelled }.mark
    [(js "_unownedAsk", js "true"), (js "_onChainOwner", owner),
      (js "_unownedAskReason", js "supersede_by_onchain_owner")]

def cancelActiveAskIfOffererUnowned (env : Env) (tokenContract tokenId : JsStr) (chainId : ℕ) :
    BackendM Unit := do
  let found ← (db (.activeAskOf tokenContract (tokenIdVariants tokenId)) : BackendM (Option Order))
  match found with
  | none => pure ()
  | some existing => do
    let tidNorm := normalizeDecimalTokenId tokenId
    let owner ← readOnChainRwaOwner env tokenContract (if tidNorm.isEmpty then tokenId else tidNorm)
      chainId
    if owner = lower existing.offerer then pure ()
    else do
      let saved ← saveOrder existing (supersede existing owner)
      recordOwner saved.tokenContract saved.tokenId owner

/-- The checks of a new listing; an ask of a wallet that has sold the token makes way for it. -/
def assertNewAsk (env : Env) (dto : CreateOrderDto) (chainId : ℕ) : BackendM Unit := do
  Prog.ret (assertValidAskListing env dto chainId)
  assertAskSettlementPolicy env dto chainId
  assertTokenRedeemableForListing dto.tokenContract dto.tokenId
  assertAskOffererOwnsToken env dto chainId
  cancelActiveAskIfOffererUnowned env dto.tokenContract dto.tokenId chainId
  let existing ← (db (.activeAskOf dto.tokenContract [dto.tokenId]) : BackendM (Option Order))
  match existing with
  | none => pure ()
  | some ask => throw (.badRequest (js "Token #" ++ dto.tokenId ++
      js " already has an active listing (orderHash: " ++ ask.orderHash ++ js ")"))

def assertActiveTokenBidLimit (env : Env) (offererAddress collectionKey : JsStr) (chainId : ℕ) :
    BackendM Unit :=
  let max := env.maxActiveCollectionBidsPerOfferer
  let addr := lower (trim offererAddress)
  if max = 0 || addr.isEmpty || collectionKey.isEmpty then pure ()
  else do
    let rwa ← Prog.ret (env.getRwaAddress chainId)
    let activeCount ← (db (.countActiveBids addr collectionKey rwa) : BackendM ℕ)
    Prog.throwIf (max ≤ activeCount) (.badRequest (if max = 1 then
      js "You already have an active bid on this collection. Cancel or edit it to place a new one."
      else js "Maximum " ++ ofNat max ++
        js " bids per collection. Cancel an existing bid to place a new one."))

def firstConsiderationTypeOf (dto : CreateOrderDto) : Option ℕ :=
  dto.parameters.consideration.head?.map SeaportItem.itemType

/-- The asks of the token of the bid; a collection bid has none. -/
def tokenAsksOf (dto : CreateOrderDto) : BackendM (List Order) :=
  if firstConsiderationTypeOf dto = some 4 || (trim dto.tokenId).isEmpty then pure []
  else db (.activeAsksOfToken (trim dto.tokenId))

def assertTokenBidDoesNotCrossAsk (dto : CreateOrderDto) (bidCollectionKey : JsStr) :
    BackendM Unit := do
  let bidMicros ← Prog.orThrow (.badRequest (js "Bid offer amount is invalid"))
    (toBigInt ((dto.parameters.offer.head?.map SeaportItem.startAmount).getD []))
  if bidMicros ≤ 0 then pure ()
  else do
    let collectionAsks ← (db (.activeAsksOfCollection bidCollectionKey) : BackendM (List Order))
    let tokenAsks ← tokenAsksOf dto
    let now ← (rpc .now : BackendM ℕ)
    Prog.throwIf (pickCrossingAskForBid (collectionAsks ++ tokenAsks) bidMicros now).isSome
      (.conflict bidCrossesAskMessage)

def keyOfBid (dto : CreateOrderDto) : JsStr := lower (trim (dto.collectionKey.getD []))

/-- The checks of a new bid that passes `check`. -/
def assertPlaceableBid (env : Env) (dto : CreateOrderDto) (chainId : ℕ)
    (check : ℕ → Except HttpError Unit) (missingKey : JsStr) : BackendM Unit := do
  let now ← (rpc .now : BackendM ℕ)
  Prog.ret (check now)
  Prog.throwIf (keyOfBid dto).isEmpty (.badRequest missingKey)
  assertActiveTokenBidLimit env dto.offerer (keyOfBid dto) chainId
  assertTokenBidDoesNotCrossAsk dto (keyOfBid dto)

def assertNewBid (env : Env) (dto : CreateOrderDto) (chainId : ℕ) : BackendM Unit :=
  if firstConsiderationTypeOf dto = some 2 then
    assertPlaceableBid env dto chainId (assertValidTokenBid env dto chainId)
      (js "collectionKey is required for token bids")
  else if firstConsiderationTypeOf dto = some 4 then
    assertPlaceableBid env dto chainId (assertValidCriteriaBid env dto chainId)
      (js "collectionKey is required for collection bids")
  else throw (.badRequest (js "Token bids require consideration itemType 2 (ERC721)"))

def assertRwaOfChain (env : Env) (dto : CreateOrderDto) (chainId : ℕ) : BackendM Unit := do
  let expected ← Prog.ret (env.getRwaAddress chainId)
  Prog.throwIf (lower dto.tokenContract ≠ expected)
    (.badRequest (js "tokenContract must match RWA for chain " ++ ofNat chainId))

def assertNewOrder (env : Env) (dto : CreateOrderDto) (chainId : ℕ) : BackendM Unit :=
  match dto.side with
  | .bid => assertNewBid env dto chainId
  | .ask => assertNewAsk env dto chainId

def createOrder (env : Env) (dto : CreateOrderDto) (chainId : ℕ) : BackendM Order := do
  assertRwaOfChain env dto chainId
  assertNewOrder env dto chainId
  let order ← materializeOrderFromDto dto chainId
  Prog.throwIf (dto.side = .ask && blank order.collectionKey) (.badRequest
    (js "Could not create a marketplace collection for this token. Check that graded metadata is on IPFS and try again."))
  let saved ← persistOrderWith db order
  if dto.side = .ask then do
    let _ ← (rpc (.getReviewStatus (saved.collectionKey.getD [])) : BackendM (Option JsStr))
    orThrowAnswer (rpc (.listingDisplay saved))
    pure saved
  else do
    orThrowAnswer (rpc (.listingDisplay saved))
    pure saved

def replaceSellerListing (env : Env) (oldOrderHash callerAddress : JsStr) (dto : CreateOrderDto)
    (chainId : ℕ) : BackendM Order := do
  Prog.throwIf (dto.side = .bid) (.badRequest (js "replaceSellerListing only accepts ask listings"))
  assertRwaOfChain env dto chainId
  Prog.ret (assertValidAskListing env dto chainId)
  assertAskSettlementPolicy env dto chainId
  assertAskOffererOwnsToken env dto chainId
  transaction do
    let old ← loadReplaced oldOrderHash
    Prog.throwIf (old.side ≠ .ask) (.badRequest (js "Only ask listings can be replaced"))
    assertActive old
    assertOfferer old callerAddress (js "Only the offerer can replace this listing")
    Prog.throwIf (normalizeDecimalTokenId old.tokenId ≠ normalizeDecimalTokenId dto.tokenId)
      (.badRequest (js "New order tokenId must match the listing being replaced"))
    Prog.throwIf (lower old.tokenContract ≠ lower dto.tokenContract)
      (.badRequest (js "tokenContract must match"))
    cancelReplaced old
    insertReplacementAsk old dto chainId

/-- The old bid is of the kind of the new one. -/
def replacedBidError (old : Order) (dto : CreateOrderDto) : Option HttpError :=
  if firstConsiderationTypeOf dto = some 2 then
    if isTokenBidOrder old then none
    else some (.badRequest (js "Only token bids can be replaced"))
  else if isCriteriaCollectionBidOrder old then none
  else some (.badRequest
    (js "Only collection criteria bids can be replaced with a criteria bid"))

def assertReplacementBid (env : Env) (dto : CreateOrderDto) (chainId : ℕ) : BackendM Unit := do
  let now ← (rpc .now : BackendM ℕ)
  if firstConsiderationTypeOf dto = some 2 then Prog.ret (assertValidTokenBid env dto chainId now)
  else if firstConsiderationTypeOf dto = some 4 then
    Prog.ret (assertValidCriteriaBid env dto chainId now)
  else throw (.badRequest
    (js "Only token bids (itemType 2) or collection criteria bids (itemType 4) can be replaced"))
  Prog.throwIf (keyOfBid dto).isEmpty (.badRequest (js "collectionKey is required for bids"))
  assertTokenBidDoesNotCrossAsk dto (keyOfBid dto)

def replaceBuyerBid (env : Env) (oldOrderHash callerAddress : JsStr) (dto : CreateOrderDto)
    (chainId : ℕ) : BackendM Order := do
  Prog.throwIf (dto.side ≠ .bid) (.badRequest (js "replaceBuyerBid only accepts bids"))
  assertRwaOfChain env dto chainId
  assertReplacementBid env dto chainId
  transaction do
    let old ← loadReplaced oldOrderHash
    match replacedBidError old dto with
    | some e => throw e
    | none => do
      assertActive old
      assertOfferer old callerAddress (js "Only the offerer can replace this bid")
      Prog.throwIf (firstConsiderationTypeOf dto = some 2 &&
          normalizeDecimalTokenId old.tokenId ≠ normalizeDecimalTokenId dto.tokenId)
        (.badRequest (js "New bid tokenId must match the bid being replaced"))
      Prog.throwIf (collectionOf old ≠ keyOfBid dto)
        (.badRequest (js "New bid collectionKey must match the bid being replaced"))
      cancelReplaced old
      let order ← materializeOrderFromDto dto chainId
      persistOrder order

end Orders
