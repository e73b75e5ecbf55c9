import Tokenable.Orders.Service

/-!
# Which functions of the order service save orders

The checks before a fulfilment and the records after it are `Quiet`: they ask, read, and write to
other tables or with guarded updates, but save no order row. The operations themselves save an
order only after they have loaded it as active.
-/

namespace Orders
open Js Platform Async Db Vault Settlement Backend

/-- A question, or a statement outside transactions that saves no order, token or cycle. -/
def Quiet : BackendCmd → Prop
  | .inl (.auto (.saveOrders _)) => False
  | .inl (.auto (.insertOrder _)) => False
  | .inl (.auto (.saveToken _)) => False
  | .inl (.auto (.saveCycle _)) => False
  | .inl (.auto _) => True
  | .inl _ => False
  | .inr _ => True

variable {env : Env} {α : Type}

theorem quiet_rpc (q : Rpc) : (rpc q).Issues Quiet := ⟨trivial, fun _ => trivial⟩

theorem quiet_db (q : Stmt) (h : Quiet (.inl (.auto q))) : (db q).Issues Quiet :=
  ⟨h, fun _ => trivial⟩

theorem quiet_orThrowAnswer {p : BackendM (Except HttpError α)} (hp : p.Issues Quiet) :
    (orThrowAnswer p).Issues Quiet := Prog.issues_bind hp fun r => Prog.issues_ret r

/-- A question to the world outside. -/
def Asks : BackendCmd → Prop
  | .inl _ => False
  | .inr _ => True

theorem quiet_of_asks (c : BackendCmd) (hc : Asks c) : Quiet c := by
  rcases c with q | q
  · exact hc.elim
  · trivial

section Questions

theorem asks_rpc (q : Rpc) : (rpc q).Issues Asks := ⟨trivial, fun _ => trivial⟩

theorem readSeaportFilled_asks (order : Order) (chainId : ℕ) :
    (readSeaportFilled order chainId).Issues Asks := by
  refine Prog.issues_bind (asks_rpc _) fun hash => ?_
  cases hash with
  | error message => exact Prog.issues_ret _
  | ok hash => exact Prog.issues_bind (asks_rpc _) fun status => Prog.issues_ret _

theorem isSeaportOrderFullyFilledOnChain_asks (order : Order) (chainId : ℕ) :
    (isSeaportOrderFullyFilledOnChain order chainId).Issues Asks :=
  Prog.issues_bind (readSeaportFilled_asks order chainId) fun _ => Prog.issues_ret _

theorem assertSeaportOrderFilledOnChain_asks (order : Order) (chainId : ℕ) :
    (assertSeaportOrderFilledOnChain order chainId).Issues Asks := by
  refine Prog.issues_bind (readSeaportFilled_asks order chainId) fun filled => ?_
  rcases filled with message | b
  · exact Prog.issues_ret _
  · cases b <;> exact Prog.issues_ret _

theorem readOnChainRwaOwner_asks (tokenContract tokenId : JsStr) (chainId : ℕ) :
    (readOnChainRwaOwner env tokenContract tokenId chainId).Issues Asks := by
  refine Prog.issues_bind (Prog.issues_orThrow _ _) fun tid => ?_
  refine Prog.issues_bind (Prog.issues_ret _) fun expected => ?_
  refine Prog.issues_bind (Prog.issues_throwIf _ _) fun _ => ?_
  exact Prog.issues_bind (asks_rpc _) fun answer => Prog.issues_ret _

theorem askOwnerIs_asks (ask : Order) (chainId : ℕ) (test : JsStr → Bool) :
    (askOwnerIs env ask chainId test).Issues Asks := by
  unfold askOwnerIs
  dsimp only
  split_ifs
  · exact Prog.issues_ret _
  · refine Prog.issues_settle (readOnChainRwaOwner_asks _ _ _) fun r => ?_
    cases r <;> exact Prog.issues_ret _

theorem orElse_issues {P : BackendCmd → Prop} {p q : BackendM Bool} (hp : p.Issues P)
    (hq : q.Issues P) : (orElse p q).Issues P := by
  refine Prog.issues_bind hp fun b => ?_
  cases b with
  | true => exact Prog.issues_ret _
  | false => exact hq

theorem isAskListingConsumedOnChain_asks (ask : Order) (chainId : ℕ) :
    (isAskListingConsumedOnChain env ask chainId).Issues Asks :=
  orElse_issues (isSeaportOrderFullyFilledOnChain_asks ask chainId) (askOwnerIs_asks _ _ _)

theorem isBidSettledForAsk_asks (bid ask : Order) (chainId : ℕ) :
    (isBidSettledForAsk env bid ask chainId).Issues Asks :=
  orElse_issues (isSeaportOrderFullyFilledOnChain_asks bid chainId) (askOwnerIs_asks _ _ _)

theorem onBadRequest_issues {P : BackendCmd → Prop} {p : BackendM α} {h : HttpError → BackendM α}
    (hp : p.Issues P) (hh : ∀ e, (h e).Issues P) : (onBadRequest p h).Issues P := by
  refine Prog.issues_settle hp fun r => ?_
  cases r with
  | ok a => exact Prog.issues_ret _
  | error e =>
    cases e with
    | badRequest message => exact hh _
    | _ => exact Prog.issues_ret _

theorem assertBidSettledForMatchedPair_asks (bid ask : Order) (chainId : ℕ) :
    (assertBidSettledForMatchedPair env bid ask chainId).Issues Asks := by
  refine onBadRequest_issues (assertSeaportOrderFilledOnChain_asks bid chainId) fun _ => ?_
  exact Prog.issues_bind (isBidSettledForAsk_asks bid ask chainId) fun _ =>
    Prog.issues_throwIf _ _

theorem assertOrderSettledForFulfill_asks (order : Order) (buyerAddress : Option JsStr)
    (chainId : ℕ) : (assertOrderSettledForFulfill env order buyerAddress chainId).Issues Asks := by
  refine onBadRequest_issues (assertSeaportOrderFilledOnChain_asks order chainId) fun e => ?_
  refine Prog.issues_bind (Prog.issues_throwIf _ _) fun _ => ?_
  refine Prog.issues_bind (readOnChainRwaOwner_asks _ _ _) fun owner => ?_
  exact Prog.issues_throwIf _ _

end Questions

section Checks

theorem quiet_asks {p : BackendM α} (hp : p.Issues Asks) : p.Issues Quiet :=
  Prog.issues_mono quiet_of_asks hp

theorem isSeaportOrderFullyFilledOnChain_quiet (order : Order) (chainId : ℕ) :
    (isSeaportOrderFullyFilledOnChain order chainId).Issues Quiet :=
  quiet_asks (isSeaportOrderFullyFilledOnChain_asks order chainId)

theorem readOnChainRwaOwner_quiet (tokenContract tokenId : JsStr) (chainId : ℕ) :
    (readOnChainRwaOwner env tokenContract tokenId chainId).Issues Quiet :=
  quiet_asks (readOnChainRwaOwner_asks _ _ _)

theorem isAskListingConsumedOnChain_quiet (ask : Order) (chainId : ℕ) :
    (isAskListingConsumedOnChain env ask chainId).Issues Quiet :=
  quiet_asks (isAskListingConsumedOnChain_asks ask chainId)

theorem isBidSettledForAsk_quiet (bid ask : Order) (chainId : ℕ) :
    (isBidSettledForAsk env bid ask chainId).Issues Quiet :=
  quiet_asks (isBidSettledForAsk_asks bid ask chainId)

theorem anySettledAsk_quiet (bid : Order) (chainId : ℕ) (asks : List Order) :
    (anySettledAsk env bid chainId asks).Issues Quiet := by
  induction asks with
  | nil => exact Prog.issues_ret _
  | cons ask asks ih =>
    refine Prog.issues_bind (isAskListingConsumedOnChain_quiet ask chainId) fun consumed => ?_
    cases consumed with
    | true => exact orElse_issues (isBidSettledForAsk_quiet bid ask chainId) ih
    | false => exact ih

theorem criteriaBidShowsInboundOwnership_quiet (bid : Order) (chainId : ℕ) :
    (criteriaBidShowsInboundOwnership env bid chainId).Issues Quiet := by
  unfold criteriaBidShowsInboundOwnership
  split_ifs
  · exact Prog.issues_ret _
  · exact Prog.issues_bind (quiet_db _ trivial) fun asks => anySettledAsk_quiet bid chainId asks

theorem isActiveOrderConsumedForReconcile_quiet (order : Order) (chainId : ℕ) :
    (isActiveOrderConsumedForReconcile env order chainId).Issues Quiet := by
  refine orElse_issues (isSeaportOrderFullyFilledOnChain_quiet order chainId) ?_
  cases order.side with
  | ask => exact isAskListingConsumedOnChain_quiet order chainId
  | bid => exact criteriaBidShowsInboundOwnership_quiet order chainId

theorem assertBidSettledForMatchedPair_quiet (bid ask : Order) (chainId : ℕ) :
    (assertBidSettledForMatchedPair env bid ask chainId).Issues Quiet :=
  quiet_asks (assertBidSettledForMatchedPair_asks bid ask chainId)

theorem assertOrderSettledForFulfill_quiet (order : Order) (buyerAddress : Option JsStr)
    (chainId : ℕ) : (assertOrderSettledForFulfill env order buyerAddress chainId).Issues Quiet :=
  quiet_asks (assertOrderSettledForFulfill_asks order buyerAddress chainId)

theorem findByHash_quiet (orderHash : JsStr) : (findByHash orderHash).Issues Quiet := by
  refine Prog.issues_bind (quiet_db _ trivial) fun found => ?_
  refine Prog.issues_bind (Prog.issues_orThrow _ found) fun order => ?_
  exact Prog.issues_bind (quiet_orThrowAnswer (quiet_rpc _)) fun _ => Prog.issues_ret _

theorem assertNotHoldBidOnly_quiet (order : Order) : (assertNotHoldBidOnly order).Issues Quiet := by
  unfold assertNotHoldBidOnly
  split_ifs
  · exact Prog.issues_bind (quiet_db _ trivial) fun policy => Prog.issues_throwIf _ _
  · exact Prog.issues_ret _

theorem selfFillOwner_quiet (order : Order) (chainId : ℕ) :
    (selfFillOwner env order chainId).Issues Quiet := by
  unfold selfFillOwner
  cases resolveFulfilledAskTokenId order with
  | none => exact Prog.issues_ret _
  | some tid =>
    refine Prog.issues_settle (readOnChainRwaOwner_quiet _ _ _) fun r => ?_
    cases r <;> exact Prog.issues_ret _

theorem selfFillParameters_quiet (order : Order) (chainId : ℕ) :
    (selfFillParameters env order chainId).Issues Quiet := by
  unfold selfFillParameters
  split_ifs
  · exact Prog.issues_ret _
  · refine Prog.issues_bind (isSeaportOrderFullyFilledOnChain_quiet order chainId) fun filled => ?_
    cases filled with
    | false => exact Prog.issues_ret _
    | true =>
      refine Prog.issues_bind (selfFillOwner_quiet order chainId) fun owner => ?_
      dsimp only
      split_ifs <;> exact Prog.issues_ret _

theorem assertRwaOfChain_quiet (dto : CreateOrderDto) (chainId : ℕ) :
    (assertRwaOfChain env dto chainId).Issues Quiet :=
  Prog.issues_bind (Prog.issues_ret _) fun _ => Prog.issues_throwIf _ _

theorem assertAskSettlementPolicy_quiet (dto : CreateOrderDto) (chainId : ℕ) :
    (assertAskSettlementPolicy env dto chainId).Issues Quiet := by
  refine Prog.issues_bind (quiet_db _ trivial) fun policy => ?_
  rcases policy with _ | _ | _ <;> exact Prog.issues_ret _

theorem assertAskOffererOwnsToken_quiet (dto : CreateOrderDto) (chainId : ℕ) :
    (assertAskOffererOwnsToken env dto chainId).Issues Quiet :=
  Prog.issues_bind (readOnChainRwaOwner_quiet _ _ _) fun _ => Prog.issues_throwIf _ _

theorem tokenAsksOf_quiet (dto : CreateOrderDto) : (tokenAsksOf dto).Issues Quiet := by
  unfold tokenAsksOf
  split_ifs
  · exact Prog.issues_ret _
  · exact quiet_db _ trivial

theorem assertTokenBidDoesNotCrossAsk_quiet (dto : CreateOrderDto) (key : JsStr) :
    (assertTokenBidDoesNotCrossAsk dto key).Issues Quiet := by
  refine Prog.issues_bind (Prog.issues_orThrow _ _) fun bidMicros => ?_
  split_ifs
  · exact Prog.issues_ret _
  · refine Prog.issues_bind (quiet_db _ trivial) fun collectionAsks => ?_
    refine Prog.issues_bind (tokenAsksOf_quiet dto) fun tokenAsks => ?_
    exact Prog.issues_bind (quiet_rpc _) fun now => Prog.issues_throwIf _ _

theorem assertReplacementBid_quiet (dto : CreateOrderDto) (chainId : ℕ) :
    (assertReplacementBid env dto chainId).Issues Quiet := by
  refine Prog.issues_bind (quiet_rpc _) fun now => ?_
  have hrest : (Prog.throwIf (keyOfBid dto).isEmpty
      (.badRequest (js "collectionKey is required for bids")) >>= fun _ =>
        assertTokenBidDoesNotCrossAsk dto (keyOfBid dto)).Issues Quiet :=
    Prog.issues_bind (Prog.issues_throwIf _ _) fun _ => assertTokenBidDoesNotCrossAsk_quiet _ _
  split_ifs
  · exact Prog.issues_bind (Prog.issues_ret _) fun _ => hrest
  · exact Prog.issues_bind (Prog.issues_ret _) fun _ => hrest
  · exact Prog.issues_bind (Prog.issues_ret _) fun _ => hrest

theorem assertActiveTokenBidLimit_quiet (offererAddress key : JsStr) (chainId : ℕ) :
    (assertActiveTokenBidLimit env offererAddress key chainId).Issues Quiet := by
  unfold assertActiveTokenBidLimit
  dsimp only
  split
  · exact Prog.issues_ret _
  · refine Prog.issues_bind (Prog.issues_ret _) fun rwa => ?_
    exact Prog.issues_bind (quiet_db _ trivial) fun count => Prog.issues_throwIf _ _

theorem assertPlaceableBid_quiet (dto : CreateOrderDto) (chainId : ℕ)
    (check : ℕ → Except HttpError Unit) (missingKey : JsStr) :
    (assertPlaceableBid env dto chainId check missingKey).Issues Quiet := by
  refine Prog.issues_bind (quiet_rpc _) fun now => ?_
  refine Prog.issues_bind (Prog.issues_ret _) fun _ => ?_
  refine Prog.issues_bind (Prog.issues_throwIf _ _) fun _ => ?_
  refine Prog.issues_bind (assertActiveTokenBidLimit_quiet _ _ _) fun _ => ?_
  exact assertTokenBidDoesNotCrossAsk_quiet _ _

theorem assertNewBid_quiet (dto : CreateOrderDto) (chainId : ℕ) :
    (assertNewBid env dto chainId).Issues Quiet := by
  unfold assertNewBid
  split_ifs
  · exact assertPlaceableBid_quiet _ _ _ _
  · exact assertPlaceableBid_quiet _ _ _ _
  · exact Prog.issues_ret _

theorem assertTokenRedeemableForListing_quiet (tokenContract tokenId : JsStr) :
    (assertTokenRedeemableForListing tokenContract tokenId).Issues Quiet := by
  unfold assertTokenRedeemableForListing
  split_ifs
  · exact Prog.issues_ret _
  · refine Prog.issues_bind (quiet_db _ trivial) fun found => ?_
    cases found with
    | none => exact Prog.issues_ret _
    | some token =>
      refine Prog.issues_bind (Prog.issues_throwIf _ _) fun _ => ?_
      cases token.vaultCycleId with
      | none => exact Prog.issues_ret _
      | some cycleId =>
        exact Prog.issues_bind (quiet_db _ trivial) fun cycle => Prog.issues_throwIf _ _

theorem materializeOrderFromDto_quiet (dto : CreateOrderDto) (chainId : ℕ) :
    (materializeOrderFromDto dto chainId).Issues Quiet := by
  have hkey : (collectionKeyOf dto chainId).Issues Quiet := by
    unfold collectionKeyOf
    cases dto.side with
    | bid =>
      refine Prog.issues_bind (Prog.issues_throwIf _ _) fun _ => ?_
      refine Prog.issues_bind (quiet_rpc _) fun col => ?_
      exact Prog.issues_bind (Prog.issues_orThrow _ col) fun _ => Prog.issues_ret _
    | ask =>
      refine Prog.issues_bind (quiet_rpc _) fun key => ?_
      cases blank key with
      | false => exact Prog.issues_ret _
      | true =>
        refine Prog.issues_bind (quiet_db _ trivial) fun prior => ?_
        cases blank prior <;> exact Prog.issues_ret _
  have hpolicy : (stampPolicy dto).Issues Quiet := by
    unfold stampPolicy
    cases dto.side with
    | bid => exact Prog.issues_ret _
    | ask => exact Prog.issues_bind (quiet_db _ trivial) fun policy => Prog.issues_ret _
  refine Prog.issues_bind hkey fun key => ?_
  refine Prog.issues_bind hpolicy fun params => ?_
  refine Prog.issues_bind (quiet_rpc _) fun hash => ?_
  refine Prog.issues_bind (Prog.issues_ret _) fun orderHash => ?_
  exact Prog.issues_bind (quiet_rpc _) fun id => Prog.issues_ret _

end Checks

section Records

theorem recordOwner_quiet (tokenContract tokenId owner : JsStr) :
    (recordOwner tokenContract tokenId owner).Issues Quiet := by
  unfold recordOwner
  split_ifs
  · exact Prog.issues_ret _
  · exact quiet_db _ trivial

theorem seedMarketplaceBuyFromAskFill_quiet (buyerWallet : JsStr) (askOrder : Order)
    (acquiredAt : ℕ) (chainId : Option ℕ) :
    (seedMarketplaceBuyFromAskFill env buyerWallet askOrder acquiredAt chainId).Issues Quiet := by
  have hseed : ∀ tid costUsd,
      (seedMarketplaceBuyCostBasis env buyerWallet tid costUsd acquiredAt chainId).Issues Quiet := by
    intro tid costUsd
    unfold seedMarketplaceBuyCostBasis
    split_ifs
    · exact Prog.issues_ret _
    · cases env.getRwaAddress (chainId.getD env.getDefaultChainId) with
      | ok contract => exact quiet_db _ trivial
      | error e => exact Prog.issues_ret _
  unfold seedMarketplaceBuyFromAskFill
  cases resolveFulfilledAskTokenId askOrder with
  | none => exact Prog.issues_ret _
  | some tid =>
    dsimp only
    split_ifs
    · exact hseed _ _
    · exact Prog.issues_ret _

theorem recordBuyerOwnershipAfterSettle_quiet (tokenContract : JsStr) (tokenId : Option JsStr)
    (buyerWallet : JsStr) (ask : Option Order) :
    (recordBuyerOwnershipAfterSettle env tokenContract tokenId buyerWallet ask).Issues Quiet := by
  unfold recordBuyerOwnershipAfterSettle
  dsimp only
  split_ifs
  · exact Prog.issues_ret _
  · refine Prog.issues_bind (recordOwner_quiet _ _ _) fun _ => ?_
    cases restoredPolicy env ask with
    | some policy => exact quiet_db _ trivial
    | none => exact Prog.issues_ret _

theorem cancelActiveAsks_quiet (contract tokenId : JsStr) (except : Option ℕ) :
    (cancelActiveAsks contract tokenId except).Issues Quiet :=
  Prog.issues_bind (quiet_rpc _) fun _ => quiet_db _ trivial

theorem recordAskFill_quiet (ask : Order) (buyerWallet costMicros : JsStr) (tokenId : Option JsStr)
    (chainId : Option ℕ) :
    (recordAskFill env ask buyerWallet costMicros tokenId chainId).Issues Quiet := by
  refine Prog.issues_bind (quiet_db _ trivial) fun _ => ?_
  refine Prog.issues_bind (seedMarketplaceBuyFromAskFill_quiet _ _ _ _) fun _ => ?_
  exact recordBuyerOwnershipAfterSettle_quiet _ _ _ _

theorem clearAsks_quiet (contract : JsStr) (tokenId : Option JsStr) (except : Option ℕ) :
    (clearAsks contract tokenId except).Issues Quiet := by
  cases tokenId with
  | some tid => exact cancelActiveAsks_quiet _ _ _
  | none => exact Prog.issues_ret _

theorem afterFulfilled_quiet (saved : Order) (buyerAddress : Option JsStr) (chainId : Option ℕ) :
    (afterFulfilled env saved buyerAddress chainId).Issues Quiet := by
  unfold afterFulfilled
  split_ifs
  · refine Prog.issues_bind (clearAsks_quiet _ _ _) fun _ => ?_
    unfold recordAskBuyer
    split_ifs
    · exact Prog.issues_ret _
    · exact recordAskFill_quiet _ _ _ _ _
  · refine Prog.issues_bind (clearAsks_quiet _ _ _) fun _ => ?_
    unfold recordBidBuyer
    split_ifs
    · exact Prog.issues_ret _
    · refine Prog.issues_bind (seedMarketplaceBuyFromAskFill_quiet _ _ _ _) fun _ => ?_
      exact recordBuyerOwnershipAfterSettle_quiet _ _ _ _
  · exact Prog.issues_ret _

end Records

section Saves

def LoadedActive (rows : List (Order × Order)) : Prop := ∀ p ∈ rows, p.1.status = .active

/-- A save of rows that were loaded active, or a command that saves no order row, outside
transactions. -/
def SavesLoaded : BackendCmd → Prop
  | .inl (.auto (.saveOrders rows)) => LoadedActive rows
  | .inl (.auto (.insertOrder _)) => False
  | .inl (.auto _) => True
  | .inl _ => False
  | .inr _ => True

theorem savesLoaded_of_quiet : ∀ c, Quiet c → SavesLoaded c := by
  intro c hc
  rcases c with (q | _ | _ | _) | q
  · cases q <;> trivial
  all_goals exact hc

theorem savesLoaded_mono {p : BackendM α} (hp : p.Issues Quiet) : p.Issues SavesLoaded :=
  Prog.issues_mono savesLoaded_of_quiet hp

theorem savesLoaded_rpc (q : Rpc) : (rpc q).Issues SavesLoaded := ⟨trivial, fun _ => trivial⟩

theorem saveOrder_savesLoaded {loaded : Order} (row : Order) (h : loaded.status = .active) :
    (saveOrder loaded row).Issues SavesLoaded := by
  refine Prog.issues_bind (savesLoaded_rpc _) fun at_ => ?_
  exact Prog.issues_bind ⟨by simpa [SavesLoaded, LoadedActive] using h, fun _ => trivial⟩ fun _ =>
    Prog.issues_ret _

/-- What follows the check that the order is active. -/
theorem assertActive_issues {P : BackendCmd → Prop} {order : Order} {f : Unit → BackendM α}
    (h : order.status = .active → (f ()).Issues P) : (assertActive order >>= f).Issues P :=
  Prog.issues_guard fun hactive => h (by simpa using hactive)

theorem cancelOrder_savesLoaded (orderHash callerAddress : JsStr) :
    (cancelOrder orderHash callerAddress).Issues SavesLoaded := by
  refine Prog.issues_bind (savesLoaded_mono (findByHash_quiet _)) fun order => ?_
  refine assertActive_issues fun hactive => ?_
  refine Prog.issues_bind (Prog.issues_throwIf _ _) fun _ => ?_
  exact saveOrder_savesLoaded _ hactive

theorem invalidateDeadBid_savesLoaded (orderHash callerAddress : JsStr) (chainId : ℕ) :
    (invalidateDeadBid orderHash callerAddress chainId).Issues SavesLoaded := by
  refine Prog.issues_bind (savesLoaded_mono (findByHash_quiet _)) fun order => ?_
  by_cases hactive : order.status = .active
  · simp only [hactive, ne_eq, not_true_eq_false, if_false]
    refine Prog.issues_bind (Prog.issues_throwIf _ _) fun _ => ?_
    refine Prog.issues_bind (savesLoaded_mono (quiet_orThrowAnswer (quiet_rpc _))) fun funding => ?_
    refine Prog.issues_bind (Prog.issues_orThrow _ _) fun reason => ?_
    exact saveOrder_savesLoaded _ hactive
  · simp only [hactive, ne_eq, not_false_eq_true, if_true]
    exact Prog.issues_ret _

theorem invalidateUnownedAsk_savesLoaded (orderHash callerAddress : JsStr) (chainId : ℕ) :
    (invalidateUnownedAsk env orderHash callerAddress chainId).Issues SavesLoaded := by
  refine Prog.issues_bind (savesLoaded_mono (findByHash_quiet _)) fun order => ?_
  by_cases hactive : order.status = .active
  · simp only [hactive, ne_eq, not_true_eq_false, if_false]
    refine Prog.issues_bind (Prog.issues_throwIf _ _) fun _ => ?_
    refine Prog.issues_bind (savesLoaded_mono (readOnChainRwaOwner_quiet _ _ _)) fun owner => ?_
    refine Prog.issues_bind (Prog.issues_throwIf _ _) fun _ => ?_
    refine Prog.issues_bind (saveOrder_savesLoaded _ hactive) fun saved => ?_
    exact Prog.issues_bind (savesLoaded_mono (recordOwner_quiet _ _ _)) fun _ => Prog.issues_ret _
  · simp only [hactive, ne_eq, not_false_eq_true, if_true]
    exact Prog.issues_ret _

theorem fulfillOrder_savesLoaded (orderHash : JsStr) (buyerAddress : Option JsStr)
    (chainId : Option ℕ) (fillTxHash : Option JsStr) :
    (fulfillOrder env orderHash buyerAddress chainId fillTxHash).Issues SavesLoaded := by
  refine Prog.issues_bind (savesLoaded_mono (findByHash_quiet _)) fun order => ?_
  refine assertActive_issues fun hactive => ?_
  refine Prog.issues_bind (savesLoaded_mono (assertOrderSettledForFulfill_quiet _ _ _)) fun _ => ?_
  refine Prog.issues_bind (savesLoaded_mono (assertNotHoldBidOnly_quiet _)) fun _ => ?_
  refine Prog.issues_bind (saveOrder_savesLoaded _ hactive) fun saved => ?_
  exact Prog.issues_bind (savesLoaded_mono (afterFulfilled_quiet _ _ _)) fun _ => Prog.issues_ret _

theorem settleMatchedPair_savesLoaded {ask bid : Order} (chainId : Option ℕ)
    (hask : ask.status = .active) (hbid : bid.status = .active) :
    (settleMatchedPair env ask bid chainId).Issues SavesLoaded := by
  refine Prog.issues_bind (savesLoaded_rpc _) fun at_ => ?_
  refine Prog.issues_bind ⟨by simp [SavesLoaded, LoadedActive, hask, hbid], fun _ => trivial⟩
    fun _ => ?_
  refine Prog.issues_bind (savesLoaded_mono (cancelActiveAsks_quiet _ _ _)) fun _ => ?_
  exact Prog.issues_bind (savesLoaded_mono (recordAskFill_quiet _ _ _ _ _)) fun _ =>
    Prog.issues_ret _

theorem fulfillMatchedPair_savesLoaded (askHash bidHash : JsStr) (chainId : Option ℕ) :
    (fulfillMatchedPair env askHash bidHash chainId).Issues SavesLoaded := by
  refine Prog.issues_bind (savesLoaded_mono (findByHash_quiet _)) fun ask => ?_
  refine Prog.issues_bind (savesLoaded_mono (findByHash_quiet _)) fun bid => ?_
  refine Prog.issues_bind (Prog.issues_throwIf _ _) fun _ => ?_
  refine Prog.issues_guard fun hactive => ?_
  obtain ⟨hask, hbid⟩ : ask.status = .active ∧ bid.status = .active := by simpa using hactive
  refine Prog.issues_bind (savesLoaded_mono (assertOrderSettledForFulfill_quiet _ _ _)) fun _ => ?_
  refine Prog.issues_bind (savesLoaded_mono (assertBidSettledForMatchedPair_quiet _ _ _)) fun _ => ?_
  cases matchedPairError ask bid with
  | some e => exact Prog.issues_ret _
  | none => exact settleMatchedPair_savesLoaded chainId hask hbid

theorem tryPair_savesLoaded (askHash bidHash : JsStr) (chainId : ℕ) :
    (tryPair env askHash bidHash chainId).Issues SavesLoaded := by
  refine Prog.issues_settle (fulfillMatchedPair_savesLoaded _ _ _) fun r => ?_
  cases r <;> exact Prog.issues_ret _

theorem tryAsks_savesLoaded (bid : Order) (chainId : ℕ) (asks : List Order) :
    (tryAsks env bid chainId asks).Issues SavesLoaded := by
  induction asks with
  | nil => exact Prog.issues_ret _
  | cons ask asks ih =>
    refine Prog.issues_bind (savesLoaded_mono (isAskListingConsumedOnChain_quiet ask chainId))
      fun consumed => ?_
    cases consumed with
    | false => exact ih
    | true =>
      refine Prog.issues_bind (savesLoaded_mono (isBidSettledForAsk_quiet bid ask chainId))
        fun settled => ?_
      cases settled with
      | false => exact ih
      | true => exact orElse_issues (tryPair_savesLoaded _ _ _) ih

theorem tryBids_savesLoaded (ask : Order) (chainId : ℕ) (bids : List Order) :
    (tryBids env ask chainId bids).Issues SavesLoaded := by
  induction bids with
  | nil => exact Prog.issues_ret _
  | cons bid bids ih =>
    refine Prog.issues_bind (savesLoaded_mono (isBidSettledForAsk_quiet bid ask chainId))
      fun settled => ?_
    cases settled with
    | false => exact ih
    | true => exact orElse_issues (tryPair_savesLoaded _ _ _) ih

theorem tryFulfillMatchedPairForConsumedOrder_savesLoaded (order : Order) (chainId : ℕ) :
    (tryFulfillMatchedPairForConsumedOrder env order chainId).Issues SavesLoaded := by
  unfold tryFulfillMatchedPairForConsumedOrder
  split_ifs
  · exact Prog.issues_ret _
  · cases order.side with
    | bid =>
      exact Prog.issues_bind (savesLoaded_mono (quiet_db _ trivial)) fun asks =>
        tryAsks_savesLoaded order chainId asks
    | ask =>
      exact Prog.issues_bind (savesLoaded_mono (quiet_db _ trivial)) fun bids =>
        tryBids_savesLoaded order chainId bids

theorem reconcileOrder_savesLoaded (order : Order) (chainId : ℕ) :
    (reconcileOrder env order chainId).Issues SavesLoaded := by
  unfold reconcileOrder
  by_cases hactive : order.status = .active
  · simp only [hactive, ne_eq, not_true_eq_false, if_false]
    refine Prog.issues_bind
      (savesLoaded_mono (isActiveOrderConsumedForReconcile_quiet order chainId)) fun consumed => ?_
    cases consumed with
    | false => exact Prog.issues_ret _
    | true =>
      refine Prog.issues_bind (tryFulfillMatchedPairForConsumedOrder_savesLoaded order chainId)
        fun paired => ?_
      cases paired with
      | true => exact Prog.issues_ret _
      | false =>
        refine Prog.issues_bind (savesLoaded_mono (selfFillParameters_quiet order chainId))
          fun parameters => ?_
        exact Prog.issues_bind (saveOrder_savesLoaded _ hactive) fun _ => Prog.issues_ret _
  · simp only [hactive, ne_eq, not_false_eq_true, if_true]
    exact Prog.issues_ret _

theorem reconcileOnChainFilledActiveOrders_savesLoaded (chainId : ℕ) (orders : List Order) :
    (reconcileOnChainFilledActiveOrders env chainId orders).Issues SavesLoaded := by
  induction orders with
  | nil => exact Prog.issues_ret _
  | cons order orders ih =>
    exact Prog.issues_bind (reconcileOrder_savesLoaded order chainId) fun _ => ih

theorem findActiveAsksByOfferer_savesLoaded (offererAddress : JsStr) (limit : Option ℕ)
    (chainId : ℕ) :
    (findActiveAsksByOfferer env offererAddress limit chainId).Issues SavesLoaded := by
  unfold findActiveAsksByOfferer
  split_ifs
  · exact Prog.issues_ret _
  · refine Prog.issues_bind (Prog.issues_ret _) fun rwa => ?_
    exact Prog.issues_bind (savesLoaded_mono (quiet_db _ trivial)) fun rows =>
      reconcileOnChainFilledActiveOrders_savesLoaded chainId rows

theorem findCollectionBidsByOfferer_savesLoaded (offererAddress : JsStr) (limit : Option ℕ)
    (chainId : ℕ) :
    (findCollectionBidsByOfferer env offererAddress limit chainId).Issues SavesLoaded := by
  unfold findCollectionBidsByOfferer
  split_ifs
  · exact Prog.issues_ret _
  · refine Prog.issues_bind (Prog.issues_ret _) fun rwa => ?_
    exact Prog.issues_bind (savesLoaded_mono (quiet_db _ trivial)) fun rows =>
      reconcileOnChainFilledActiveOrders_savesLoaded chainId rows

theorem expireOrders_savesLoaded : expireOrders.Issues SavesLoaded := by
  refine Prog.issues_bind (savesLoaded_rpc _) fun now => ?_
  refine Prog.issues_bind (savesLoaded_mono (quiet_db _ trivial)) fun due => ?_
  cases due.isEmpty with
  | true => exact Prog.issues_ret _
  | false => exact savesLoaded_mono (quiet_db _ trivial)

/-- The same for a replacement, which saves and inserts in a transaction, without guarded updates. -/
def SavesActive : BackendCmd → Prop
  | .inl (.auto (.saveOrders rows)) => LoadedActive rows
  | .inl (.auto (.insertOrder _)) => False
  | .inl (.inTx (.saveOrders rows)) => LoadedActive rows
  | .inl (.inTx (.cancelActiveAsks ..)) => False
  | .inl (.inTx (.expireOrders _)) => False
  | _ => True

theorem savesActive_of_savesLoaded : ∀ c, SavesLoaded c → SavesActive c := by
  intro c hc
  rcases c with (q | _ | _ | _) | q
  · cases q <;> exact hc
  · exact hc.elim
  all_goals trivial

theorem savesActive_mono {p : BackendM α} (hp : p.Issues Quiet) : p.Issues SavesActive :=
  Prog.issues_mono (fun c hc => savesActive_of_savesLoaded c (savesLoaded_of_quiet c hc)) hp

theorem savesActive_rpc (q : Rpc) : (rpc q).Issues SavesActive := ⟨trivial, fun _ => trivial⟩

theorem savesActive_tx (q : Stmt) (h : SavesActive (.inl (.inTx q))) : (tx q).Issues SavesActive :=
  ⟨h, fun _ => trivial⟩

theorem persistOrder_savesActive (order : Order) : (persistOrder order).Issues SavesActive := by
  refine Prog.issues_bind (savesActive_tx _ trivial) fun saved => ?_
  rcases saved with (_ | _) | _ <;> exact Prog.issues_ret _

theorem loadReplaced_savesActive (oldOrderHash : JsStr) :
    (loadReplaced oldOrderHash).Issues SavesActive :=
  Prog.issues_bind (savesActive_tx _ trivial) fun found => Prog.issues_orThrow _ found

theorem cancelReplaced_savesActive {old : Order} (h : old.status = .active) :
    (cancelReplaced old).Issues SavesActive :=
  Prog.issues_bind (savesActive_rpc _) fun at_ =>
    savesActive_tx _ (by simpa [SavesActive, LoadedActive] using h)

theorem insertReplacementAsk_savesActive (old : Order) (dto : CreateOrderDto) (chainId : ℕ) :
    (insertReplacementAsk old dto chainId).Issues SavesActive := by
  refine Prog.issues_bind (savesActive_mono (materializeOrderFromDto_quiet dto chainId)) fun order => ?_
  refine Prog.issues_bind (Prog.issues_throwIf _ _) fun _ => ?_
  refine Prog.issues_bind (persistOrder_savesActive _) fun saved => ?_
  exact Prog.issues_bind (savesActive_rpc _) fun _ => Prog.issues_ret _

theorem replaceSellerListing_savesActive (oldOrderHash callerAddress : JsStr)
    (dto : CreateOrderDto) (chainId : ℕ) :
    (replaceSellerListing env oldOrderHash callerAddress dto chainId).Issues SavesActive := by
  refine Prog.issues_bind (Prog.issues_throwIf _ _) fun _ => ?_
  refine Prog.issues_bind (savesActive_mono (assertRwaOfChain_quiet _ _)) fun _ => ?_
  refine Prog.issues_bind (Prog.issues_ret _) fun _ => ?_
  refine Prog.issues_bind (savesActive_mono (assertAskSettlementPolicy_quiet _ _)) fun _ => ?_
  refine Prog.issues_bind (savesActive_mono (assertAskOffererOwnsToken_quiet _ _)) fun _ => ?_
  refine issues_transaction ?_ trivial trivial
  refine Prog.issues_bind (loadReplaced_savesActive _) fun old => ?_
  refine Prog.issues_bind (Prog.issues_throwIf _ _) fun _ => ?_
  refine assertActive_issues fun hactive => ?_
  refine Prog.issues_bind (Prog.issues_throwIf _ _) fun _ => ?_
  refine Prog.issues_bind (Prog.issues_throwIf _ _) fun _ => ?_
  refine Prog.issues_bind (Prog.issues_throwIf _ _) fun _ => ?_
  refine Prog.issues_bind (cancelReplaced_savesActive hactive) fun _ => ?_
  exact insertReplacementAsk_savesActive old dto chainId

theorem replaceBuyerBid_savesActive (oldOrderHash callerAddress : JsStr) (dto : CreateOrderDto)
    (chainId : ℕ) :
    (replaceBuyerBid env oldOrderHash callerAddress dto chainId).Issues SavesActive := by
  refine Prog.issues_bind (Prog.issues_throwIf _ _) fun _ => ?_
  refine Prog.issues_bind (savesActive_mono (assertRwaOfChain_quiet _ _)) fun _ => ?_
  refine Prog.issues_bind (savesActive_mono (assertReplacementBid_quiet _ _)) fun _ => ?_
  refine issues_transaction ?_ trivial trivial
  refine Prog.issues_bind (loadReplaced_savesActive _) fun old => ?_
  cases replacedBidError old dto with
  | some e => exact Prog.issues_ret _
  | none =>
    refine assertActive_issues fun hactive => ?_
    refine Prog.issues_bind (Prog.issues_throwIf _ _) fun _ => ?_
    refine Prog.issues_bind (Prog.issues_throwIf _ _) fun _ => ?_
    refine Prog.issues_bind (Prog.issues_throwIf _ _) fun _ => ?_
    refine Prog.issues_bind (cancelReplaced_savesActive hactive) fun _ => ?_
    refine Prog.issues_bind (savesActive_mono (materializeOrderFromDto_quiet dto chainId)) fun order => ?_
    exact persistOrder_savesActive order

end Saves

end Orders
