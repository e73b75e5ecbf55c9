import Tokenable.Orders.BuyerRecords

/-!
# The buyer of a fill and the owner of the token

The buyer of `fulfillOrder` comes from the request, that of `fulfillMatchedPair` from the bid. It is
compared with the owner on chain only where Seaport does not report the order filled.
-/

namespace Orders
open Js Platform Async Db Vault Settlement Backend

variable {env : Env} {x : World} {t : Tables} {chainId : ℕ} {α β : Type}

section Calls

theorem silent_of_asks (c : BackendCmd) (hc : Asks c) : Silent c := by
  rcases c with q | q
  · exact hc.elim
  · trivial

theorem silent_asks {p : BackendM α} (hp : p.Issues Asks) : p.Issues Silent :=
  Prog.issues_mono silent_of_asks hp

theorem silent_findByHash (orderHash : JsStr) : (findByHash orderHash).Issues Silent := by
  refine Prog.issues_bind ⟨trivial, fun _ => Prog.issues_ret _⟩ fun found => ?_
  refine Prog.issues_bind (Prog.issues_orThrow _ found) fun order => ?_
  refine Prog.issues_bind ?_ fun _ => Prog.issues_ret _
  exact Prog.issues_bind (silent_rpc _) fun r => Prog.issues_ret r

theorem silent_assertNotHoldBidOnly (order : Order) :
    (assertNotHoldBidOnly order).Issues Silent := by
  unfold assertNotHoldBidOnly
  split_ifs
  · exact Prog.issues_bind ⟨trivial, fun _ => Prog.issues_ret _⟩
      fun policy => Prog.issues_throwIf _ _
  · exact Prog.issues_ret _

theorem play_throwIf_end (b : Bool) (e : HttpError) (u : Tables) :
    (Prog.throwIf b e : BackendM Unit).play (solo env x) u =
      (if b then .error e else .ok (), u) := by
  cases b <;> rfl

/-- A bid alone does not settle a token of the self-vault hold policy. -/
def holdBidOnly (t : Tables) (order : Order) : Bool :=
  isTokenConsiderationBid order &&
    (Settlement.getSettlementPolicy t.ledger order.tokenContract order.tokenId).1 = some .selfVaultHold

/-- The check refuses such a bid; it leaves the holdings, and for an ask all tables, as they were. -/
theorem play_assertNotHoldBidOnly (env : Env) (x : World) (t : Tables) (order : Order) :
    ∃ r u, (assertNotHoldBidOnly order).play (solo env x) t = (r, u) ∧
      (r = .ok () ↔ holdBidOnly t order = false) ∧ u.holdings = t.holdings ∧
      (order.side = .ask → u = t) := by
  unfold assertNotHoldBidOnly holdBidOnly
  cases hbid : isTokenConsiderationBid order with
  | false => exact ⟨.ok (), t, rfl, by simp, rfl, fun _ => rfl⟩
  | true =>
    have hside : order.side ≠ .ask := by
      intro hask
      simp [isTokenConsiderationBid, hask] at hbid
    rw [if_pos rfl, Prog.play_bind, play_db]
    let u := t.withLedger (Settlement.getSettlementPolicy t.ledger order.tokenContract order.tokenId).2
    have hholdings : u.holdings = t.holdings := holdings_getSettlementPolicy _ _ _
    refine ⟨_, u, play_throwIf_end _ _ _, ?_, hholdings, fun hask => absurd hask hside⟩
    rw [Bool.true_and]
    change (if decide ((Settlement.getSettlementPolicy t.ledger order.tokenContract order.tokenId).1 =
      some .selfVaultHold) = true then _ else _) = _ ↔ _
    cases decide ((Settlement.getSettlementPolicy t.ledger order.tokenContract order.tokenId).1 =
      some .selfVaultHold)
    · simp
    · simp

/-- The call goes on with the order that it finds. -/
theorem mem_written_findByHash_bind {orderHash : JsStr} {f : Order → BackendM α} {r : BuyerRecord} :
    r ∈ written env x (findByHash orderHash >>= f) t ↔
      ∃ order, shownOrder x t orderHash = .ok order ∧ r ∈ written env x (f order) t := by
  rw [written_silent_bind (silent_findByHash orderHash), play_findByHash]
  cases shownOrder x t orderHash with
  | ok order => simp [Prog.onOk]
  | error e => simp [Prog.onOk, written, Prog.trace]

theorem mem_written_assertActive_bind {order : Order} {f : Unit → BackendM α} {r : BuyerRecord} :
    r ∈ written env x (assertActive order >>= f) t ↔
      order.status = .active ∧ r ∈ written env x (f ()) t := by
  refine mem_written_check_bind (Prog.issues_throwIf _ _) ?_ ?_
  · rw [play_throwIf_end]
  · rw [play_throwIf_end]
    by_cases hactive : order.status = .active <;> simp [hactive]

theorem orderRecords_congr {u : Tables} {saved : Order} (hholdings : u.holdings = t.holdings)
    (hledger : saved.side = .ask → u.ledger = t.ledger) (buyerAddress : Option JsStr)
    (chainId : Option ℕ) :
    orderRecords env u saved buyerAddress chainId =
      orderRecords env t saved buyerAddress chainId := by
  unfold orderRecords bidRecords
  by_cases hside : saved.side = .ask
  · rw [if_pos hside, if_pos hside, fillRecords_congr (hledger hside)]
  · rw [if_neg hside, if_neg hside, seededBasis_congr hholdings]

/-- The records of `fulfillOrder` are those of the order that it saves. -/
theorem mem_written_fulfillOrder {orderHash : JsStr} {buyerAddress : Option JsStr}
    {chainId : Option ℕ} {fillTxHash : Option JsStr} {r : BuyerRecord} :
    r ∈ written env x (fulfillOrder env orderHash buyerAddress chainId fillTxHash) t ↔
      ∃ order, shownOrder x t orderHash = .ok order ∧ order.status = .active ∧
        Settled env x order buyerAddress (chainId.getD env.getDefaultChainId) ∧
        holdBidOnly t order = false ∧
        r ∈ orderRecords env t { markFulfilled order buyerAddress fillTxHash with updatedAt := x .now }
          buyerAddress chainId := by
  rw [fulfillOrder, mem_written_findByHash_bind]
  apply exists_congr
  intro order
  obtain ⟨hsame, hsettled⟩ := play_assertOrderSettledForFulfill env x t order
    buyerAddress (chainId.getD env.getDefaultChainId)
  obtain ⟨o, u, hplay, hpass, hholdings, hask⟩ := play_assertNotHoldBidOnly env x t order
  rw [mem_written_assertActive_bind,
    mem_written_check_bind (silent_asks (assertOrderSettledForFulfill_asks _ _ _)) hsame hsettled,
    mem_written_check_bind (silent_assertNotHoldBidOnly order) (congrArg Prod.snd hplay) Iff.rfl, hplay]
  have hsave : (saveOrder order (markFulfilled order buyerAddress fillTxHash)).Issues Silent :=
    Prog.issues_bind (silent_rpc _) fun _ => Prog.issues_bind ⟨trivial, fun _ => Prog.issues_ret _⟩
      fun _ => Prog.issues_ret _
  rw [written_silent_bind hsave, play_saveOrder]
  have hside : (markFulfilled order buyerAddress fillTxHash).side = order.side :=
    (markFulfilled_same order buyerAddress fillTxHash).1.side
  let saved : Order := { markFulfilled order buyerAddress fillTxHash with updatedAt := x .now }
  let stored : Tables := { u with orders := u.orders.save saved }
  have hrecords : orderRecords env stored saved buyerAddress chainId =
      orderRecords env t saved buyerAddress chainId :=
    orderRecords_congr hholdings (fun h => congrArg Tables.ledger (hask (hside.symm.trans h))) _ _
  have hafter : ∀ v saved, written env x (afterFulfilled env saved buyerAddress chainId >>= fun _ =>
      pure saved) v = orderRecords env v saved buyerAddress chainId := by
    intro v saved
    exact (written_bind_silent fun _ => Prog.issues_ret _).trans (written_afterFulfilled _ _ _)
  change (_ ∧ _ ∧ _ ∧ _ ∧ r ∈ written env x (afterFulfilled env saved buyerAddress chainId >>= fun _ =>
    pure saved) stored) ↔ _
  rw [hafter, hrecords, hpass]

theorem mem_written_throwIf_bind {b : Bool} {e : HttpError} {f : Unit → BackendM α}
    {r : BuyerRecord} :
    r ∈ written env x (Prog.throwIf b e >>= f) t ↔ b = false ∧ r ∈ written env x (f ()) t := by
  refine mem_written_check_bind (Prog.issues_throwIf _ _) ?_ ?_
  · rw [play_throwIf_end]
  · rw [play_throwIf_end]
    cases b <;> simp

def savedAsk (x : World) (ask bid : Order) : Order :=
  { matchedAsk ask bid with updatedAt := x .now }

theorem written_settleMatchedPair (ask bid : Order) (chainId : Option ℕ) :
    written env x (settleMatchedPair env ask bid chainId) t =
      fillRecords env t (savedAsk x ask bid) bid.offerer (matchedAmount bid)
        (some (savedAsk x ask bid).tokenId) chainId := by
  let rows : List Order := [savedAsk x ask bid, { matchedBid ask bid with updatedAt := x .now }]
  let u : Tables := { t with orders := t.orders.saveAll rows }
  let v : Tables := u.updateOrders (Tables.isActiveAsk (savedAsk x ask bid).tokenContract
    (savedAsk x ask bid).tokenId (some (savedAsk x ask bid).id))
      (fun o => { o with status := .cancelled, updatedAt := x .now }) fun _ => rfl
  have hend : written env x (settleMatchedPair env ask bid chainId) t =
      written env x (recordAskFill env (savedAsk x ask bid) bid.offerer (matchedAmount bid)
        (some (savedAsk x ask bid).tokenId) chainId >>= fun _ =>
          pure (savedAsk x ask bid, { matchedBid ask bid with updatedAt := x .now })) v := rfl
  rw [hend]
  refine (written_bind_silent fun _ => Prog.issues_ret _).trans ?_
  rw [written_recordAskFill]
  exact fillRecords_congr rfl _ _ _ _ _

/-- The records of `fulfillMatchedPair` are those of the ask that it saves. -/
theorem mem_written_fulfillMatchedPair {askHash bidHash : JsStr} {chainId : Option ℕ}
    {r : BuyerRecord} :
    r ∈ written env x (fulfillMatchedPair env askHash bidHash chainId) t ↔
      ∃ ask, shownOrder x t askHash = .ok ask ∧ ∃ bid, shownOrder x t bidHash = .ok bid ∧
        (ask.side = .ask ∧ bid.side = .bid) ∧ (ask.status = .active ∧ bid.status = .active) ∧
        Settled env x ask (some bid.offerer) (chainId.getD env.getDefaultChainId) ∧
        BidSettled env x bid ask (chainId.getD env.getDefaultChainId) ∧
        matchedPairError ask bid = none ∧
        r ∈ fillRecords env t (savedAsk x ask bid) bid.offerer (matchedAmount bid)
          (some (savedAsk x ask bid).tokenId) chainId := by
  rw [fulfillMatchedPair, mem_written_findByHash_bind]
  apply exists_congr
  intro ask
  rw [mem_written_findByHash_bind]
  apply and_congr_right
  intro _
  apply exists_congr
  intro bid
  apply and_congr_right
  intro _
  obtain ⟨hsame, hsettled⟩ := play_assertOrderSettledForFulfill env x t ask
    (some bid.offerer) (chainId.getD env.getDefaultChainId)
  obtain ⟨hsame', hsettled'⟩ := play_assertBidSettledForMatchedPair env x t bid ask
    (chainId.getD env.getDefaultChainId)
  rw [mem_written_throwIf_bind, mem_written_throwIf_bind,
    mem_written_check_bind (silent_asks (assertOrderSettledForFulfill_asks _ _ _)) hsame hsettled,
    mem_written_check_bind (silent_asks (assertBidSettledForMatchedPair_asks _ _ _)) hsame' hsettled',
    ← written_settleMatchedPair]
  have hsides : (decide (ask.side ≠ .ask) || decide (bid.side ≠ .bid)) = false ↔
      ask.side = .ask ∧ bid.side = .bid := by simp
  have hactive : (decide (ask.status ≠ .active) || decide (bid.status ≠ .active)) = false ↔
      ask.status = .active ∧ bid.status = .active := by simp
  rw [hsides, hactive]
  refine and_congr_right fun _ => and_congr_right fun _ => and_congr_right fun _ =>
    and_congr_right fun _ => ?_
  cases matchedPairError ask bid with
  | some e => exact iff_of_false List.not_mem_nil fun h => absurd h.1 (Option.some_ne_none e)
  | none => exact (and_iff_right rfl).symm

end Calls

section Stores

def opensSettlement (env : Env) (t : Tables) (ask : Order) (fill : Fill) : Bool :=
  isFullPlatformTakeAsk env ask && !(trim ask.orderHash).isEmpty &&
    (t.ledger.settlementOf (trim ask.orderHash)).isNone && (fill.filledAsk env ask).accepted

theorem settlements_maybeCreateSelfVaultSettlement (ask : Order) (fill : Fill) :
    (maybeCreateSelfVaultSettlement env ask fill t.ledger).settlements =
      if opensSettlement env t ask fill then
        t.settlements ++ [(fill.filledAsk env ask).settlement env t.settlements.length]
      else t.settlements := by
  have hsame : (livePolicy ask t.ledger).2.settlements = t.settlements := (livePolicy_records _ _).2
  have hfound := settlementOf_livePolicy ask t.ledger (trim ask.orderHash)
  unfold maybeCreateSelfVaultSettlement opensSettlement
  revert hsame hfound
  rcases livePolicy ask t.ledger with ⟨policy, db⟩
  intro hsame hfound
  dsimp only at hsame hfound ⊢
  cases isFullPlatformTakeAsk env ask with
  | false =>
    rw [Bool.false_and, Bool.false_and, Bool.false_and, if_neg Bool.false_ne_true, Bool.not_false,
      if_pos (rfl : true = true), ite_self, hsame]
  | true =>
    have hpolicy : (if policy ≠ some .selfVaultHold ∧ true = true then
        some .selfVaultHold else policy) = some SettlementPolicy.selfVaultHold := by
      by_cases hhold : policy = some .selfVaultHold <;> simp [hhold]
    rw [hpolicy, if_neg (by simp), if_neg (by simp), ← hfound]
    by_cases hhash : trim ask.orderHash = []
    · simp [createFromFulfilledAsk, Fill.filledAsk, hhash, hsame]
    · cases hsettled : db.settlementOf (trim ask.orderHash) with
      | some row =>
        rw [createFromFulfilledAsk_of_settled hhash hsettled]
        simp [hsame]
      | none =>
        rw [createFromFulfilledAsk_of_unsettled hhash hsettled]
        cases (fill.filledAsk env ask).accepted with
        | true => simp [hhash, hsame, Ledger.insert]
        | false => simp [hsame]

theorem tokenNumber_trim (tokenId : JsStr) : tokenNumber (trim tokenId) = tokenNumber tokenId := by
  rw [tokenNumber, tokenNumber, normalizeDecimalTokenId, normalizeDecimalTokenId, trim_trim]

theorem tokenNumber_of_isDigits {tokenId : JsStr} (h : isDigits (trim tokenId) = true) :
    tokenNumber tokenId = some (toNat (trim tokenId)) := by
  have hdigits := isDigits_normalizeDecimalTokenId h
  have hne : (normalizeDecimalTokenId tokenId).isEmpty = false := by
    cases hcase : normalizeDecimalTokenId tokenId with
    | nil => simp [hcase, isDigits] at hdigits
    | cons c s => rfl
  rw [tokenNumber, toNumber, trim_of_isDigits hdigits, hne, hdigits, if_neg Bool.false_ne_true,
    if_pos rfl, toNat_normalizeDecimalTokenId h]

theorem settlementRecords_eq (env : Env) (t : Tables) (ask : Order) (fill : Fill) :
    settlementRecords env t ask fill =
      if opensSettlement env t ask fill then
        [⟨lower ask.tokenContract, tokenNumber ask.tokenId, lower (trim fill.buyerWallet)⟩]
      else [] := by
  unfold settlementRecords
  rw [settlements_maybeCreateSelfVaultSettlement]
  cases opensSettlement env t ask fill with
  | false => simp
  | true =>
    rw [if_pos rfl, if_pos rfl, List.drop_left]
    simp [FilledAsk.settlement, Fill.filledAsk, tokenNumber_trim]

end Stores

section Truth

variable (env t) (owners : Owners)

def SettlementOwned (ask : Order) (fill : Fill) : Prop :=
  opensSettlement env t ask fill = true →
    (tokenNumber ask.tokenId).bind (owners (fill.chainId.getD env.getDefaultChainId)
      (lower ask.tokenContract)) = some (lower (trim fill.buyerWallet))

/-- The wallet owns the token whose cost basis a fill of the ask seeds: one of the RWA contract of the
chain, under the id that the ask resolves to. -/
def BasisOwned (wallet : JsStr) (ask : Order) (chainId : ℕ) : Prop :=
  ∀ tid contract, resolveFulfilledAskTokenId ask = some tid →
    env.getRwaAddress chainId = .ok contract → 0 < microsToUsdc ask.considerationAmount →
      wallet.isEmpty = false →
      hasManualBasis t contract wallet (toNat tid) = false →
        owners chainId contract (toNat tid) = some wallet

/-- The wallet owns the token whose owner column is written. -/
def ColumnOwned (tokenContract : JsStr) (tokenId : Option JsStr) (wallet : JsStr) (chainId : ℕ) :
    Prop :=
  (trim (tokenId.getD [])).isEmpty = false → (trim tokenContract).isEmpty = false →
    isAddress wallet = true →
      (tokenNumber (tokenId.getD [])).bind (owners chainId (lower (trim tokenContract))) =
        some wallet

/-- The wallet owns the token of a filled ask under each key that its fill records. -/
structure AskOwned (ask : Order) (buyerWallet costMicros : JsStr) (tokenId : Option JsStr)
    (chainId : Option ℕ) : Prop where
  settlement : SettlementOwned env t owners ask ⟨buyerWallet, chainId⟩
  basis : BasisOwned env t owners (lower (trim buyerWallet))
    { ask with considerationAmount := costMicros } (chainId.getD env.getDefaultChainId)
  column : ColumnOwned owners ask.tokenContract tokenId (lower (trim buyerWallet))
    (chainId.getD env.getDefaultChainId)

variable {env t owners}

theorem holds_settlementRecords_iff (ask : Order) (fill : Fill) :
    (∀ r ∈ settlementRecords env t ask fill,
        r.Holds owners (fill.chainId.getD env.getDefaultChainId)) ↔
      SettlementOwned env t owners ask fill := by
  rw [settlementRecords_eq, SettlementOwned]
  cases opensSettlement env t ask fill with
  | false => simp
  | true => simp [BuyerRecord.Holds]

theorem holds_seededBasis_iff (buyerWallet : JsStr) (ask : Order) (chainId : Option ℕ) :
    (∀ r ∈ seededBasis env t buyerWallet ask chainId,
        r.Holds owners (chainId.getD env.getDefaultChainId)) ↔
      BasisOwned env t owners (lower (trim buyerWallet)) ask
        (chainId.getD env.getDefaultChainId) := by
  unfold seededBasis BasisOwned
  cases resolveFulfilledAskTokenId ask with
  | none => simp
  | some tid =>
    cases env.getRwaAddress (chainId.getD env.getDefaultChainId) with
    | error e => simp
    | ok contract =>
      dsimp only
      constructor
      · rintro hall _ _ ⟨⟩ ⟨⟩ hcost hwallet hmanual
        rw [if_pos ⟨hcost, hwallet⟩, basisRecords, hmanual] at hall
        exact hall _ List.mem_cons_self
      · intro howned r hr
        split_ifs at hr with hpriced
        · unfold basisRecords at hr
          cases hmanual : hasManualBasis t contract (lower (trim buyerWallet)) (toNat tid) with
          | true =>
            rw [hmanual] at hr
            cases hr
          | false =>
            rw [hmanual] at hr
            obtain rfl := List.mem_singleton.mp hr
            exact howned tid contract rfl rfl hpriced.1 hpriced.2 hmanual
        · cases hr

theorem holds_recordedOwner_iff (tokenContract : JsStr) (tokenId : Option JsStr)
    (buyerWallet : JsStr) (chainId : ℕ) :
    (∀ r ∈ recordedOwner tokenContract tokenId buyerWallet, r.Holds owners chainId) ↔
      ColumnOwned owners tokenContract tokenId (lower (trim buyerWallet)) chainId := by
  unfold recordedOwner ColumnOwned
  rw [tokenNumber_trim]
  by_cases hskip : (trim (tokenId.getD [])).isEmpty ∨ (trim tokenContract).isEmpty ∨
      isAddress (lower (trim buyerWallet)) = false
  · rw [if_pos hskip]
    refine iff_of_true (by simp) ?_
    intro htoken hcontract haddress
    simp [htoken, hcontract, haddress] at hskip
  · rw [if_neg hskip]
    obtain ⟨htoken, hrest⟩ := not_or.mp hskip
    obtain ⟨hcontract, haddress⟩ := not_or.mp hrest
    simp [BuyerRecord.Holds, htoken, hcontract, haddress]

theorem holds_fillRecords_iff (ask : Order) (buyerWallet costMicros : JsStr)
    (tokenId : Option JsStr) (chainId : Option ℕ) :
    (∀ r ∈ fillRecords env t ask buyerWallet costMicros tokenId chainId,
        r.Holds owners (chainId.getD env.getDefaultChainId)) ↔
      AskOwned env t owners ask buyerWallet costMicros tokenId chainId := by
  have hparts : (∀ r ∈ fillRecords env t ask buyerWallet costMicros tokenId chainId,
      r.Holds owners (chainId.getD env.getDefaultChainId)) ↔
      SettlementOwned env t owners ask ⟨buyerWallet, chainId⟩ ∧
        BasisOwned env t owners (lower (trim buyerWallet))
          { ask with considerationAmount := costMicros } (chainId.getD env.getDefaultChainId) ∧
        ColumnOwned owners ask.tokenContract tokenId (lower (trim buyerWallet))
          (chainId.getD env.getDefaultChainId) := by
    rw [← holds_settlementRecords_iff, ← holds_seededBasis_iff, ← holds_recordedOwner_iff,
      fillRecords]
    simp only [List.forall_mem_append, and_assoc]
  rw [hparts]
  constructor
  · rintro ⟨hsettlement, hbasis, hcolumn⟩
    exact ⟨hsettlement, hbasis, hcolumn⟩
  · intro howned
    exact ⟨howned.settlement, howned.basis, howned.column⟩

/-- The named buyer owns the token of a filled order under each key that the fill records. -/
def BuyerOwned (env : Env) (t : Tables) (owners : Owners) (saved : Order)
    (buyerAddress : Option JsStr) (chainId : Option ℕ) : Prop :=
  blank buyerAddress = false →
    if saved.side = .ask then
      AskOwned env t owners saved (buyerAddress.getD []) saved.considerationAmount
        (resolveFulfilledAskTokenId saved) chainId
    else (!isCriteriaCollectionBidOrder saved && isTokenConsiderationBid saved) = true →
      BasisOwned env t owners (lower (trim (buyerAddress.getD [])))
          { saved with
            side := .ask
            considerationAmount := (firstOfferAmount saved).getD saved.considerationAmount }
          (chainId.getD env.getDefaultChainId) ∧
        ColumnOwned owners saved.tokenContract (some saved.tokenId)
          (lower (trim (buyerAddress.getD []))) (chainId.getD env.getDefaultChainId)

theorem holds_orderRecords_iff (saved : Order) (buyerAddress : Option JsStr) (chainId : Option ℕ) :
    (∀ r ∈ orderRecords env t saved buyerAddress chainId,
        r.Holds owners (chainId.getD env.getDefaultChainId)) ↔
      BuyerOwned env t owners saved buyerAddress chainId := by
  unfold orderRecords BuyerOwned
  cases blank buyerAddress with
  | true => simp
  | false =>
    rw [if_neg Bool.false_ne_true, forall_prop_of_true rfl]
    by_cases hside : saved.side = .ask
    · rw [if_pos hside, if_pos hside, holds_fillRecords_iff]
    · rw [if_neg hside, if_neg hside]
      by_cases hbid : (!isCriteriaCollectionBidOrder saved && isTokenConsiderationBid saved) = true
      · rw [if_pos hbid, forall_prop_of_true hbid, ← holds_seededBasis_iff, ← holds_recordedOwner_iff,
          bidRecords]
        exact List.forall_mem_append
      · rw [if_neg hbid, forall_prop_of_false hbid]
        simp

section Received

/-- A decimal token id stays as it is. -/
theorem tokenId_backfill {o : Order} (h : isDigits (trim o.tokenId) = true) :
    (backfillAskTokenIdFromParameters o).tokenId = o.tokenId := by
  rw [backfillAskTokenIdFromParameters, if_pos (.inr h)]

theorem tokenId_markFulfilled {order : Order} (h : isDigits (trim order.tokenId) = true)
    (buyerAddress fillTxHash : Option JsStr) :
    (markFulfilled order buyerAddress fillTxHash).tokenId = order.tokenId := by
  unfold markFulfilled
  cases order.side with
  | ask =>
    dsimp only
    rw [tokenId_backfill]
    exact h
  | bid => rfl

theorem tokenId_matchedAsk {ask : Order} (h : isDigits (trim ask.tokenId) = true) (bid : Order) :
    (matchedAsk ask bid).tokenId = ask.tokenId := by
  rw [matchedAsk, tokenId_backfill]
  exact h

/-- An owner is seen of a decimal token id, or of a blank one, which is read as zero. -/
theorem isDigits_of_ownerSeen {tokenContract tokenId owner : JsStr} {n : ℕ}
    (h : ownerSeen env x tokenContract tokenId n = .ok owner)
    (hblank : (trim tokenId).isEmpty = false) :
    isDigits (trim tokenId) = true := by
  obtain ⟨tid, -, htid, -⟩ := ownerSeen_eq_ok h
  by_contra hdigits
  have hnormal : normalizeDecimalTokenId tokenId = trim tokenId := by
    rw [normalizeDecimalTokenId, if_pos (by simpa using hdigits)]
  rw [hnormal, toNumber, trim_trim, hblank, if_neg Bool.false_ne_true, if_neg hdigits] at htid
  cases htid

/-- The owner that is seen of a decimal token id owns that token. -/
theorem owner_of_ownerSeen (hx : Honest owners x) {tokenContract tokenId owner : JsStr} {n : ℕ}
    (h : ownerSeen env x tokenContract tokenId n = .ok owner)
    (hdigits : isDigits (trim tokenId) = true) :
    env.getRwaAddress n = .ok (lower tokenContract) ∧
      owners n (lower tokenContract) (toNat (trim tokenId)) = some owner := by
  obtain ⟨tid, raw, htid, hrwa, hraw, howner⟩ := ownerSeen_eq_ok h
  obtain rfl : tid = toNat (trim tokenId) :=
    Option.some.inj (htid.symm.trans (tokenNumber_of_isDigits hdigits))
  exact ⟨hrwa, howner ▸ hx _ _ _ _ hraw⟩

/-- The owner that is seen of the normal form of a token id owns the token. -/
theorem owner_of_ownerSeen_normalized (hx : Honest owners x) {tokenContract tokenId owner : JsStr}
    {n : ℕ} (h : ownerSeen env x tokenContract (normalizeDecimalTokenId tokenId) n = .ok owner)
    (hne : normalizeDecimalTokenId tokenId ≠ []) :
    isDigits (trim tokenId) = true ∧ env.getRwaAddress n = .ok (lower tokenContract) ∧
      owners n (lower tokenContract) (toNat (trim tokenId)) = some owner := by
  have hdigits : isDigits (trim tokenId) = true := by
    by_contra hnot
    have hnormal : normalizeDecimalTokenId tokenId = trim tokenId := by
      rw [normalizeDecimalTokenId, if_pos (by simpa using hnot)]
    rw [hnormal] at h hne
    have hdigits' := isDigits_of_ownerSeen h (by rwa [trim_trim, List.isEmpty_eq_false_iff])
    rw [trim_trim] at hdigits'
    exact hnot hdigits'
  have hnormal : trim (normalizeDecimalTokenId tokenId) = normalizeDecimalTokenId tokenId :=
    trim_of_isDigits (isDigits_normalizeDecimalTokenId hdigits)
  have howner := owner_of_ownerSeen hx h (by rw [hnormal, isDigits_normalizeDecimalTokenId hdigits])
  rw [hnormal, toNat_normalizeDecimalTokenId hdigits] at howner
  exact ⟨hdigits, howner⟩

/-- The owner of the listed token owns it under each key that the fill records. -/
theorem askOwned_of_owner {ask : Order} {buyerWallet : JsStr} {tokenId : Option JsStr}
    {chainId : Option ℕ} (hdigits : isDigits (trim ask.tokenId) = true)
    (hrwa : env.getRwaAddress (chainId.getD env.getDefaultChainId) = .ok (lower ask.tokenContract))
    (howner : owners (chainId.getD env.getDefaultChainId) (lower ask.tokenContract)
      (toNat (trim ask.tokenId)) = some (lower (trim buyerWallet)))
    (htid : tokenNumber (tokenId.getD []) = some (toNat (trim ask.tokenId))) (costMicros : JsStr) :
    AskOwned env t owners ask buyerWallet costMicros tokenId chainId := by
  have htrim : trim ask.tokenContract = ask.tokenContract :=
    trim_of_isAddress_lower (isAddress_of_contractAddress hrwa)
  refine ⟨fun _ => ?_, ?_, fun _ _ _ => ?_⟩
  · rw [tokenNumber_of_isDigits hdigits]
    exact howner
  · intro tid contract hresolved hcontract _ _ _
    obtain rfl : lower ask.tokenContract = contract := Except.ok.inj (hrwa.symm.trans hcontract)
    have hsame : resolveFulfilledAskTokenId { ask with considerationAmount := costMicros } =
        resolveFulfilledAskTokenId ask := rfl
    rw [hsame, resolveFulfilledAskTokenId] at hresolved
    split_ifs at hresolved with hside hvalid
    · exact Option.some.inj hresolved ▸ howner
    · exact absurd hdigits hvalid
  · rw [htid, htrim]
    exact howner

end Received

section Operations

/-- No check ties the buyer to the listed token: Seaport reports the order filled, or the token id is
blank and `ownerOf` was asked about token zero. -/
def Unchecked (x : World) (order : Order) (chainId : ℕ) : Prop :=
  seaportAnswer x order chainId = .ok true ∨ (trim order.tokenId).isEmpty = true

theorem Settled.receivedBy {order : Order} {buyerAddress : Option JsStr} {n : ℕ}
    (h : Settled env x order buyerAddress n) (hchecked : ¬ Unchecked x order n) :
    order.side = .ask ∧ ReceivedBy env x order (lower (trim (buyerAddress.getD []))) n ∧
      isDigits (trim order.tokenId) = true := by
  obtain ⟨hseaport, htoken⟩ := not_or.mp hchecked
  rcases h with hfilled | ⟨-, hside, -, hreceived⟩
  · exact absurd hfilled hseaport
  · have htoken' := Bool.eq_false_of_not_eq_true htoken
    exact ⟨hside, hreceived, isDigits_of_ownerSeen hreceived.1 htoken'⟩

def savedOrder (x : World) (order : Order) (buyerAddress fillTxHash : Option JsStr) : Order :=
  { markFulfilled order buyerAddress fillTxHash with updatedAt := x .now }

theorem buyerOwned_of_receivedBy (hx : Honest owners x) {order : Order}
    {buyerAddress fillTxHash : Option JsStr} {chainId : Option ℕ}
    (h : Settled env x order buyerAddress (chainId.getD env.getDefaultChainId))
    (hchecked : ¬ Unchecked x order (chainId.getD env.getDefaultChainId)) :
    BuyerOwned env t owners (savedOrder x order buyerAddress fillTxHash) buyerAddress chainId := by
  obtain ⟨hside, ⟨hseen, -⟩, hdigits⟩ := h.receivedBy hchecked
  obtain ⟨hrwa, howner⟩ := owner_of_ownerSeen hx hseen hdigits
  have hsame := (markFulfilled_same order buyerAddress fillTxHash).1
  have htoken : (savedOrder x order buyerAddress fillTxHash).tokenId = order.tokenId :=
    tokenId_markFulfilled hdigits buyerAddress fillTxHash
  have hcontract : (savedOrder x order buyerAddress fillTxHash).tokenContract = order.tokenContract :=
    hsame.tokenContract
  have hask : (savedOrder x order buyerAddress fillTxHash).side = .ask := hsame.side.trans hside
  have hresolved : resolveFulfilledAskTokenId (savedOrder x order buyerAddress fillTxHash) =
      some (trim order.tokenId) := by
    have hvalid : isValidDecimalTokenId order.tokenId = true := hdigits
    rw [resolveFulfilledAskTokenId, if_neg (not_not.mpr hask), htoken, if_pos hvalid]
  intro _
  rw [if_pos hask]
  apply askOwned_of_owner
  · rwa [htoken]
  · rwa [hcontract]
  · rwa [hcontract, htoken]
  · rw [hresolved, htoken]
    exact (tokenNumber_trim order.tokenId).trans (tokenNumber_of_isDigits hdigits)

/-- The buyer of a fill that is not checked owns the token under each key that the fill records. -/
def UncheckedFillOwned (env : Env) (x : World) (t : Tables) (owners : Owners) (orderHash : JsStr)
    (buyerAddress : Option JsStr) (chainId : Option ℕ) (fillTxHash : Option JsStr) : Prop :=
  ∀ order, shownOrder x t orderHash = .ok order → order.status = .active →
    Settled env x order buyerAddress (chainId.getD env.getDefaultChainId) →
      holdBidOnly t order = false → Unchecked x order (chainId.getD env.getDefaultChainId) →
        BuyerOwned env t owners (savedOrder x order buyerAddress fillTxHash) buyerAddress chainId

/-- The bidder of a pair whose two orders are not checked owns the listed token. -/
def UncheckedPairOwned (env : Env) (x : World) (t : Tables) (owners : Owners)
    (askHash bidHash : JsStr) (chainId : Option ℕ) : Prop :=
  ∀ ask, shownOrder x t askHash = .ok ask → ∀ bid, shownOrder x t bidHash = .ok bid →
    (ask.side = .ask ∧ bid.side = .bid) → (ask.status = .active ∧ bid.status = .active) →
      Settled env x ask (some bid.offerer) (chainId.getD env.getDefaultChainId) →
      BidSettled env x bid ask (chainId.getD env.getDefaultChainId) →
      matchedPairError ask bid = none →
      seaportAnswer x bid (chainId.getD env.getDefaultChainId) = .ok true →
      Unchecked x ask (chainId.getD env.getDefaultChainId) →
        AskOwned env t owners (savedAsk x ask bid) bid.offerer (matchedAmount bid)
          (some (savedAsk x ask bid).tokenId) chainId

theorem holds_written_fulfillOrder_iff (hx : Honest owners x) (t : Tables) (orderHash : JsStr)
    (buyerAddress : Option JsStr) (chainId : Option ℕ) (fillTxHash : Option JsStr) :
    (∀ r ∈ written env x (fulfillOrder env orderHash buyerAddress chainId fillTxHash) t,
        r.Holds owners (chainId.getD env.getDefaultChainId)) ↔
      UncheckedFillOwned env x t owners orderHash buyerAddress chainId fillTxHash := by
  constructor
  · intro hall order hfound hactive hsettled hbid _
    rw [← holds_orderRecords_iff]
    intro r hr
    exact hall r (mem_written_fulfillOrder.mpr ⟨order, hfound, hactive, hsettled, hbid, hr⟩)
  · intro hall r hr
    obtain ⟨order, hfound, hactive, hsettled, hbid, hrecord⟩ := mem_written_fulfillOrder.mp hr
    have howned : BuyerOwned env t owners (savedOrder x order buyerAddress fillTxHash) buyerAddress
        chainId := by
      by_cases hunchecked : Unchecked x order (chainId.getD env.getDefaultChainId)
      · exact hall order hfound hactive hsettled hbid hunchecked
      · exact buyerOwned_of_receivedBy hx hsettled hunchecked
    exact (holds_orderRecords_iff _ _ _).mpr howned r hrecord

/-- The ask of a pair is checked against the owner, through itself or through its bid. -/
theorem owner_of_pair (hx : Honest owners x) {ask bid : Order} {n : ℕ}
    (hask : Settled env x ask (some bid.offerer) n) (hbid : BidSettled env x bid ask n)
    (hchecked : ¬ (seaportAnswer x bid n = .ok true ∧ Unchecked x ask n)) :
    isDigits (trim ask.tokenId) = true ∧ env.getRwaAddress n = .ok (lower ask.tokenContract) ∧
      owners n (lower ask.tokenContract) (toNat (trim ask.tokenId)) =
        some (lower (trim bid.offerer)) := by
  rcases hbid with hfilled | ⟨-, hne, -, hheld⟩
  · obtain ⟨-, ⟨hseen, -⟩, hdigits⟩ :=
      hask.receivedBy fun hunchecked => hchecked ⟨hfilled, hunchecked⟩
    exact ⟨hdigits, owner_of_ownerSeen hx hseen hdigits⟩
  · exact owner_of_ownerSeen_normalized hx hheld hne

theorem askOwned_of_pair {ask bid : Order} {chainId : Option ℕ}
    (h : isDigits (trim ask.tokenId) = true ∧
      env.getRwaAddress (chainId.getD env.getDefaultChainId) = .ok (lower ask.tokenContract) ∧
        owners (chainId.getD env.getDefaultChainId) (lower ask.tokenContract)
          (toNat (trim ask.tokenId)) = some (lower (trim bid.offerer))) :
    AskOwned env t owners (savedAsk x ask bid) bid.offerer (matchedAmount bid)
      (some (savedAsk x ask bid).tokenId) chainId := by
  obtain ⟨hdigits, hrwa, howner⟩ := h
  have htoken : (savedAsk x ask bid).tokenId = ask.tokenId := tokenId_matchedAsk hdigits bid
  have hcontract : (savedAsk x ask bid).tokenContract = ask.tokenContract :=
    (matchedAsk_same ask bid).1.tokenContract
  apply askOwned_of_owner
  · rwa [htoken]
  · rwa [hcontract]
  · rwa [hcontract, htoken]
  · rw [htoken]
    exact tokenNumber_of_isDigits hdigits

theorem holds_written_fulfillMatchedPair_iff (hx : Honest owners x) (t : Tables)
    (askHash bidHash : JsStr) (chainId : Option ℕ) :
    (∀ r ∈ written env x (fulfillMatchedPair env askHash bidHash chainId) t,
        r.Holds owners (chainId.getD env.getDefaultChainId)) ↔
      UncheckedPairOwned env x t owners askHash bidHash chainId := by
  constructor
  · intro hall ask hask bid hbid hsides hactive hsettled hsettled' herror _ _
    rw [← holds_fillRecords_iff]
    intro r hr
    exact hall r (mem_written_fulfillMatchedPair.mpr
      ⟨ask, hask, bid, hbid, hsides, hactive, hsettled, hsettled', herror, hr⟩)
  · intro hall r hr
    obtain ⟨ask, hask, bid, hbid, hsides, hactive, hsettled, hsettled', herror, hrecord⟩ :=
      mem_written_fulfillMatchedPair.mp hr
    have howned : AskOwned env t owners (savedAsk x ask bid) bid.offerer (matchedAmount bid)
        (some (savedAsk x ask bid).tokenId) chainId := by
      by_cases hunchecked : seaportAnswer x bid (chainId.getD env.getDefaultChainId) = .ok true ∧
          Unchecked x ask (chainId.getD env.getDefaultChainId)
      · obtain ⟨hfilled, hask'⟩ := hunchecked
        exact hall ask hask bid hbid hsides hactive hsettled hsettled' herror hfilled hask'
      · exact askOwned_of_pair (owner_of_pair hx hsettled hsettled' hunchecked)
    exact (holds_fillRecords_iff _ _ _ _ _).mpr howned r hrecord

end Operations

end Truth

/-- The buyer that a fill records owns the token, if and only if the buyers of the fills that no check
ties to the token do. -/
theorem fills_record_owner_iff {owners : Owners} (hx : Honest owners x) (env : Env) (t : Tables)
    (chainId : Option ℕ) :
    (∀ orderHash buyerAddress fillTxHash,
      (∀ r ∈ written env x (fulfillOrder env orderHash buyerAddress chainId fillTxHash) t,
          r.Holds owners (chainId.getD env.getDefaultChainId)) ↔
        UncheckedFillOwned env x t owners orderHash buyerAddress chainId fillTxHash) ∧
    (∀ askHash bidHash,
      (∀ r ∈ written env x (fulfillMatchedPair env askHash bidHash chainId) t,
          r.Holds owners (chainId.getD env.getDefaultChainId)) ↔
        UncheckedPairOwned env x t owners askHash bidHash chainId) := by
  constructor
  · intro orderHash buyerAddress fillTxHash
    exact holds_written_fulfillOrder_iff hx t orderHash buyerAddress chainId fillTxHash
  · intro askHash bidHash
    exact holds_written_fulfillMatchedPair_iff hx t askHash bidHash chainId

section Runs

def stranger : JsStr := js "0x00000000000000000000000000000000000000ee"

def buyerOwns : Owners := fun _ _ _ => some buyer

def soldWorld : World
  | .getOrderHash .. => .ok (js "0xa1")
  | .getOrderStatus .. => .ok ⟨true, false, 1, 1⟩
  | .ownerOf .. => .ok buyer
  | q => idleWorld q

theorem honest_soldWorld : Honest buyerOwns soldWorld := by
  intro chainId contract tokenId raw hraw
  obtain rfl : buyer = raw := Except.ok.inj hraw
  have hspelled : buyer = lower (trim buyer) := by decide
  exact congrArg some hspelled

/-- The fill that the buyer reports records the buyer. -/
theorem fills_record_owner_iff_sold :
    Honest buyerOwns soldWorld ∧
      ∀ r ∈ written giftHistory.env soldWorld
        (fulfillOrder giftHistory.env (js "0xa1") (some buyer) (some 11155111) none) listedBook,
        r.Holds buyerOwns 11155111 := by
  obtain ⟨hfill, -⟩ :=
    fills_record_owner_iff honest_soldWorld giftHistory.env listedBook (some 11155111)
  refine ⟨honest_soldWorld, (hfill _ _ _).mpr ?_⟩
  intro order hfound _ _ _ _ _
  obtain rfl : listedCard = order := Except.ok.inj hfound
  have hspelled : buyer = lower (trim buyer) := by decide
  rw [if_pos (by decide)]
  exact askOwned_of_owner (by decide) (by decide) (congrArg some hspelled) (by decide) _

/-- A request after the same fill makes a stranger the owner of the card. -/
theorem fill_records_stranger :
    Honest buyerOwns soldWorld ∧
      ∃ r ∈ written giftHistory.env soldWorld
        (fulfillOrder giftHistory.env (js "0xa1") (some stranger) (some 11155111) none) listedBook,
        ¬ r.Holds buyerOwns 11155111 := by
  refine ⟨honest_soldWorld,
    ⟨js "0x00000000000000000000000000000000000000cc", some 7, stranger⟩, ?_, ?_⟩
  · decide +kernel
  · have hother : some buyer ≠ some stranger := by decide
    exact hother

end Runs

end Orders
