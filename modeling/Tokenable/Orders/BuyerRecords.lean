import Tokenable.Async.Trace
import Tokenable.Orders.FillEvidence
import Tokenable.Orders.SingleCall

/-!
# The buyers that fills record

A fill records who has bought the token: in the owner column, in the cost basis of the wallet and in
the settlement. `written` lists these records over a call; here are those of the steps after a fill.
-/

namespace Orders
open Js Platform Async Db Vault Settlement Backend

section Records

/-- A record that a wallet has a token of a contract. -/
structure BuyerRecord where
  tokenContract : JsStr
  tokenId : Option ℕ
  wallet : JsStr
  deriving DecidableEq

def tokenNumber (tokenId : JsStr) : Option ℕ := toNumber (normalizeDecimalTokenId tokenId)

def settlementRecords (env : Env) (t : Tables) (ask : Order) (fill : Fill) : List BuyerRecord :=
  ((maybeCreateSelfVaultSettlement env ask fill t.ledger).settlements.drop t.settlements.length).map
    fun s => ⟨s.tokenContract, tokenNumber s.tokenId, s.buyerWallet⟩

def hasManualBasis (t : Tables) (contract wallet : JsStr) (tokenId : ℕ) : Bool :=
  (t.holdings.find? fun h => h.walletAddress = wallet && h.tokenContract = contract &&
    h.tokenId = tokenId).any fun h => h.costBasisSource = some .manual

def basisRecords (t : Tables) (contract wallet : JsStr) (tokenId : ℕ) : List BuyerRecord :=
  if hasManualBasis t contract wallet tokenId then [] else [⟨contract, some tokenId, wallet⟩]

def recordsOf (env : Env) (t : Tables) : BackendCmd → List BuyerRecord
  | .inl (.auto (.recordOwner contract tokenId owner)) => [⟨contract, tokenNumber tokenId, owner⟩]
  | .inl (.auto (.seedMarketplaceBuyCostBasis contract wallet tokenId _ _)) =>
    basisRecords t contract wallet tokenId
  | .inl (.auto (.maybeCreateSelfVaultSettlement ask fill)) => settlementRecords env t ask fill
  | _ => []

/-- The records that a call writes when no other call runs. -/
def written {α : Type} (env : Env) (x : World) (p : BackendM α) (t : Tables) : List BuyerRecord :=
  (p.trace (solo env x) t).flatMap fun s => recordsOf env s.1 s.2

/-- Who owns each token of each contract on each chain, in lower case. -/
abbrev Owners := ℕ → JsStr → ℕ → Option JsStr

/-- A node may fail to answer, but it names the owner. -/
def Honest (owners : Owners) (x : World) : Prop :=
  ∀ chainId contract tokenId raw, x (.ownerOf chainId contract tokenId) = .ok raw →
    owners chainId contract tokenId = some (lower (trim raw))

def BuyerRecord.Holds (owners : Owners) (chainId : ℕ) (r : BuyerRecord) : Prop :=
  r.tokenId.bind (owners chainId r.tokenContract) = some r.wallet

end Records

variable {env : Env} {x : World} {t : Tables} {chainId : ℕ} {α β : Type}

section Silent

def Silent : BackendCmd → Prop
  | .inl (.auto (.recordOwner ..)) => False
  | .inl (.auto (.seedMarketplaceBuyCostBasis ..)) => False
  | .inl (.auto (.maybeCreateSelfVaultSettlement ..)) => False
  | _ => True

theorem written_of_silent {p : BackendM α} (hp : p.Issues Silent) : written env x p t = [] := by
  apply List.flatMap_eq_nil_iff.mpr
  intro s hs
  have hsilent := Prog.issued_of_mem_trace (solo env x) hp hs
  obtain ⟨u, c⟩ := s
  rcases c with (q | _ | _ | _) | q
  · cases q with
    | recordOwner => exact hsilent.elim
    | seedMarketplaceBuyCostBasis => exact hsilent.elim
    | maybeCreateSelfVaultSettlement => exact hsilent.elim
    | _ => rfl
  all_goals rfl

theorem written_bind (p : BackendM α) (f : α → BackendM β) :
    written env x (p >>= f) t = written env x p t ++
      written env x (Prog.onOk f (p.play (solo env x) t).1) (p.play (solo env x) t).2 := by
  rw [written, Prog.trace_bind, List.flatMap_append]
  rfl

theorem written_silent_bind {p : BackendM α} (hp : p.Issues Silent) (f : α → BackendM β) :
    written env x (p >>= f) t =
      written env x (Prog.onOk f (p.play (solo env x) t).1) (p.play (solo env x) t).2 := by
  rw [written_bind, written_of_silent hp, List.nil_append]

theorem written_bind_silent {p : BackendM α} {f : α → BackendM β} (hf : ∀ a, (f a).Issues Silent) :
    written env x (p >>= f) t = written env x p t := by
  have hrest : (Prog.onOk f (p.play (solo env x) t).1).Issues Silent := by
    cases (p.play (solo env x) t).1 with
    | ok a => exact hf a
    | error e => exact Prog.issues_ret _
  rw [written_bind, written_of_silent hrest, List.append_nil]

/-- After a check the call goes on when the check passes. -/
theorem mem_written_check_bind {p : BackendM Unit} (hp : p.Issues Silent) {f : Unit → BackendM α}
    {P : Prop} {u : Tables} {r : BuyerRecord} (hstate : (p.play (solo env x) t).2 = u)
    (hpass : (p.play (solo env x) t).1 = .ok () ↔ P) :
    r ∈ written env x (p >>= f) t ↔ P ∧ r ∈ written env x (f ()) u := by
  rw [written_silent_bind hp, hstate, ← hpass]
  cases (p.play (solo env x) t).1 with
  | ok a => simp [Prog.onOk]
  | error e => simp [Prog.onOk, written, Prog.trace]

theorem written_pure (a : α) : written env x (pure a) t = [] := rfl

theorem written_db (q : Stmt) : written env x (db q) t = recordsOf env t (.inl (.auto q)) :=
  List.append_nil _

theorem silent_rpc (q : Rpc) : (rpc q).Issues Silent := ⟨trivial, fun _ => trivial⟩

end Silent

section Checks

/-- What Seaport says of an order: that it is fully filled, that it is not, or no answer. -/
def seaportAnswer (x : World) (order : Order) (chainId : ℕ) : Except JsStr Bool :=
  (x (.getOrderHash chainId (seaportHashableParameters order.parameters))).bind fun hash =>
    (x (.getOrderStatus chainId (withHexPrefix (lower hash)))).map seaportOrderIsFullyFilled

theorem play_readSeaportFilled (order : Order) (chainId : ℕ) :
    (readSeaportFilled order chainId).play (solo env x) t =
      (.ok (seaportAnswer x order chainId), t) := by
  unfold readSeaportFilled seaportAnswer
  rw [Prog.play_bind, play_rpc]
  dsimp only [Prog.onOk]
  cases x (.getOrderHash chainId (seaportHashableParameters order.parameters)) <;> rfl

def seaportOutcome (x : World) (order : Order) (chainId : ℕ) : Except HttpError Unit :=
  match seaportAnswer x order chainId with
  | .ok true => .ok ()
  | .ok false => .error (seaportFillNotFound (js "order"))
  | .error _ => .error (.unavailable (js "Could not verify on-chain Seaport fill — try again"))

theorem play_assertSeaportOrderFilledOnChain (order : Order) (chainId : ℕ) :
    (assertSeaportOrderFilledOnChain order chainId).play (solo env x) t =
      (seaportOutcome x order chainId, t) := by
  unfold assertSeaportOrderFilledOnChain seaportOutcome
  rw [Prog.play_bind, play_readSeaportFilled]
  dsimp only [Prog.onOk]
  rcases seaportAnswer x order chainId with message | (_ | _) <;> rfl

def ReceivedBy (env : Env) (x : World) (ask : Order) (buyer : JsStr) (chainId : ℕ) : Prop :=
  ownerSeen env x ask.tokenContract ask.tokenId chainId = .ok buyer ∧
    buyer ≠ lower (trim ask.offerer)

theorem isEmpty_lower_trim (buyerAddress : Option JsStr) :
    (lower (trim (buyerAddress.getD []))).isEmpty = blank buyerAddress := by
  rw [blank, lower, List.isEmpty_map]

/-- Filled on Seaport, or an ask whose token is with the buyer. -/
def Settled (env : Env) (x : World) (order : Order) (buyerAddress : Option JsStr) (chainId : ℕ) :
    Prop :=
  seaportAnswer x order chainId = .ok true ∨
    (seaportAnswer x order chainId = .ok false ∧ order.side = .ask ∧ blank buyerAddress = false ∧
      ReceivedBy env x order (lower (trim (buyerAddress.getD []))) chainId)

theorem play_assertOrderSettledForFulfill (env : Env) (x : World) (t : Tables) (order : Order)
    (buyerAddress : Option JsStr) (chainId : ℕ) :
    ((assertOrderSettledForFulfill env order buyerAddress chainId).play (solo env x) t).2 = t ∧
    (((assertOrderSettledForFulfill env order buyerAddress chainId).play (solo env x) t).1 = .ok () ↔
      Settled env x order buyerAddress chainId) := by
  unfold assertOrderSettledForFulfill onBadRequest Settled
  rw [Prog.play_settle, play_assertSeaportOrderFilledOnChain]
  unfold seaportOutcome
  rcases seaportAnswer x order chainId with message | (_ | _)
  · exact ⟨rfl, iff_of_false nofun (by simp)⟩
  · dsimp only [seaportFillNotFound]
    rw [isEmpty_lower_trim, play_throwIf]
    by_cases hside : order.side = .ask
    · cases hblank : blank buyerAddress with
      | true => simp [hside]
      | false =>
        rw [Prog.play_bind, play_readOnChainRwaOwner]
        simp only [hside, ReceivedBy]
        cases hseen : ownerSeen env x order.tokenContract order.tokenId chainId with
        | error e => simp [Prog.onOk]
        | ok owner =>
          by_cases howner : owner = lower (trim (buyerAddress.getD []))
          · by_cases hseller : owner = lower (trim order.offerer)
            · simp [Prog.onOk, Prog.throwIf, howner, ← hseller]
            · simp [Prog.onOk, Prog.throwIf, ← howner, hseller]
          · simp [Prog.onOk, Prog.throwIf, howner]
    · simp [hside]
  · exact ⟨rfl, iff_of_true rfl (.inl rfl)⟩

/-- Filled on Seaport, or the bidder has the token of the listing. -/
def BidSettled (env : Env) (x : World) (bid ask : Order) (chainId : ℕ) : Prop :=
  seaportAnswer x bid chainId = .ok true ∨
    (seaportAnswer x bid chainId = .ok false ∧ normalizeDecimalTokenId ask.tokenId ≠ [] ∧
      normalizeDecimalTokenId ask.tokenId ≠ js "0" ∧
      ownerSeen env x ask.tokenContract (normalizeDecimalTokenId ask.tokenId) chainId =
        .ok (lower (trim bid.offerer)))

/-- What `askOwnerIs` answers for a wallet. -/
theorem play_askOwnerIs (env : Env) (x : World) (t : Tables) (ask : Order) (chainId : ℕ)
    (wallet : JsStr) :
    ∃ b, (askOwnerIs env ask chainId fun owner => owner = wallet).play (solo env x) t = (.ok b, t) ∧
      (b = true ↔ normalizeDecimalTokenId ask.tokenId ≠ [] ∧
        normalizeDecimalTokenId ask.tokenId ≠ js "0" ∧
        ownerSeen env x ask.tokenContract (normalizeDecimalTokenId ask.tokenId) chainId =
          .ok wallet) := by
  unfold askOwnerIs
  dsimp only
  generalize normalizeDecimalTokenId ask.tokenId = tid
  by_cases htid : tid = [] ∨ tid = js "0"
  · have hno : (tid.isEmpty || decide (tid = js "0")) = true := by simpa using htid
    rw [if_pos hno]
    refine ⟨false, rfl, iff_of_false Bool.false_ne_true ?_⟩
    rintro ⟨hne, hne', -⟩
    exact htid.elim hne hne'
  · have hyes : ¬ (tid.isEmpty || decide (tid = js "0")) = true := by simpa using htid
    rw [if_neg hyes, Prog.play_settle, play_readOnChainRwaOwner]
    obtain ⟨hne, hne'⟩ := not_or.mp htid
    cases ownerSeen env x ask.tokenContract tid chainId with
    | error e => exact ⟨false, rfl, iff_of_false Bool.false_ne_true (by simp)⟩
    | ok owner => exact ⟨decide (owner = wallet), rfl, by simp [hne, hne']⟩

theorem play_assertBidSettledForMatchedPair (env : Env) (x : World) (t : Tables) (bid ask : Order)
    (chainId : ℕ) :
    ((assertBidSettledForMatchedPair env bid ask chainId).play (solo env x) t).2 = t ∧
    (((assertBidSettledForMatchedPair env bid ask chainId).play (solo env x) t).1 = .ok () ↔
      BidSettled env x bid ask chainId) := by
  unfold assertBidSettledForMatchedPair onBadRequest BidSettled
  rw [Prog.play_settle, play_assertSeaportOrderFilledOnChain]
  unfold seaportOutcome
  cases hanswer : seaportAnswer x bid chainId with
  | error message => exact ⟨rfl, iff_of_false nofun (by simp)⟩
  | ok filled =>
    cases filled with
    | true => exact ⟨rfl, iff_of_true rfl (.inl rfl)⟩
    | false =>
      obtain ⟨b, hplay, hb⟩ := play_askOwnerIs env x t ask chainId
        (lower (trim bid.offerer))
      have hfilled : (isSeaportOrderFullyFilledOnChain bid chainId).play (solo env x) t =
          (.ok false, t) := by
        unfold isSeaportOrderFullyFilledOnChain
        rw [Prog.play_bind, play_readSeaportFilled, hanswer]
        rfl
      have hsettled : (isBidSettledForAsk env bid ask chainId).play (solo env x) t =
          (.ok b, t) := by
        unfold isBidSettledForAsk orElse
        rw [Prog.play_bind, hfilled]
        exact hplay
      dsimp only [seaportFillNotFound]
      rw [Prog.play_bind, hsettled]
      cases b with
      | true => exact ⟨rfl, iff_of_true rfl (.inr ⟨rfl, hb.mp rfl⟩)⟩
      | false =>
        refine ⟨rfl, iff_of_false nofun ?_⟩
        rintro (htrue | ⟨-, hheld⟩)
        · cases htrue
        · cases hb.mpr hheld

end Checks

section Writes

def seededBasis (env : Env) (t : Tables) (buyerWallet : JsStr) (ask : Order) (chainId : Option ℕ) :
    List BuyerRecord :=
  match resolveFulfilledAskTokenId ask, env.getRwaAddress (chainId.getD env.getDefaultChainId) with
  | some tid, .ok contract =>
    if 0 < microsToUsdc ask.considerationAmount ∧ (lower (trim buyerWallet)).isEmpty = false then
      basisRecords t contract (lower (trim buyerWallet)) (toNat tid)
    else []
  | _, _ => []

def recordedOwner (tokenContract : JsStr) (tokenId : Option JsStr) (buyerWallet : JsStr) :
    List BuyerRecord :=
  if (trim (tokenId.getD [])).isEmpty ∨ (trim tokenContract).isEmpty ∨
      isAddress (lower (trim buyerWallet)) = false then []
  else [⟨lower (trim tokenContract), tokenNumber (trim (tokenId.getD [])),
    lower (trim buyerWallet)⟩]

def fillRecords (env : Env) (t : Tables) (ask : Order) (buyerWallet costMicros : JsStr)
    (tokenId : Option JsStr) (chainId : Option ℕ) : List BuyerRecord :=
  settlementRecords env t ask ⟨buyerWallet, chainId⟩ ++
    seededBasis env t buyerWallet { ask with considerationAmount := costMicros } chainId ++
      recordedOwner ask.tokenContract tokenId buyerWallet

def bidRecords (env : Env) (t : Tables) (bid : Order) (buyerWallet : JsStr) (chainId : Option ℕ) :
    List BuyerRecord :=
  seededBasis env t buyerWallet { bid with
      side := .ask
      considerationAmount := (firstOfferAmount bid).getD bid.considerationAmount } chainId ++
    recordedOwner bid.tokenContract (some bid.tokenId) buyerWallet

/-- The records of an order that `fulfillOrder` has saved as fulfilled. -/
def orderRecords (env : Env) (t : Tables) (saved : Order) (buyerAddress : Option JsStr)
    (chainId : Option ℕ) : List BuyerRecord :=
  if blank buyerAddress then []
  else if saved.side = .ask then
    fillRecords env t saved (buyerAddress.getD []) saved.considerationAmount
      (resolveFulfilledAskTokenId saved) chainId
  else if !isCriteriaCollectionBidOrder saved && isTokenConsiderationBid saved then
    bidRecords env t saved (buyerAddress.getD []) chainId
  else []

theorem seededBasis_congr {u : Tables} (h : u.holdings = t.holdings) (buyerWallet : JsStr)
    (ask : Order) (chainId : Option ℕ) :
    seededBasis env u buyerWallet ask chainId = seededBasis env t buyerWallet ask chainId := by
  unfold seededBasis basisRecords hasManualBasis
  rw [h]

theorem settlementRecords_congr {u : Tables} (h : u.ledger = t.ledger) (ask : Order) (fill : Fill) :
    settlementRecords env u ask fill = settlementRecords env t ask fill := by
  have hsettlements : u.settlements = t.settlements := congrArg Ledger.settlements h
  rw [settlementRecords, h, hsettlements, settlementRecords]

theorem written_seedMarketplaceBuyFromAskFill (buyerWallet : JsStr) (ask : Order) (acquiredAt : ℕ)
    (chainId : Option ℕ) :
    written env x (seedMarketplaceBuyFromAskFill env buyerWallet ask acquiredAt chainId) t =
      seededBasis env t buyerWallet ask chainId := by
  unfold seedMarketplaceBuyFromAskFill seedMarketplaceBuyCostBasis seededBasis
  cases resolveFulfilledAskTokenId ask with
  | none => rfl
  | some tid =>
    cases env.getRwaAddress (chainId.getD env.getDefaultChainId) with
    | error e => split_ifs <;> rfl
    | ok contract =>
      dsimp only
      by_cases hcost : 0 < microsToUsdc ask.considerationAmount
      · rw [if_pos hcost]
        cases hempty : (lower (trim buyerWallet)).isEmpty with
        | true => rw [if_pos rfl, if_neg (by simp), written_pure]
        | false =>
          rw [if_neg Bool.false_ne_true, if_pos ⟨hcost, rfl⟩, written_db]
          rfl
      · rw [if_neg hcost, if_neg fun h => hcost h.1, written_pure]

theorem isEmpty_of_isAddress {s : JsStr} (h : isAddress s = true) : s.isEmpty = false := by
  cases s with
  | nil => cases h
  | cons c s => rfl

/-- An address is spelled once. -/
theorem lower_trim_lower_trim (s : JsStr) : lower (trim (lower (trim s))) = lower (trim s) := by
  rw [← lower_trim, trim_trim, lower_lower]

theorem written_recordOwner (tokenContract tokenId buyerWallet : JsStr) :
    written env x (recordOwner (trim tokenContract) (trim tokenId) (lower (trim buyerWallet))) t =
      if (trim tokenId).isEmpty ∨ isAddress (lower (trim buyerWallet)) = false then []
      else [⟨lower (trim tokenContract), tokenNumber (trim tokenId),
        lower (trim buyerWallet)⟩] := by
  unfold recordOwner
  rw [lower_trim_lower_trim, trim_trim, trim_trim]
  by_cases hno : (trim tokenId).isEmpty ∨ isAddress (lower (trim buyerWallet)) = false
  · rw [if_pos hno, if_pos (by simpa using hno), written_pure]
  · rw [if_neg hno, if_neg (by simpa using hno), written_db]
    rfl

theorem written_recordBuyerOwnershipAfterSettle (tokenContract : JsStr) (tokenId : Option JsStr)
    (buyerWallet : JsStr) (ask : Option Order) :
    written env x (recordBuyerOwnershipAfterSettle env tokenContract tokenId buyerWallet ask) t =
      recordedOwner tokenContract tokenId buyerWallet := by
  unfold recordBuyerOwnershipAfterSettle recordedOwner
  dsimp only
  by_cases hskip : (lower (trim buyerWallet)).isEmpty ∨ (trim (tokenId.getD [])).isEmpty ∨
      (trim tokenContract).isEmpty
  · rw [if_pos (by simpa [or_assoc] using hskip), written_pure, if_pos]
    rcases hskip with hbuyer | htoken | hcontract
    · refine .inr (.inr ?_)
      by_contra haddress
      rw [isEmpty_of_isAddress (Bool.eq_true_of_not_eq_false haddress)] at hbuyer
      cases hbuyer
    · exact .inl htoken
    · exact .inr (.inl hcontract)
  · rw [if_neg (by simpa [or_assoc] using hskip)]
    refine (written_bind_silent fun _ => ?_).trans ?_
    · cases restoredPolicy env ask with
      | none => exact Prog.issues_ret _
      | some policy => exact ⟨trivial, fun _ => Prog.issues_ret _⟩
    · obtain ⟨-, hnot⟩ := not_or.mp hskip
      obtain ⟨htoken, hcontract⟩ := not_or.mp hnot
      rw [written_recordOwner]
      simp only [htoken, hcontract, false_or, Bool.false_eq_true]

/-- The settlement leaves the holdings as they were. -/
theorem holdings_maybeCreateSelfVaultSettlement (ask : Order) (fill : Fill) (db : Ledger) :
    (maybeCreateSelfVaultSettlement env ask fill db).holdings = db.holdings := by
  have hlive : (livePolicy ask db).2.holdings = db.holdings := (livePolicy_records ask db).1
  have hcreate : ∀ p : FilledAsk, ∀ db : Ledger,
      (createFromFulfilledAsk env p db).2.holdings = db.holdings := by
    intro p db
    by_cases hhash : trim p.ask.orderHash = []
    · simp [createFromFulfilledAsk, hhash]
    · cases hsettled : db.settlementOf (trim p.ask.orderHash) with
      | some row => rw [createFromFulfilledAsk_of_settled hhash hsettled]
      | none =>
        rw [createFromFulfilledAsk_of_unsettled hhash hsettled]
        split_ifs <;> rfl
  unfold maybeCreateSelfVaultSettlement
  dsimp only
  split_ifs
  all_goals first | exact hlive | rw [hcreate, hlive]

/-- A failed seeding is logged. -/
theorem play_seedMarketplaceBuyFromAskFill (buyerWallet : JsStr) (ask : Order) (acquiredAt : ℕ)
    (chainId : Option ℕ) :
    ((seedMarketplaceBuyFromAskFill env buyerWallet ask acquiredAt chainId).play (solo env x) t).1 =
      .ok () := by
  unfold seedMarketplaceBuyFromAskFill seedMarketplaceBuyCostBasis
  cases resolveFulfilledAskTokenId ask with
  | none => rfl
  | some tid =>
    dsimp only
    split_ifs
    · rfl
    · cases env.getRwaAddress (chainId.getD env.getDefaultChainId) <;> rfl
    · rfl

theorem written_seed_bind (env : Env) (x : World) (t : Tables) (buyerWallet : JsStr) (ask : Order)
    (acquiredAt : ℕ) (chainId : Option ℕ) (tokenContract : JsStr) (tokenId : Option JsStr)
    (recorded : Option Order) :
    written env x (seedMarketplaceBuyFromAskFill env buyerWallet ask acquiredAt chainId >>= fun _ =>
        recordBuyerOwnershipAfterSettle env tokenContract tokenId buyerWallet recorded) t =
      seededBasis env t buyerWallet ask chainId ++
        recordedOwner tokenContract tokenId buyerWallet := by
  rw [written_bind, written_seedMarketplaceBuyFromAskFill, play_seedMarketplaceBuyFromAskFill]
  exact congrArg _ (written_recordBuyerOwnershipAfterSettle _ _ _ _)

theorem written_recordAskFill (ask : Order) (buyerWallet costMicros : JsStr)
    (tokenId : Option JsStr) (chainId : Option ℕ) :
    written env x (recordAskFill env ask buyerWallet costMicros tokenId chainId) t =
      fillRecords env t ask buyerWallet costMicros tokenId chainId := by
  let u := t.withLedger (maybeCreateSelfVaultSettlement env ask ⟨buyerWallet, chainId⟩ t.ledger)
  have hholdings : u.holdings = t.holdings := holdings_maybeCreateSelfVaultSettlement _ _ _
  have hrest := written_seed_bind env x u buyerWallet
    { ask with considerationAmount := costMicros } ask.updatedAt chainId ask.tokenContract tokenId
      (some ask)
  rw [seededBasis_congr hholdings] at hrest
  rw [recordAskFill, written_bind, written_db, fillRecords, List.append_assoc]
  exact congrArg _ hrest

/-- Statements that clear other asks leave what the records are made of. -/
theorem play_clearAsks (env : Env) (x : World) (t : Tables) (contract : JsStr)
    (tokenId : Option JsStr) (except : Option ℕ) :
    ∃ u, (clearAsks contract tokenId except).play (solo env x) t = (.ok (), u) ∧
      u.ledger = t.ledger := by
  cases tokenId with
  | none => exact ⟨t, rfl, rfl⟩
  | some tid => exact ⟨_, rfl, rfl⟩

theorem silent_clearAsks (contract : JsStr) (tokenId : Option JsStr) (except : Option ℕ) :
    (clearAsks contract tokenId except).Issues Silent := by
  cases tokenId with
  | none => exact Prog.issues_ret _
  | some tid => exact ⟨trivial, fun _ => ⟨trivial, fun _ => Prog.issues_ret _⟩⟩

theorem fillRecords_congr {u : Tables} (h : u.ledger = t.ledger) (ask : Order)
    (buyerWallet costMicros : JsStr) (tokenId : Option JsStr) (chainId : Option ℕ) :
    fillRecords env u ask buyerWallet costMicros tokenId chainId =
      fillRecords env t ask buyerWallet costMicros tokenId chainId := by
  have hholdings : u.holdings = t.holdings := congrArg Ledger.holdings h
  rw [fillRecords, settlementRecords_congr h, seededBasis_congr hholdings, fillRecords]

theorem written_afterFulfilled (saved : Order) (buyerAddress : Option JsStr) (chainId : Option ℕ) :
    written env x (afterFulfilled env saved buyerAddress chainId) t =
      orderRecords env t saved buyerAddress chainId := by
  unfold afterFulfilled orderRecords
  by_cases hside : saved.side = .ask
  · obtain ⟨u, hplay, hledger⟩ := play_clearAsks env x t saved.tokenContract
      (resolveFulfilledAskTokenId saved) (some saved.id)
    rw [if_pos hside, if_pos hside, afterAskFulfilled, written_silent_bind (silent_clearAsks _ _ _),
      hplay]
    change written env x (recordAskBuyer env saved buyerAddress chainId) u = _
    unfold recordAskBuyer
    cases blank buyerAddress with
    | true => rfl
    | false =>
      rw [if_neg Bool.false_ne_true, if_neg Bool.false_ne_true, written_recordAskFill,
        fillRecords_congr hledger]
  · rw [if_neg hside, if_neg hside]
    by_cases hbid : (!isCriteriaCollectionBidOrder saved && isTokenConsiderationBid saved) = true
    · rw [if_pos hbid, if_pos hbid, afterTokenBidFulfilled]
      generalize (if (normalizeDecimalTokenId saved.tokenId).isEmpty then none
        else some (normalizeDecimalTokenId saved.tokenId)) = tid
      obtain ⟨u, hplay, hledger⟩ := play_clearAsks env x t saved.tokenContract
        tid none
      have hholdings : u.holdings = t.holdings := congrArg Ledger.holdings hledger
      rw [written_silent_bind (silent_clearAsks _ _ _), hplay]
      change written env x (recordBidBuyer env saved buyerAddress chainId) u = _
      unfold recordBidBuyer
      cases blank buyerAddress with
      | true => rfl
      | false =>
        rw [if_neg Bool.false_ne_true, if_neg Bool.false_ne_true, bidRecords]
        exact (written_seed_bind _ _ _ _ _ _ _ _ _ _).trans (by rw [seededBasis_congr hholdings])
    · rw [if_neg hbid, if_neg hbid, ite_self]
      rfl

end Writes

end Orders
