import Tokenable.Orders.FillHistory
import Tokenable.Orders.LeaveActive

/-!
# Orders become FULFILLED with evidence only

Each save that marks a row as fulfilled comes after a check of the row that was loaded. What the
check has established is a fact about answers that were given, so it still holds at the save,
whatever the other calls did in between.
-/

namespace Orders
open Js Platform Async Db Vault Settlement Backend

variable {h : History} {chainId : ℕ} {K : Moment → Prop}

section Rows

theorem mem_latestFirst {x : Order} {rows : List Order} : x ∈ Tables.latestFirst rows ↔ x ∈ rows :=
  (List.perm_insertionSort _ rows).mem_iff

theorem mem_ordersOfCollection {t : Tables} {key rwa : JsStr} {side : OrderSide}
    {status : Option OrderStatus} {take : ℕ} {o : Order}
    (ho : o ∈ t.ordersOfCollection key rwa side status take) :
    o ∈ t.orders.rows ∧ o.collectionKey.map lower = some key ∧ o.side = side ∧
      lower o.tokenContract = rwa := by
  obtain ⟨hmem, hp⟩ := Table.mem_find.mp (mem_latestFirst.mp (List.mem_of_mem_take ho))
  simp only [Bool.and_eq_true, decide_eq_true_eq] at hp
  exact ⟨hmem, hp.1.1.1, hp.1.1.2, hp.2⟩

theorem contractOf_eq {env : Env} {o : Order} (hchain : OnChain env chainId o) :
    contractOf o = lower o.tokenContract := by
  rw [contractOf, trim_of_isAddress_lower (isAddress_of_contractAddress hchain)]

theorem collectionOf_eq {ask bid : Order}
    (hkey : ask.collectionKey.map lower = some (collectionOf bid)) :
    collectionOf ask = collectionOf bid := by
  obtain ⟨k, hk, hlower⟩ := Option.map_eq_some_iff.mp hkey
  have htrim : trim (collectionOf bid) = collectionOf bid := by
    rw [collectionOf, ← lower_trim, trim_trim]
  calc collectionOf ask = lower (trim k) := by rw [collectionOf, hk, Option.getD_some]
    _ = trim (lower k) := lower_trim k
    _ = collectionOf bid := by rw [hlower, htrim]

/-- A candidate of the pairing loop or of the ownership check of a bid. -/
structure Candidate (h : History) (order : Order) (side : OrderSide) (o : Order) : Prop where
  row : RowOf h.book o
  side : o.side = side
  contract : lower o.tokenContract = lower order.tokenContract
  collection : collectionOf o = collectionOf order

theorem candidates_triple {order : Order} (hchain : OnChain h.env chainId order) (side : OrderSide)
    (status : Option OrderStatus) (take : ℕ) :
    FillTriple h K (db (.ordersOfCollection (collectionOf order) (contractOf order) side status take))
      (fun (found : List Order) _ => ∀ o ∈ found, Candidate h order side o) := by
  refine triple_read (by trivial) fun s hs o ho => ?_
  obtain ⟨hmem, hkey, hside, hcontract⟩ := mem_ordersOfCollection ho
  exact ⟨hs.rowOf hmem, hside, hcontract.trans (contractOf_eq hchain), collectionOf_eq hkey⟩

theorem findByHash_triple (orderHash : JsStr) :
    FillTriple h K (findByHash orderHash)
      (fun o _ => RowOf h.book o ∧ o.orderHash = orderHash) := by
  have hread : FillTriple h K (db (.orderByHash orderHash)) (fun (found : Option Order) _ =>
      ∀ o, found = some o → RowOf h.book o ∧ o.orderHash = orderHash) := by
    refine triple_read (by trivial) fun s hs o ho => ⟨hs.rowOf (List.mem_of_find?_eq_some ho), ?_⟩
    simpa using List.find?_some ho
  refine triple_bind hread fun found => ?_
  refine triple_bind (F := fun o _ => RowOf h.book o ∧ o.orderHash = orderHash)
    (triple_orThrow fun o ho s hs => hs o ho) fun o => ?_
  exact triple_bind (triple_quiet (persistent_const _) (quiet_orThrowAnswer (quiet_rpc _)))
    fun _ => triple_ok fun s hs => hs

end Rows

section Evidence

theorem persistent_evidence {x : Order} : h.contract.Persistent (fun s => FillEvidence h s.2 x) :=
  persistent_of_mono (P := fun n => FillEvidence h n x) fun _ _ hnm hx => hx.mono hnm

theorem criteriaBidShowsInboundOwnership_triple {bid : Order} (hchain : OnChain h.env chainId bid)
    (hside : bid.side = .bid) :
    FillTriple h K (criteriaBidShowsInboundOwnership h.env bid chainId)
      (fun b s => b = true → FillEvidence h s.2 bid) := by
  unfold criteriaBidShowsInboundOwnership
  split_ifs
  · exact triple_ok fun s _ hb => by cases hb
  · refine FillTriple.weaken (triple_seq (persistent_const True)
      (candidates_triple hchain .ask none 30) fun asks => ?_)
    refine triple_conseq (triple_frame (persistent_const _) (anySettledAsk_triple bid chainId asks))
      (fun s hs => ⟨hs.2, hs.1⟩) fun b s hs hb => ?_
    rcases hs.1 hb with hfilled | ⟨ask, hask, hconsumed, hreceived⟩
    · exact .filled chainId hchain hfilled
    · obtain ⟨hrow, hasks, hcontract, hcollection⟩ := hs.2 ask hask
      exact .received chainId hchain hside ask hrow hasks hcontract (.inr (.inr hcollection))
        hconsumed hreceived

theorem isActiveOrderConsumedForReconcile_triple {order : Order}
    (hchain : OnChain h.env chainId order) :
    FillTriple h K (isActiveOrderConsumedForReconcile h.env order chainId)
      (fun b s => b = true → FillEvidence h s.2 order) := by
  refine FillTriple.weaken (orElse_triple (persistent_const True) ?_ ?_)
  · exact triple_conseq (isSeaportOrderFullyFilledOnChain_triple order chainId) (fun _ hs => hs)
      fun b s hs hb => .filled chainId hchain (hs hb)
  · cases hside : order.side with
    | ask =>
      refine triple_conseq (isAskListingConsumedOnChain_triple order chainId) (fun _ hs => hs)
        fun b s hs hb => ?_
      exact (hs hb).elim (.filled chainId hchain) (.moved chainId hchain hside)
    | bid => exact criteriaBidShowsInboundOwnership_triple hchain hside

/-- The ask of a fill that names its buyer: Seaport filled it, or the buyer has its token. -/
theorem assertOrderSettledForFulfill_triple (order : Order) (buyerAddress : Option JsStr)
    (chainId : ℕ) :
    FillTriple h K (assertOrderSettledForFulfill h.env order buyerAddress chainId)
      (fun _ s => h.Filled s.2 chainId order ∨ order.side = .ask ∧ h.Moved s.2 chainId order) := by
  refine FillTriple.weaken (triple_settle (persistent_const True)
    (assertSeaportOrderFilledOnChain_triple order chainId)
    (fun _ => triple_ok fun s hs => .inl hs) fun e => ?_)
  cases e with
  | badRequest message =>
    refine triple_bind (triple_throwIf (G := fun _ => order.side = .ask)
      fun hb _ _ => by simpa using (Bool.or_eq_false_iff.mp hb).1) fun _ => ?_
    refine triple_seq (persistent_const _) (readOnChainRwaOwner_triple _ _ _) fun owner => ?_
    refine triple_throwIf fun hb s hs => .inr ⟨hs.2, owner, hs.1, ?_⟩
    have hboth : owner = lower (trim (buyerAddress.getD [])) ∧
        owner ≠ lower (trim order.offerer) := by simpa using hb
    exact hboth.2
  | _ => exact triple_error

theorem assertBidSettledForMatchedPair_triple (bid ask : Order) (chainId : ℕ) :
    FillTriple h K (assertBidSettledForMatchedPair h.env bid ask chainId)
      (fun _ s => h.Filled s.2 chainId bid ∨ h.Received s.2 chainId bid ask) := by
  refine FillTriple.weaken (triple_settle (persistent_const True)
    (assertSeaportOrderFilledOnChain_triple bid chainId)
    (fun _ => triple_ok fun s hs => .inl hs) fun e => ?_)
  cases e with
  | badRequest message =>
    refine triple_bind (isBidSettledForAsk_triple bid ask chainId) fun settled => ?_
    exact triple_throwIf fun hb s hs => hs (by simpa using hb)
  | _ => exact triple_error

end Evidence

section Saves

/-- Saves of fulfilled rows with evidence keep the invariant. -/
theorem saveOrders_triple (rows : List (Order × Order))
    (hrows : ∀ p ∈ rows, p.1 ∈ h.book.orders.rows ∧ SameListing p.1 p.2 ∧
      p.2.status = .fulfilled) :
    FillTriple h (fun s => ∀ p ∈ rows, FillEvidence h s.2 p.1) (db (.saveOrders rows))
      (fun _ _ => True) := by
  have hK : h.contract.Persistent (fun s => ∀ p ∈ rows, FillEvidence h s.2 p.1) :=
    persistent_of_mono (P := fun n => ∀ p ∈ rows, FillEvidence h n p.1)
      fun _ _ hnm hall p hp => (hall p hp).mono hnm
  refine triple_call hK fun i t ht hevidence _ d r u hu => ?_
  obtain ⟨-, rfl⟩ := handler_auto hu
  have hle : t.2 ≤ t.2 + d := Nat.le_add_right _ _
  refine ⟨ht.later hle ((runAuto_pending _).trans ht.idle) fun y hy => ?_, hle, fun _ _ => trivial⟩
  rcases mem_orders_runAuto hy with hold | hnew
  · exact .inl hold
  · rcases Table.mem_saveAll hnew with hsaved | ⟨hold, -⟩
    · obtain ⟨p, hp, rfl⟩ := List.mem_map.mp hsaved
      obtain ⟨hbook, hsame, hfulfilled⟩ := hrows p hp
      refine .inr ⟨p.1, hbook, hsame, by simp [hfulfilled], fun _ => ?_⟩
      exact .inr ((hevidence p hp).mono hle)
    · exact .inl hold

theorem SameListing.dated {x y : Order} (hxy : SameListing x y) (at_ : ℕ) :
    SameListing x { y with updatedAt := at_ } := hxy.closed y.status at_

theorem saveOrder_triple {order row : Order} (hbook : order ∈ h.book.orders.rows)
    (hsame : SameListing order row) (hfulfilled : row.status = .fulfilled) :
    FillTriple h (fun s => FillEvidence h s.2 order) (saveOrder order row) (fun _ _ => True) := by
  refine triple_seq persistent_evidence (triple_rpc .now) fun at_ => ?_
  have hsave := saveOrders_triple (h := h) [(order, { row with updatedAt := at_ })]
    (by simpa using ⟨hbook, hsame.dated at_, hfulfilled⟩)
  refine triple_bind (triple_conseq hsave (fun s hs => by simpa using hs.2) fun _ _ hF => hF) ?_
  exact fun _ => triple_ok fun _ _ => trivial

theorem resolveFulfilledAskTokenId_congr {x y : Order} (hside : y.side = x.side)
    (htoken : y.tokenId = x.tokenId) (hoffer : y.parameters.offer = x.parameters.offer) :
    resolveFulfilledAskTokenId y = resolveFulfilledAskTokenId x := by
  simp only [resolveFulfilledAskTokenId, hside, htoken, hoffer]

/-- Completing the token id of a listing. -/
theorem SameListing.backfill {x y : Order} (hxy : SameListing x y) (htoken : y.tokenId = x.tokenId)
    (hoffer : y.parameters.offer = x.parameters.offer) :
    SameListing x (backfillAskTokenIdFromParameters y) := by
  have hresolve := resolveFulfilledAskTokenId_congr hxy.side htoken hoffer
  unfold backfillAskTokenIdFromParameters
  split_ifs with hdone
  · exact hxy
  · refine ⟨hxy.id, hxy.orderHash, hxy.offerer, hxy.side, hxy.tokenContract, hxy.collectionKey,
      hxy.parameters, .inr ?_⟩
    rw [hxy.side, htoken] at hdone
    simp only [backfillAskTokenIdFromParameters, if_neg hdone, hresolve, htoken]

theorem status_backfill (o : Order) : (backfillAskTokenIdFromParameters o).status = o.status := by
  unfold backfillAskTokenIdFromParameters
  split_ifs <;> rfl

theorem markFulfilled_same (order : Order) (buyerAddress fillTxHash : Option JsStr) :
    SameListing order (markFulfilled order buyerAddress fillTxHash) ∧
      (markFulfilled order buyerAddress fillTxHash).status = .fulfilled := by
  cases hside : order.side with
  | ask =>
    simp only [markFulfilled, hside]
    refine ⟨SameListing.backfill ?_ rfl rfl, status_backfill _⟩
    exact ⟨rfl, rfl, rfl, hside.symm, rfl, rfl, rfl, .inl rfl⟩
  | bid =>
    simp only [markFulfilled, hside]
    exact ⟨⟨rfl, rfl, rfl, hside.symm, rfl, rfl, rfl, .inl rfl⟩, trivial⟩

theorem matchedAsk_same (ask bid : Order) :
    SameListing ask (matchedAsk ask bid) ∧ (matchedAsk ask bid).status = .fulfilled := by
  refine ⟨SameListing.backfill ?_ rfl rfl, status_backfill _⟩
  exact ⟨rfl, rfl, rfl, rfl, rfl, rfl, rfl, .inl rfl⟩

theorem matchedBid_same (ask bid : Order) :
    SameListing bid (matchedBid ask bid) ∧ (matchedBid ask bid).status = .fulfilled :=
  ⟨⟨rfl, rfl, rfl, rfl, rfl, rfl, rfl, .inl rfl⟩, rfl⟩

end Saves

section Operations

def HashOnChain (h : History) (chainId : ℕ) (orderHash : JsStr) : Prop :=
  ∀ x ∈ h.book.orders.rows, x.orderHash = orderHash → OnChain h.env chainId x

/-- `IDX_orders_order_hash` is unique. -/
def UniqueHashes (book : Tables) : Prop :=
  ∀ x ∈ book.orders.rows, ∀ y ∈ book.orders.rows, x.orderHash = y.orderHash → x = y

theorem RowOf.mem {o : Order} (ho : RowOf h.book o) (hactive : o.status = .active) :
    o ∈ h.book.orders.rows := by
  obtain ⟨x, hx, -, heq⟩ := ho
  exact heq hactive ▸ hx

theorem RowOf.onChain {o : Order} {orderHash : JsStr} (ho : RowOf h.book o)
    (hhash : o.orderHash = orderHash) (hchain : HashOnChain h chainId orderHash) :
    OnChain h.env chainId o := by
  obtain ⟨x, hx, hsame, -⟩ := ho
  have hxchain := hchain x hx (hsame.orderHash.symm.trans hhash)
  rwa [OnChain, ← hsame.tokenContract] at hxchain

/-- The hash of a row names a listing on the chain of the row. -/
theorem RowOf.hashOnChain {o : Order} (hunique : UniqueHashes h.book) (ho : RowOf h.book o)
    (hchain : OnChain h.env chainId o) : HashOnChain h chainId o.orderHash := by
  intro x hx hhash
  obtain ⟨y, hy, hsame, -⟩ := ho
  obtain rfl := hunique x hx y hy (hhash.trans hsame.orderHash)
  rwa [OnChain, ← hsame.tokenContract]

abbrev KeepsEvidence {α : Type} (h : History) (p : BackendM α) : Prop :=
  FillTriple h (fun _ => True) p (fun _ _ => True)

theorem fulfillOrder_keeps {orderHash : JsStr} {buyerAddress : Option JsStr}
    {chainId : Option ℕ} {fillTxHash : Option JsStr}
    (hchain : HashOnChain h (chainId.getD h.env.getDefaultChainId) orderHash) :
    KeepsEvidence h (fulfillOrder h.env orderHash buyerAddress chainId fillTxHash) := by
  refine triple_bind (findByHash_triple orderHash) fun order => ?_
  refine triple_bind (triple_throwIf (G := fun _ => order ∈ h.book.orders.rows ∧
    OnChain h.env (chainId.getD h.env.getDefaultChainId) order) fun hb s hs => ?_) fun _ => ?_
  · exact ⟨hs.1.mem (by simpa using hb), hs.1.onChain hs.2 hchain⟩
  refine triple_of_fact fun ⟨hbook, honchain⟩ => ?_
  refine triple_bind (F := fun _ s => FillEvidence h s.2 order) ?_ fun _ => ?_
  · refine triple_conseq (assertOrderSettledForFulfill_triple order buyerAddress _)
      (fun _ hs => hs) fun _ s hs => ?_
    exact hs.elim (.filled _ honchain) fun hmoved => .moved _ honchain hmoved.1 hmoved.2
  refine triple_bind (triple_quiet persistent_evidence (assertNotHoldBidOnly_quiet order))
    fun _ => ?_
  obtain ⟨hsame, hfulfilled⟩ := markFulfilled_same order buyerAddress fillTxHash
  refine triple_bind (saveOrder_triple hbook hsame hfulfilled) fun saved => ?_
  exact triple_bind (triple_quiet (persistent_const True) (afterFulfilled_quiet saved _ _))
    fun _ => triple_ok fun _ _ => trivial

theorem sameCollection_of_matched {ask bid : Order} (herror : matchedPairError ask bid = none) :
    SameCollection ask bid := by
  by_contra hnot
  simp only [SameCollection, not_or] at hnot
  obtain ⟨hask, hbid, hne⟩ := hnot
  have hkey : ∀ o : Order, ¬ (collectionOf o).isEmpty = true →
      ∃ k, o.collectionKey = some k ∧ o.collectionKey.filter (fun k => !k.isEmpty) = some k := by
    intro o ho
    cases hk : o.collectionKey with
    | none => simp [collectionOf, hk, trim, lower] at ho
    | some k =>
      refine ⟨k, rfl, ?_⟩
      cases k with
      | nil => simp [collectionOf, hk, trim, lower] at ho
      | cons c k => rfl
  obtain ⟨ka, hka, hfa⟩ := hkey ask hask
  obtain ⟨kb, hkb, hfb⟩ := hkey bid hbid
  have hlower : lower ka = lower kb := by
    by_contra hlower
    simp [matchedPairError, hfa, hfb, hlower] at herror
    split_ifs at herror
  apply hne
  rw [collectionOf, collectionOf, hka, hkb, Option.getD_some, Option.getD_some, lower_trim,
    lower_trim, hlower]

theorem settleMatchedPair_keeps {ask bid : Order} {chainId : Option ℕ}
    (hask : ask ∈ h.book.orders.rows) (hbid : bid ∈ h.book.orders.rows) :
    FillTriple h (fun s => FillEvidence h s.2 ask ∧ FillEvidence h s.2 bid)
      (settleMatchedPair h.env ask bid chainId) (fun _ _ => True) := by
  obtain ⟨hsameAsk, hfulfilledAsk⟩ := matchedAsk_same ask bid
  obtain ⟨hsameBid, hfulfilledBid⟩ := matchedBid_same ask bid
  refine triple_seq (persistent_and persistent_evidence persistent_evidence) (triple_rpc .now)
    fun at_ => ?_
  have hsave := saveOrders_triple (h := h) [(ask, { matchedAsk ask bid with updatedAt := at_ }),
      (bid, { matchedBid ask bid with updatedAt := at_ })] (by
    simpa using ⟨⟨hask, hsameAsk.dated at_, hfulfilledAsk⟩, hbid, hsameBid.dated at_, hfulfilledBid⟩)
  refine triple_bind (triple_conseq hsave (fun s hs => by simpa using hs.2) fun _ _ hF => hF)
    fun _ => ?_
  refine triple_bind (triple_quiet (persistent_const True) (cancelActiveAsks_quiet _ _ _))
    fun _ => ?_
  exact triple_bind (triple_quiet (persistent_const True) (recordAskFill_quiet _ _ _ _ _))
    fun _ => triple_ok fun _ _ => trivial

/-- A listing and a bid of the book that may be matched on the chain. -/
structure MatchedRows (h : History) (chainId : ℕ) (ask bid : Order) : Prop where
  askRow : ask ∈ h.book.orders.rows
  bidRow : bid ∈ h.book.orders.rows
  askSide : ask.side = .ask
  bidSide : bid.side = .bid
  askChain : OnChain h.env chainId ask
  bidChain : OnChain h.env chainId bid

theorem MatchedRows.askEvidence {ask bid : Order} {n : ℕ} (hrows : MatchedRows h chainId ask bid)
    (hconsumed : h.Filled n chainId ask ∨ h.Moved n chainId ask) : FillEvidence h n ask :=
  hconsumed.elim (.filled chainId hrows.askChain) (.moved chainId hrows.askChain hrows.askSide)

theorem MatchedRows.bidEvidence {ask bid : Order} {n : ℕ} (hrows : MatchedRows h chainId ask bid)
    (hcollection : SameCollection ask bid)
    (hconsumed : h.Filled n chainId ask ∨ h.Moved n chainId ask)
    (hsettled : h.Filled n chainId bid ∨ h.Received n chainId bid ask) : FillEvidence h n bid := by
  have hcontract : lower ask.tokenContract = lower bid.tokenContract :=
    Except.ok.inj (hrows.askChain.symm.trans hrows.bidChain)
  have hrow : RowOf h.book ask := ⟨ask, hrows.askRow, SameListing.refl ask, fun _ => rfl⟩
  exact hsettled.elim (.filled chainId hrows.bidChain)
    (.received chainId hrows.bidChain hrows.bidSide ask hrow hrows.askSide hcontract hcollection
      hconsumed)

theorem fulfillMatchedPair_keeps {askHash bidHash : JsStr} {chainId : Option ℕ}
    (hask : HashOnChain h (chainId.getD h.env.getDefaultChainId) askHash)
    (hbid : HashOnChain h (chainId.getD h.env.getDefaultChainId) bidHash) :
    KeepsEvidence h (fulfillMatchedPair h.env askHash bidHash chainId) := by
  refine triple_bind (findByHash_triple askHash) fun ask => ?_
  refine triple_seq (persistent_const _) (findByHash_triple bidHash) fun bid => ?_
  refine triple_bind (triple_throwIf (G := fun _ => (ask.side = .ask ∧ bid.side = .bid) ∧
    (RowOf h.book bid ∧ bid.orderHash = bidHash) ∧ (RowOf h.book ask ∧ ask.orderHash = askHash))
    fun hb s hs => ⟨by simpa using hb, hs⟩) fun _ => ?_
  refine triple_bind (triple_throwIf (G := fun _ => MatchedRows h
    (chainId.getD h.env.getDefaultChainId) ask bid) fun hb s hs => ?_) fun _ => ?_
  · obtain ⟨hactiveAsk, hactiveBid⟩ : ask.status = .active ∧ bid.status = .active := by
      simpa using hb
    obtain ⟨⟨hsideAsk, hsideBid⟩, ⟨hrowBid, hhashBid⟩, hrowAsk, hhashAsk⟩ := hs
    exact ⟨hrowAsk.mem hactiveAsk, hrowBid.mem hactiveBid, hsideAsk, hsideBid,
      hrowAsk.onChain hhashAsk hask, hrowBid.onChain hhashBid hbid⟩
  refine triple_of_fact fun hrows => ?_
  refine triple_bind (F := fun _ s => h.Filled s.2 (chainId.getD h.env.getDefaultChainId) ask ∨
    h.Moved s.2 (chainId.getD h.env.getDefaultChainId) ask) ?_ fun _ => ?_
  · exact triple_conseq (assertOrderSettledForFulfill_triple ask _ _) (fun _ hs => hs)
      fun _ s hs => hs.imp_right And.right
  refine triple_seq persistent_moved (assertBidSettledForMatchedPair_triple bid ask _) fun _ => ?_
  cases herror : matchedPairError ask bid with
  | some e => exact triple_error
  | none =>
    refine triple_conseq (settleMatchedPair_keeps hrows.askRow hrows.bidRow) (fun s hs => ?_)
      fun _ _ hF => hF
    exact ⟨hrows.askEvidence hs.2, hrows.bidEvidence (sameCollection_of_matched herror) hs.2 hs.1⟩

/-- One candidate of a pairing loop. -/
theorem tryPair_keeps {askHash bidHash : JsStr} (hask : HashOnChain h chainId askHash)
    (hbid : HashOnChain h chainId bidHash) :
    KeepsEvidence h (tryPair h.env askHash bidHash chainId) := by
  have hpair : KeepsEvidence h (fulfillMatchedPair h.env askHash bidHash (some chainId)) :=
    fulfillMatchedPair_keeps hask hbid
  refine triple_settle (persistent_const True) hpair ?_ ?_
  · exact fun _ => triple_ok fun _ _ => trivial
  · exact fun _ => triple_ok fun _ _ => trivial

/-- `p || q`, where only the invariant matters. -/
theorem orElse_keeps {p q : BackendM Bool} (hp : KeepsEvidence h p) (hq : KeepsEvidence h q) :
    KeepsEvidence h (orElse p q) := by
  refine triple_bind hp fun b => ?_
  cases b with
  | true => exact triple_ok fun _ _ => trivial
  | false => exact hq

theorem Candidate.hashOnChain {order o : Order} {side : OrderSide} (hunique : UniqueHashes h.book)
    (ho : Candidate h order side o) (hchain : OnChain h.env chainId order) :
    HashOnChain h chainId o.orderHash :=
  ho.row.hashOnChain hunique (by rwa [OnChain, ho.contract])

theorem keeps_of_quiet {α : Type} {p : BackendM α} (hp : p.Issues Quiet) : KeepsEvidence h p :=
  triple_quiet (persistent_const True) hp

theorem tryAsks_keeps {bid : Order} (hunique : UniqueHashes h.book) (hrow : RowOf h.book bid)
    (hchain : OnChain h.env chainId bid) {asks : List Order}
    (hasks : ∀ o ∈ asks, Candidate h bid .ask o) :
    KeepsEvidence h (tryAsks h.env bid chainId asks) := by
  induction asks with
  | nil => exact triple_ok fun _ _ => trivial
  | cons ask asks ih =>
    have hrest := ih fun o ho => hasks o (.tail _ ho)
    refine triple_bind (keeps_of_quiet (isAskListingConsumedOnChain_quiet ask chainId))
      fun consumed => ?_
    cases consumed with
    | false => exact hrest
    | true =>
      refine triple_bind (keeps_of_quiet (isBidSettledForAsk_quiet bid ask chainId))
        fun settled => ?_
      cases settled with
      | false => exact hrest
      | true =>
        refine orElse_keeps (tryPair_keeps ?_ (hrow.hashOnChain hunique hchain)) hrest
        exact (hasks ask (.head _)).hashOnChain hunique hchain

theorem tryBids_keeps {ask : Order} (hunique : UniqueHashes h.book) (hrow : RowOf h.book ask)
    (hchain : OnChain h.env chainId ask) {bids : List Order}
    (hbids : ∀ o ∈ bids, Candidate h ask .bid o) :
    KeepsEvidence h (tryBids h.env ask chainId bids) := by
  induction bids with
  | nil => exact triple_ok fun _ _ => trivial
  | cons bid bids ih =>
    have hrest := ih fun o ho => hbids o (.tail _ ho)
    refine triple_bind (keeps_of_quiet (isBidSettledForAsk_quiet bid ask chainId))
      fun settled => ?_
    cases settled with
    | false => exact hrest
    | true =>
      refine orElse_keeps (tryPair_keeps (hrow.hashOnChain hunique hchain) ?_) hrest
      exact (hbids bid (.head _)).hashOnChain hunique hchain

theorem tryFulfillMatchedPairForConsumedOrder_keeps {order : Order}
    (hunique : UniqueHashes h.book) (hrow : RowOf h.book order)
    (hchain : OnChain h.env chainId order) :
    KeepsEvidence h (tryFulfillMatchedPairForConsumedOrder h.env order chainId) := by
  unfold tryFulfillMatchedPairForConsumedOrder
  split_ifs
  · exact triple_ok fun _ _ => trivial
  · cases order.side with
    | bid =>
      refine triple_bind (candidates_triple hchain .ask (some .active) 20) fun asks => ?_
      exact triple_of_fact fun hasks => tryAsks_keeps hunique hrow hchain hasks
    | ask =>
      refine triple_bind (candidates_triple hchain .bid (some .active) 20) fun bids => ?_
      exact triple_of_fact fun hbids => tryBids_keeps hunique hrow hchain hbids

theorem selfFillParameters_triple (order : Order) (chainId : ℕ) :
    FillTriple h (fun _ => True) (selfFillParameters h.env order chainId) (fun parameters _ =>
      seaportHashableParameters parameters = seaportHashableParameters order.parameters) := by
  unfold selfFillParameters
  split_ifs
  · exact triple_ok fun _ _ => rfl
  · refine triple_bind (keeps_of_quiet (isSeaportOrderFullyFilledOnChain_quiet order chainId))
      fun filled => ?_
    cases filled with
    | false => exact triple_ok fun _ _ => rfl
    | true =>
      refine triple_bind (keeps_of_quiet (selfFillOwner_quiet order chainId)) fun owner => ?_
      dsimp only
      split_ifs <;> exact triple_ok fun _ _ => rfl

theorem reconcileOrder_keeps {order : Order} (hunique : UniqueHashes h.book)
    (hrow : RowOf h.book order) (hchain : OnChain h.env chainId order) :
    KeepsEvidence h (reconcileOrder h.env order chainId) := by
  unfold reconcileOrder
  by_cases hactive : order.status = .active
  · simp only [hactive, ne_eq, not_true_eq_false, if_false]
    refine triple_bind (isActiveOrderConsumedForReconcile_triple hchain) fun consumed => ?_
    cases consumed with
    | false => exact triple_ok fun _ _ => trivial
    | true =>
      refine triple_conseq (K := fun s => FillEvidence h s.2 order) ?_ (fun s hs => hs rfl)
        fun _ _ hF => hF
      have hpaired := tryFulfillMatchedPairForConsumedOrder_keeps hunique hrow hchain
      refine triple_seq persistent_evidence (FillTriple.weaken hpaired) fun paired => ?_
      cases paired with
      | true => exact triple_ok fun _ _ => trivial
      | false =>
        refine triple_conseq (K := fun s => FillEvidence h s.2 order) ?_ (fun s hs => hs.2)
          fun _ _ hF => hF
        refine triple_seq persistent_evidence
          (FillTriple.weaken (selfFillParameters_triple order chainId)) fun parameters => ?_
        intro i s hs
        have hsame : SameListing order
            { order with status := .fulfilled, parameters := parameters } :=
          ⟨rfl, rfl, rfl, rfl, rfl, rfl, hs.1, .inl rfl⟩
        exact triple_bind (saveOrder_triple (hrow.mem hactive) hsame rfl)
          (fun _ => triple_ok fun _ _ => trivial) i s hs.2
  · simp only [hactive, ne_eq, not_false_eq_true, if_true]
    exact triple_ok fun _ _ => trivial

theorem reconcileOnChainFilledActiveOrders_keeps (hunique : UniqueHashes h.book)
    {orders : List Order} (horders : ∀ o ∈ orders, RowOf h.book o ∧ OnChain h.env chainId o) :
    KeepsEvidence h (reconcileOnChainFilledActiveOrders h.env chainId orders) := by
  induction orders with
  | nil => exact triple_ok fun _ _ => trivial
  | cons order orders ih =>
    obtain ⟨hrow, hchain⟩ := horders order (.head _)
    exact triple_bind (reconcileOrder_keeps hunique hrow hchain)
      fun _ => ih fun o ho => horders o (.tail _ ho)

/-- A row that a wallet view finds is on the chain of the view. -/
theorem FillInv.found {s : Moment} (hs : FillInv h s) {rwa : JsStr}
    (hrwa : h.env.getRwaAddress chainId = .ok rwa) {p : Order → Bool} {take : ℕ} {o : Order}
    (hp : ∀ o, p o = true → lower o.tokenContract = rwa)
    (ho : o ∈ (Tables.latestFirst (s.1.stored.orders.find p)).take take) :
    RowOf h.book o ∧ OnChain h.env chainId o := by
  obtain ⟨hmem, hpo⟩ := Table.mem_find.mp (mem_latestFirst.mp (List.mem_of_mem_take ho))
  exact ⟨hs.rowOf hmem, by rw [OnChain, hp o hpo, hrwa]⟩

theorem findActiveAsksByOfferer_keeps (hunique : UniqueHashes h.book) (offererAddress : JsStr)
    (limit : Option ℕ) (chainId : ℕ) :
    KeepsEvidence h (findActiveAsksByOfferer h.env offererAddress limit chainId) := by
  unfold findActiveAsksByOfferer
  split_ifs
  · exact triple_ok fun _ _ => trivial
  refine triple_bind (F := fun rwa _ => h.env.getRwaAddress chainId = .ok rwa)
    (triple_ret fun rwa hrwa _ _ => hrwa) fun rwa => triple_of_fact fun hrwa => ?_
  refine triple_bind (F := fun (rows : List Order) _ => ∀ o ∈ rows, RowOf h.book o ∧
    OnChain h.env chainId o) (triple_read (by trivial) fun s hs o ho => ?_) fun rows =>
    triple_of_fact fun hrows => reconcileOnChainFilledActiveOrders_keeps hunique hrows
  exact hs.found hrwa (fun o hp => by simp at hp; exact hp.2) ho

theorem findCollectionBidsByOfferer_keeps (hunique : UniqueHashes h.book)
    (offererAddress : JsStr) (limit : Option ℕ) (chainId : ℕ) :
    KeepsEvidence h (findCollectionBidsByOfferer h.env offererAddress limit chainId) := by
  unfold findCollectionBidsByOfferer
  split_ifs
  · exact triple_ok fun _ _ => trivial
  refine triple_bind (F := fun rwa _ => h.env.getRwaAddress chainId = .ok rwa)
    (triple_ret fun rwa hrwa _ _ => hrwa) fun rwa => triple_of_fact fun hrwa => ?_
  refine triple_bind (F := fun (rows : List Order) _ => ∀ o ∈ rows, RowOf h.book o ∧
    OnChain h.env chainId o) (triple_read (by trivial) fun s hs o ho => ?_) fun rows =>
    triple_of_fact fun hrows => reconcileOnChainFilledActiveOrders_keeps hunique hrows
  exact hs.found hrwa (fun o hp => by simp at hp; exact hp.2) ho

end Operations

/-- A fulfilment on the chain of its orders, or a wallet view, which reconciles its orders. -/
def FillsOnChain (h : History) : OrderCall → Prop
  | .fulfillOrder orderHash _ chainId _ =>
    HashOnChain h (chainId.getD h.env.getDefaultChainId) orderHash
  | .fulfillMatchedPair askHash bidHash chainId =>
    HashOnChain h (chainId.getD h.env.getDefaultChainId) askHash ∧
      HashOnChain h (chainId.getD h.env.getDefaultChainId) bidHash
  | .findActiveAsksByOfferer .. => True
  | .findCollectionBidsByOfferer .. => True
  | _ => False

abbrev FillCall (h : History) := { c : OrderCall // FillsOnChain h c }

abbrev FillPool := Pool Moment BackendCmd BackendRes HttpError Unit

def fillStart (h : History) : FillPool := ⟨(Session.opened h.book, h.start), []⟩

abbrev FillReach (h : History) (p q : FillPool) : Prop :=
  Pool.Reach h.handler (fun c : FillCall h => c.1.task h.env) anyStep p q

theorem fillInv_start (h : History) : FillInv h (fillStart h).shared :=
  ⟨Nat.le_refl _, rfl, fun y hy => ⟨y, hy, SameListing.refl y, fun _ => rfl, fun hy => .inl hy⟩⟩

theorem task_keepsEvidence (hunique : UniqueHashes h.book) (c : FillCall h) :
    KeepsEvidence h (c.1.task h.env) := by
  obtain ⟨c, hc⟩ := c
  have hforget : ∀ {α : Type} {p : BackendM α}, KeepsEvidence h p → KeepsEvidence h (forget p) :=
    fun hp => triple_bind hp fun _ => triple_ok fun _ _ => trivial
  cases c with
  | fulfillOrder => exact hforget (fulfillOrder_keeps hc)
  | fulfillMatchedPair => exact hforget (fulfillMatchedPair_keeps hc.1 hc.2)
  | findActiveAsksByOfferer => exact findActiveAsksByOfferer_keeps hunique _ _ _
  | findCollectionBidsByOfferer => exact findCollectionBidsByOfferer_keeps hunique _ _ _
  | _ => exact hc.elim

/-- A row that becomes FULFILLED during a run has evidence of its fill from that run. -/
theorem fulfilled_with_evidence (h : History) (hunique : UniqueHashes h.book) (q : FillPool)
    (hq : FillReach h (fillStart h) q) (k : ℕ) (y : Order)
    (hy : q.shared.1.stored.orders.get k = some y) (hfulfilled : y.status = .fulfilled) :
    ∃ x, h.book.orders.get k = some x ∧
      (x.status = .fulfilled ∨ FillEvidence h q.shared.2 x) := by
  have hinv : FillInv h q.shared := by
    refine Pool.inv_of_reach (Γ := h.contract) (fun c i s _ => ?_) (fillInv_start h) hq
    exact wp_mono (fun _ _ _ => trivial) (task_keepsEvidence hunique c i s trivial)
  obtain ⟨x, hx, hsame, -, hevidence⟩ := hinv.rows y (Table.mem_of_get hy)
  have hk : x.id = k := hsame.id.symm.trans (Table.get_key hy)
  exact ⟨x, hk ▸ Table.get_of_mem hx, hevidence hfulfilled⟩

section Runs

def buyer : JsStr := js "0x00000000000000000000000000000000000000bb"

/-- The seller has sent the card to the buyer; Seaport has filled nothing. -/
def giftWorld : World
  | .getOrderHash .. => .ok (js "0xa1")
  | .getOrderStatus .. => .ok ⟨true, false, 0, 1⟩
  | .ownerOf .. => .ok buyer
  | q => idleWorld q

def giftHistory : History where
  env := { rwaAddresses := [(11155111, js "0x00000000000000000000000000000000000000cc")] }
  world _ := giftWorld
  book := listedBook
  start := 0

theorem giftHistory_onChain : HashOnChain giftHistory 11155111 (js "0xa1") := by
  intro x hx _
  obtain rfl := List.mem_singleton.mp hx
  rfl

def giftCall : FillCall giftHistory :=
  ⟨.fulfillOrder (js "0xa1") (some buyer) (some 11155111) none, giftHistory_onChain⟩

def storedStatus (k : ℕ) (q : FillPool) : Option OrderStatus :=
  (q.shared.1.stored.orders.get k).map Order.status

theorem giftHistory_fulfills :
    ∃ q, FillReach giftHistory (fillStart giftHistory) q ∧ storedStatus 1 q = some .fulfilled :=
  Pool.exists_reach_of_runSchedule (.spawn giftCall :: List.replicate 7 (.run 0 1)) (storedStatus 1)
    (by decide)

theorem uniqueHashes_listedBook : UniqueHashes listedBook := by
  intro x hx y hy _
  exact (List.mem_singleton.mp hx).trans (List.mem_singleton.mp hy).symm

/-- The buyer owns the card that the seller listed, so the listing counts as sold. -/
theorem fulfilled_with_evidence_gift :
    ∃ q x, FillReach giftHistory (fillStart giftHistory) q ∧ listedBook.orders.get 1 = some x ∧
      storedStatus 1 q = some .fulfilled ∧
      (x.status = .fulfilled ∨ FillEvidence giftHistory q.shared.2 x) := by
  obtain ⟨q, hq, hstatus⟩ := giftHistory_fulfills
  obtain ⟨y, hy, hfulfilled⟩ := Option.map_eq_some_iff.mp hstatus
  obtain ⟨x, hx, hevidence⟩ :=
    fulfilled_with_evidence giftHistory uniqueHashes_listedBook q hq 1 y hy hfulfilled
  exact ⟨q, x, hq, hx, hstatus, hevidence⟩

/-- The active listing becomes FULFILLED, and Seaport never reports it filled on any chain. -/
theorem fulfilled_without_fill :
    ∃ q x, FillReach giftHistory (fillStart giftHistory) q ∧ listedBook.orders.get 1 = some x ∧
      x.status = .active ∧ storedStatus 1 q = some .fulfilled ∧
      ∀ n chainId, ¬ giftHistory.Filled n chainId x := by
  obtain ⟨q, hq, hstatus⟩ := giftHistory_fulfills
  refine ⟨q, listedCard, hq, rfl, rfl, hstatus, fun n chainId hfilled => ?_⟩
  obtain ⟨hash, status, -, ⟨m, -, -, hm⟩, hfull⟩ := hfilled
  obtain rfl : SeaportFillStatus.mk true false 0 1 = status := Except.ok.inj hm
  cases hfull

end Runs

end Orders
