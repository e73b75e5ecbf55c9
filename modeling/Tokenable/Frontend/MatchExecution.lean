import Tokenable.Frontend.PlatformFee
import Tokenable.Orders.SignedTerms

/-!
# The match of a bid and a listing

`criteriaMatch.ts` builds the arguments of Seaport's `matchAdvancedOrders` for a bid, order 0, and a
listing, order 1. Before that `alignListingToBidOffer` has the listing signed again at the amount of
the bid when its own price is another one.
-/

namespace Frontend
open Js Platform Async Orders Vault Backend Settlement

section Amounts

/-- The sum over the ERC-20 items; `none` when an amount cannot be read. -/
def erc20Sum : List SeaportItem → Option ℤ
  | [] => some 0
  | c :: cons =>
    if c.itemType = 1 ∧ c.startAmount ≠ [] then do
      let amount ← toBigInt (trim c.startAmount)
      let sum ← erc20Sum cons
      some (amount + sum)
    else erc20Sum cons

def declaredMicros (o : Order) : ℤ :=
  let text := trim o.considerationAmount
  (toBigInt (if text.isEmpty then js "0" else text)).getD 0

def askGrossUsdcMicros (o : Order) : ℤ :=
  match erc20Sum o.parameters.consideration with
  | some sum => if 0 < sum then sum else declaredMicros o
  | none => declaredMicros o

/-- The amount of the first offer item, or else the one of the row; `none` when neither can be
read. -/
def bidUsdcAmount (o : Order) : Option ℤ :=
  match o.parameters.offer.head? with
  | some offer0 =>
    if offer0.startAmount ≠ [] then (toBigInt offer0.startAmount).or (toBigInt o.considerationAmount)
    else toBigInt o.considerationAmount
  | none => toBigInt o.considerationAmount

end Amounts

section Alignment

/-- The wallet, the chain and the services that a listing is signed again with. -/
structure MatchDeps where
  env : PublicEnv
  walletReady : Bool
  signerReady : Bool
  seller : JsStr
  rwaAddress : JsStr
  usdcAddress : JsStr
  tokenId : ℕ
  settlementPolicy : Except JsStr SettlementPolicy
  /-- Ownership, approval and signature. -/
  preflight : Except JsStr Unit
  formatUnits : ℤ → ℕ → JsStr
  parseUnits : JsStr → ℕ → ℤ
  /-- `Number.isFinite(n) && n > 0` of `n = Number(s)` -/
  isPositiveNumber : JsStr → Bool
  replaceListingApi : JsStr → CreateOrderDto → Except JsStr Order

/-- `submitAskListingOrder` in the mode `replace`. -/
def submitReplacement (deps : MatchDeps) (priceUsdc oldOrderHash : JsStr) : Except JsStr Order :=
  if !deps.isPositiveNumber priceUsdc then .error (js "Invalid price")
  else if oldOrderHash.isEmpty then .error (js "oldOrderHash required for replace")
  else do
    let policy ← deps.settlementPolicy
    deps.preflight
    let dto ← Listing.payload deps.env
      ⟨deps.seller, deps.rwaAddress, deps.usdcAddress, deps.tokenId, deps.parseUnits priceUsdc 6, policy⟩
    deps.replaceListingApi oldOrderHash dto

def alignListingToBidOffer (deps : MatchDeps) (listing bid : Order) : Except JsStr Order :=
  match bidUsdcAmount bid with
  | none => .error (js "Cannot convert to a BigInt")
  | some bidAm =>
    if askGrossUsdcMicros listing = bidAm then .ok listing
    else if !deps.walletReady then
      .error (js "Wallet not ready to match this listing to the bid.")
    else if !deps.signerReady then
      .error (js "Wallet signer not ready — unlock your wallet so the listing can be set to the bid price.")
    else if !deps.isPositiveNumber (deps.formatUnits bidAm 6) then .error (js "Invalid bid amount")
    else submitReplacement deps (deps.formatUnits bidAm 6) listing.orderHash

end Alignment

section Execution

structure AdvancedItem where
  itemType : ℕ
  token : JsStr
  identifierOrCriteria : ℤ
  startAmount : ℤ
  endAmount : ℤ
  recipient : JsStr
  deriving DecidableEq

structure AdvancedOrder where
  offer : List AdvancedItem
  consideration : List AdvancedItem
  startTime : ℕ
  endTime : ℕ
  components : JsStr
  numerator : ℕ := 1
  denominator : ℕ := 1
  deriving DecidableEq

/-- An item with its texts read; one that is no number throws. -/
def advancedItem (i : SeaportItem) : Option AdvancedItem := do
  let identifierOrCriteria ← toBigInt (trim i.identifierOrCriteria)
  let startAmount ← toBigInt i.startAmount
  let endAmount ← toBigInt i.endAmount
  some ⟨i.itemType, i.token, identifierOrCriteria, startAmount, endAmount, i.recipient⟩

def advancedItems : List SeaportItem → Option (List AdvancedItem)
  | [] => some []
  | i :: is => do
    let a ← advancedItem i
    let as_ ← advancedItems is
    some (a :: as_)

def orderToAdvancedOrder (o : Order) : Option AdvancedOrder := do
  let offer ← advancedItems o.parameters.offer
  let consideration ← advancedItems o.parameters.consideration
  some {
    offer, consideration
    startTime := o.parameters.startTime
    endTime := o.parameters.endTime
    components := o.parameters.components }

structure Component where
  orderIndex : ℕ
  itemIndex : ℕ
  deriving DecidableEq

structure Fulfillment where
  offerComponents : List Component
  considerationComponents : List Component
  deriving DecidableEq

inductive SeaportSide where
  | offer | consideration
  deriving DecidableEq

structure CriteriaResolver where
  orderIndex : ℕ
  side : SeaportSide
  index : ℕ
  identifier : ℕ
  criteriaProof : List JsStr
  deriving DecidableEq

structure MatchExecution where
  orders : List AdvancedOrder
  criteriaResolvers : List CriteriaResolver
  fulfillments : List Fulfillment
  recipient : JsStr
  deriving DecidableEq

def matchRecipientZero : JsStr := js "0x0000000000000000000000000000000000000000"

/-- The USDC of the bid pays the seller, the NFT of the listing goes to the bidder, and the USDC of
the bid pays the other lines of the listing. -/
def matchFulfillments (listingConsiderationCount : ℕ) : List Fulfillment :=
  [⟨[⟨0, 0⟩], [⟨1, 0⟩]⟩, ⟨[⟨1, 0⟩], [⟨0, 0⟩]⟩] ++
    if 1 < listingConsiderationCount then
      (List.range' 1 (listingConsiderationCount - 1)).map fun i => ⟨[⟨0, 0⟩], [⟨1, i⟩]⟩
    else []

/-- The execution of the two orders, with the resolvers of the bid's criteria. -/
def buildMatchExecution (bid listing : Order) (resolvers : List CriteriaResolver) :
    Option MatchExecution := do
  let buyerAdv ← orderToAdvancedOrder bid
  let sellerAdv ← orderToAdvancedOrder listing
  some ⟨[buyerAdv, sellerAdv], resolvers, matchFulfillments listing.parameters.consideration.length,
    matchRecipientZero⟩

def buildTokenBidMatchExecution (tokenBidOrder listingOrder : Order) : Option MatchExecution :=
  buildMatchExecution tokenBidOrder listingOrder []

def buildCriteriaMatchExecution (criteriaBidOrder listingOrder : Order) (tokenId : ℕ)
    (criteriaProof : List JsStr) : Option MatchExecution :=
  buildMatchExecution criteriaBidOrder listingOrder [⟨0, .consideration, 0, tokenId, criteriaProof⟩]

end Execution

section Roles

def sumMicros (items : List SeaportItem) : ℤ := (items.map fun c => parseMicros c.startAmount).sum

/-- An ask for an NFT in USDC: it offers the NFT, all of its lines are in USDC, and their amounts add
up to the price of the row. -/
structure IsAsk (usdc nft : JsStr) (o : Order) : Prop where
  readable : ∃ adv, orderToAdvancedOrder o = some adv
  offer : ∃ item rest, o.parameters.offer = item :: rest ∧ item.itemType = 2 ∧ lower item.token = nft
  nonempty : o.parameters.consideration ≠ []
  lines : ∀ c ∈ o.parameters.consideration, c.itemType = 1 ∧ lower c.token = usdc
  declared : toBigInt o.considerationAmount = some (sumMicros o.parameters.consideration)

/-- A bid of an amount of USDC for an NFT. -/
structure IsBid (usdc nft : JsStr) (amount : ℤ) (o : Order) : Prop where
  readable : ∃ adv, orderToAdvancedOrder o = some adv
  offer : ∃ item rest, o.parameters.offer = item :: rest ∧ item.itemType = 1 ∧
    lower item.token = usdc ∧ item.startAmount ≠ [] ∧ toBigInt item.startAmount = some amount
  wanted : ∃ item rest, o.parameters.consideration = item :: rest ∧ lower item.token = nft

def firstConsiderationIs (itemType : ℕ) (o : Order) : Prop :=
  ∃ item rest, o.parameters.consideration = item :: rest ∧ item.itemType = itemType

variable {usdc nft : JsStr} {amount : ℤ} {o : Order}

theorem toBigInt_trim (s : JsStr) : toBigInt (trim s) = toBigInt s := by
  rw [toBigInt, toBigInt, trim_trim]

theorem erc20Sum_eq {items : List SeaportItem} (htype : ∀ c ∈ items, c.itemType = 1)
    (hread : ∀ c ∈ items, ∃ n, toBigInt c.startAmount = some n) :
    erc20Sum items = some (sumMicros items) := by
  induction items with
  | nil => rfl
  | cons c items ih =>
      have hrest := ih (fun d hd => htype d (List.mem_cons_of_mem c hd))
        (fun d hd => hread d (List.mem_cons_of_mem c hd))
      obtain ⟨n, hn⟩ := hread c List.mem_cons_self
      have hc := htype c List.mem_cons_self
      have hsum : sumMicros (c :: items) = n + sumMicros items := by
        simp [sumMicros, parseMicros, hn]
      by_cases hempty : c.startAmount = []
      · have hzero : n = 0 := by
          rw [hempty] at hn
          exact (Option.some.inj hn).symm
        rw [hsum, hzero, zero_add]
        simp [erc20Sum, hempty, hrest]
      · rw [hsum]
        simp [erc20Sum, hc, hempty, toBigInt_trim, hn, hrest]

theorem declaredMicros_eq {n : ℤ} (h : toBigInt o.considerationAmount = some n) :
    declaredMicros o = n := by
  unfold declaredMicros
  by_cases hempty : (trim o.considerationAmount).isEmpty = true
  · have hnil := List.isEmpty_iff.1 hempty
    have hzero : n = 0 := by
      rw [toBigInt, hnil] at h
      exact (Option.some.inj h).symm
    simp only [hempty, if_true]
    rw [hzero]
    rfl
  · simp only [hempty, Bool.false_eq_true, if_false]
    rw [toBigInt_trim, h, Option.getD_some]

theorem readable_items {items : List SeaportItem} {as_ : List AdvancedItem}
    (h : advancedItems items = some as_) :
    List.Forall₂ (fun i a => advancedItem i = some a) items as_ := by
  induction items generalizing as_ with
  | nil =>
      obtain rfl := Option.some.inj h
      exact .nil
  | cons i items ih =>
      simp only [advancedItems, Option.bind_eq_bind, Option.bind_eq_some_iff] at h
      obtain ⟨a, ha, rest, hrest, h⟩ := h
      obtain rfl := Option.some.inj h
      exact .cons ha (ih hrest)

theorem head_advancedItems {items : List SeaportItem} {as_ : List AdvancedItem} {i : SeaportItem}
    (h : advancedItems items = some as_) (hi : items.head? = some i) :
    ∃ a, advancedItem i = some a ∧ as_[0]? = some a := by
  obtain ⟨rest, rfl⟩ := List.head?_eq_some_iff.1 hi
  obtain ⟨a, as', ha, -, rfl⟩ := List.forall₂_cons_left_iff.1 (readable_items h)
  exact ⟨a, ha, rfl⟩

/-- What a read item keeps of its text. -/
theorem advancedItem_eq_some {i : SeaportItem} {a : AdvancedItem} (h : advancedItem i = some a) :
    a.itemType = i.itemType ∧ a.token = i.token ∧ toBigInt i.startAmount = some a.startAmount := by
  simp only [advancedItem, Option.bind_eq_bind, Option.bind_eq_some_iff] at h
  obtain ⟨identifier, -, startAmount, hstart, endAmount, -, h⟩ := h
  obtain rfl := Option.some.inj h
  exact ⟨rfl, rfl, hstart⟩

theorem identifier_of_advancedItem {i : SeaportItem} {a : AdvancedItem}
    (h : advancedItem i = some a) :
    toBigInt (trim i.identifierOrCriteria) = some a.identifierOrCriteria := by
  simp only [advancedItem, Option.bind_eq_bind, Option.bind_eq_some_iff] at h
  obtain ⟨identifier, hidentifier, startAmount, -, endAmount, -, h⟩ := h
  obtain rfl := Option.some.inj h
  exact hidentifier

theorem orderToAdvancedOrder_eq_some {adv : AdvancedOrder} (h : orderToAdvancedOrder o = some adv) :
    advancedItems o.parameters.offer = some adv.offer ∧
      advancedItems o.parameters.consideration = some adv.consideration := by
  simp only [orderToAdvancedOrder, Option.bind_eq_bind, Option.bind_eq_some_iff] at h
  obtain ⟨offer, hoffer, consideration, hconsideration, h⟩ := h
  obtain rfl := Option.some.inj h
  exact ⟨hoffer, hconsideration⟩

theorem exists_advancedItem {items : List SeaportItem} {as_ : List AdvancedItem} {i : SeaportItem}
    (h : List.Forall₂ (fun i a => advancedItem i = some a) items as_) (hi : i ∈ items) :
    ∃ a, advancedItem i = some a := by
  induction h with
  | nil => cases hi
  | cons ha _ ih =>
      rcases List.mem_cons.1 hi with rfl | hi
      · exact ⟨_, ha⟩
      · exact ih hi

theorem sum_startAmount {items : List SeaportItem} {as_ : List AdvancedItem}
    (h : List.Forall₂ (fun i a => advancedItem i = some a) items as_) :
    (as_.map AdvancedItem.startAmount).sum = sumMicros items := by
  induction h with
  | nil => rfl
  | cons ha _ ih =>
      have hstart := (advancedItem_eq_some ha).2.2
      simp only [sumMicros, List.map_cons, List.sum_cons, parseMicros] at ih ⊢
      rw [hstart, Option.getD_some, ih]

/-- The gross price of an ask is the sum of its lines. -/
theorem IsAsk.askGross (h : IsAsk usdc nft o) :
    askGrossUsdcMicros o = sumMicros o.parameters.consideration := by
  obtain ⟨adv, hadv⟩ := h.readable
  have hitems := readable_items (orderToAdvancedOrder_eq_some hadv).2
  have hread : ∀ c ∈ o.parameters.consideration, ∃ n, toBigInt c.startAmount = some n := by
    intro c hc
    obtain ⟨a, ha⟩ := exists_advancedItem hitems hc
    exact ⟨_, (advancedItem_eq_some ha).2.2⟩
  unfold askGrossUsdcMicros
  rw [erc20Sum_eq (fun c hc => (h.lines c hc).1) hread]
  simp only
  split_ifs
  · rfl
  · exact declaredMicros_eq h.declared

theorem IsBid.bidUsdcAmount (h : IsBid usdc nft amount o) : bidUsdcAmount o = some amount := by
  obtain ⟨item, rest, hoffer, -, -, hne, hamount⟩ := h.offer
  unfold Frontend.bidUsdcAmount
  rw [hoffer]
  simp [hne, hamount]

end Roles

section Aligned

variable {usdc nft : JsStr} {amount : ℤ} {deps : MatchDeps} {listing bid aligned : Order}

/-- The back end stores a replacement as it was sent. -/
def StoresPayload (api : JsStr → CreateOrderDto → Except JsStr Order) : Prop :=
  ∀ oldOrderHash dto row, api oldOrderHash dto = .ok row →
    row.parameters.offer = dto.parameters.offer ∧
      row.parameters.consideration = dto.parameters.consideration ∧
      row.considerationAmount = dto.considerationAmount

/-- It does, when the answers are those of `replaceSellerListing`. -/
theorem storesPayload_of_replaceSellerListing
    {api : JsStr → CreateOrderDto → Except JsStr Order} {sp : Seaport} {env : Env}
    {callerAddress : JsStr} {chainId : ℕ}
    (h : ∀ oldOrderHash dto row, api oldOrderHash dto = .ok row →
      (replaceSellerListing env oldOrderHash callerAddress dto chainId).Yields sp.Answers (.ok row)) :
    StoresPayload api := by
  intro oldOrderHash dto row hrow
  obtain ⟨-, hstored⟩ := inversion_replaceSellerListing (h oldOrderHash dto row hrow)
  have hoffer := congrArg OrderParameters.offer hstored.parameters
  have hconsideration := congrArg OrderParameters.consideration hstored.parameters
  exact ⟨hoffer, hconsideration, hstored.considerationAmount⟩

theorem advancedItem_usdcLine (token recipient : JsStr) {n : ℤ} (hn : 0 ≤ n) :
    advancedItem (usdcLine token recipient n) = some ⟨1, token, 0, n, n, recipient⟩ := by
  have hzero : toBigInt (trim (js "0")) = some 0 := by decide
  simp [advancedItem, usdcLine, hzero, toBigInt_ofInt hn]

/-- A listing at a positive price, as it is sent, is an ask at that price. -/
theorem isAsk_of_payload {e : PublicEnv} {l : Listing} {dto : CreateOrderDto} (hprice : 0 < l.price)
    (h : l.payload e = .ok dto) (hoffer : aligned.parameters.offer = dto.parameters.offer)
    (hconsideration : aligned.parameters.consideration = dto.parameters.consideration)
    (hamount : aligned.considerationAmount = dto.considerationAmount) :
    IsAsk (lower l.usdcAddress) (lower l.rwaAddress) aligned ∧
      sumMicros aligned.parameters.consideration = l.price := by
  obtain ⟨split, hsplit, rfl⟩ := payload_eq_ok h
  change aligned.parameters.offer = [l.offerItem] at hoffer
  change aligned.parameters.consideration = considerationOf split l.seller l.usdcAddress
    at hconsideration
  obtain ⟨hsum, hfee, hle⟩ := computeFeeSplit_fee hprice hsplit
  have hseller : 0 ≤ split.sellerAmount := by omega
  have hlines : considerationOf split l.seller l.usdcAddress = _ :=
    considerationOf_computeFeeSplit hsplit
  have hline : ∀ {recipient : JsStr} {n : ℤ}, 0 ≤ n →
      parseMicros (usdcLine l.usdcAddress recipient n).startAmount = n := by
    intro recipient n hn
    simp [parseMicros, usdcLine, toBigInt_ofInt hn]
  have htotal : sumMicros (considerationOf split l.seller l.usdcAddress) = l.price := by
    rw [hlines]
    split_ifs with hpos
    · simp only [sumMicros, List.map_cons, List.map_nil, List.sum_cons, List.sum_nil, hline hseller,
        hline hfee]
      omega
    · simp only [sumMicros, List.map_cons, List.map_nil, List.sum_cons, List.sum_nil, hline hseller]
      omega
  have hread : ∃ as_, advancedItems (considerationOf split l.seller l.usdcAddress) = some as_ := by
    rw [hlines]
    split_ifs with hpos
    · simp [advancedItems, advancedItem_usdcLine _ _ hseller, advancedItem_usdcLine _ _ hfee]
    · simp [advancedItems, advancedItem_usdcLine _ _ hseller]
  have hoffered : ∃ as_, advancedItems [l.offerItem] = some as_ := by
    have hone : toBigInt (js "1") = some 1 := by decide
    simp [advancedItems, advancedItem, Listing.offerItem, hone, toBigInt_trim, toBigInt_ofNat]
  refine ⟨⟨?_, ?_, ?_, ?_, ?_⟩, ?_⟩
  · obtain ⟨offer, hoffer'⟩ := hoffered
    obtain ⟨consideration, hconsideration'⟩ := hread
    rw [← hoffer] at hoffer'
    rw [← hconsideration] at hconsideration'
    simp [orderToAdvancedOrder, hoffer', hconsideration']
  · exact ⟨l.offerItem, [], hoffer, rfl, rfl⟩
  · rw [hconsideration, hlines]
    exact List.cons_ne_nil _ _
  · intro c hc
    rw [hconsideration, hlines] at hc
    rcases List.mem_cons.1 hc with rfl | hc
    · exact ⟨rfl, rfl⟩
    · split_ifs at hc
      · obtain rfl := List.mem_singleton.1 hc
        exact ⟨rfl, rfl⟩
      · cases hc
  · rw [hamount, hconsideration]
    change toBigInt (ofInt l.price) = some _
    rw [toBigInt_ofInt hprice.le]
    exact congrArg some htotal.symm
  · rw [hconsideration]
    exact htotal

/-- The listing was at the amount of the bid, or it has been signed again at that amount. -/
theorem align_cases (hbid : IsBid usdc nft amount bid) (hlisting : IsAsk usdc nft listing)
    (hapi : StoresPayload deps.replaceListingApi)
    (hunits : deps.parseUnits (deps.formatUnits amount 6) 6 = amount)
    (hpositive : deps.isPositiveNumber (deps.formatUnits amount 6) = true → 0 < amount)
    (h : alignListingToBidOffer deps listing bid = .ok aligned) :
    (aligned = listing ∧ sumMicros listing.parameters.consideration = amount) ∨
      ∃ policy dto, 0 < amount ∧ Listing.payload deps.env ⟨deps.seller, deps.rwaAddress,
          deps.usdcAddress, deps.tokenId, amount, policy⟩ = .ok dto ∧
        aligned.parameters.offer = dto.parameters.offer ∧
        aligned.parameters.consideration = dto.parameters.consideration ∧
        aligned.considerationAmount = dto.considerationAmount := by
  unfold alignListingToBidOffer at h
  rw [hbid.bidUsdcAmount] at h
  simp only at h
  split_ifs at h with hequal hwallet hsigner hinvalid
  · obtain rfl := Except.ok.inj h
    exact .inl ⟨rfl, hlisting.askGross.symm.trans hequal⟩
  · have hprice : 0 < amount := hpositive (by simpa using hinvalid)
    unfold submitReplacement at h
    rw [hunits] at h
    split_ifs at h
    obtain ⟨policy, -, h⟩ := bind_eq_ok.mp h
    obtain ⟨-, -, h⟩ := bind_eq_ok.mp h
    obtain ⟨dto, hdto, h⟩ := bind_eq_ok.mp h
    exact .inr ⟨policy, dto, hprice, hdto, hapi _ _ _ h⟩

/-- After the alignment the lines of the listing add up to the amount of the bid. -/
theorem isAsk_align (hbid : IsBid usdc nft amount bid) (hlisting : IsAsk usdc nft listing)
    (hapi : StoresPayload deps.replaceListingApi) (husdc : lower deps.usdcAddress = usdc)
    (hnft : lower deps.rwaAddress = nft)
    (hunits : deps.parseUnits (deps.formatUnits amount 6) 6 = amount)
    (hpositive : deps.isPositiveNumber (deps.formatUnits amount 6) = true → 0 < amount)
    (h : alignListingToBidOffer deps listing bid = .ok aligned) :
    IsAsk usdc nft aligned ∧ sumMicros aligned.parameters.consideration = amount := by
  rcases align_cases hbid hlisting hapi hunits hpositive h with
    ⟨rfl, hsum⟩ | ⟨policy, dto, hprice, hdto, hoffer, hconsideration, hamount⟩
  · exact ⟨hlisting, hsum⟩
  · rw [← husdc, ← hnft]
    exact isAsk_of_payload hprice hdto hoffer hconsideration hamount

def Offers (tokenId : ℕ) (o : Order) : Prop :=
  ∃ item ∈ o.parameters.offer.head?, toBigInt (trim item.identifierOrCriteria) = some tokenId

def Wants (tokenId : ℕ) (o : Order) : Prop :=
  ∃ item ∈ o.parameters.consideration.head?, toBigInt (trim item.identifierOrCriteria) = some tokenId

/-- The alignment keeps the token of the listing, when it is the one that the seller lists. -/
theorem offers_align (hbid : IsBid usdc nft amount bid) (hlisting : IsAsk usdc nft listing)
    (hapi : StoresPayload deps.replaceListingApi)
    (hunits : deps.parseUnits (deps.formatUnits amount 6) 6 = amount)
    (hpositive : deps.isPositiveNumber (deps.formatUnits amount 6) = true → 0 < amount)
    (h : alignListingToBidOffer deps listing bid = .ok aligned) (hoffers : Offers deps.tokenId listing) :
    Offers deps.tokenId aligned := by
  rcases align_cases hbid hlisting hapi hunits hpositive h with
    ⟨rfl, -⟩ | ⟨policy, dto, -, hdto, hoffer, -⟩
  · exact hoffers
  · obtain ⟨split, -, rfl⟩ := payload_eq_ok hdto
    refine ⟨_, by rw [hoffer]; rfl, ?_⟩
    change toBigInt (trim (ofNat deps.tokenId)) = _
    rw [toBigInt_trim, toBigInt_ofNat]
    rfl

end Aligned

section Stored

variable {sp : Seaport} {env : Env} {dto : CreateOrderDto} {row : Order} {chainId : ℕ}
  {usdc nft : JsStr}

theorem exists_advancedItems {its : List SeaportItem} {cs : List ComponentItem}
    (h : List.Forall₂ (fun it c => ComponentItem.Reads sp.getAddress it c) its cs) :
    ∃ as_, advancedItems its = some as_ := by
  induction h with
  | nil => exact ⟨[], rfl⟩
  | cons hreads _ ih =>
      obtain ⟨as_, has⟩ := ih
      simp [advancedItems, advancedItem, toBigInt_trim, hreads.identifierOrCriteria,
        hreads.startAmount, hreads.endAmount, has]

/-- The texts of a stored order can be read, since its hash was. -/
theorem exists_advancedOrder (hstored : StoredAs sp dto row) :
    ∃ adv, orderToAdvancedOrder row = some adv := by
  obtain ⟨c, hc, -⟩ := hstored.signed
  obtain ⟨hoffer, hconsideration, -, -⟩ := items_of_build hc
  obtain ⟨offer, hoffer⟩ := exists_advancedItems hoffer
  obtain ⟨consideration, hconsideration⟩ := exists_advancedItems hconsideration
  have hoffer' : advancedItems row.parameters.offer = some offer := hoffer
  have hconsideration' : advancedItems row.parameters.consideration = some consideration :=
    hconsideration
  simp [orderToAdvancedOrder, hoffer', hconsideration']

theorem usdcLines_of_sum {i : ℕ} {cons : List SeaportItem} {sum total : ℤ}
    (h : sumConsideration usdc chainId i cons sum = .ok total) :
    ∀ c ∈ cons, c.itemType = 1 ∧ lower c.token = usdc := by
  induction cons generalizing i sum with
  | nil =>
      intro c hc
      cases hc
  | cons it cons ih =>
      simp only [sumConsideration, bind_eq_ok, require_eq_ok, bigInt_eq_ok] at h
      obtain ⟨_, htype, _, htoken, _, -, hrest⟩ := h
      intro c hc
      rcases List.mem_cons.1 hc with rfl | hc
      · exact ⟨of_decide_eq_true htype, of_decide_eq_true htoken⟩
      · exact ih hrest c hc

/-- A stored listing of an ERC-721 token is an ask. -/
theorem isAsk_of_stored (hvalid : assertValidAskListing env dto chainId = .ok ())
    (hstored : StoredAs sp dto row) (husdc : env.getUsdcAddress chainId = .ok usdc)
    (hnft : ∃ item rest, dto.parameters.offer = item :: rest ∧ item.itemType = 2 ∧
      lower item.token = nft) : IsAsk usdc nft row := by
  have hprice := (checkedAsk_of_valid hvalid).price
  have hoffer : row.parameters.offer = dto.parameters.offer := hstored.offer_eq
  have hconsideration : row.parameters.consideration = dto.parameters.consideration :=
    hstored.consideration_eq
  simp only [assertValidAskListing, husdc, bind_eq_ok, require_eq_ok] at hvalid
  obtain ⟨_, hnonempty, usdc', husdc', sum, hsum, -⟩ := hvalid
  obtain rfl := Except.ok.inj husdc'
  have hlines := usdcLines_of_sum hsum
  refine ⟨exists_advancedOrder hstored, ?_, ?_, ?_, ?_⟩
  · rw [hoffer]
    exact hnft
  · rw [hconsideration]
    intro hnil
    simp [hnil] at hnonempty
  · rw [hconsideration]
    exact hlines
  · rw [hstored.considerationAmount, hconsideration, hprice, List.map_map]
    rfl

/-- A stored bid with an amount is a bid. -/
theorem isBid_of_stored {itemType nowMs : ℕ} {wrongType : JsStr}
    {checkItem : SeaportItem → Except HttpError Unit}
    (hvalid : assertValidBid itemType wrongType checkItem env dto chainId nowMs = .ok ())
    (hstored : StoredAs sp dto row) (husdc : env.getUsdcAddress chainId = .ok usdc)
    (hne : ∀ item ∈ dto.parameters.offer.head?, item.startAmount ≠ []) :
    (∃ amount, IsBid usdc (lower dto.tokenContract) amount row) ∧ firstConsiderationIs itemType row := by
  have hoffer : row.parameters.offer = dto.parameters.offer := hstored.offer_eq
  have hconsideration : row.parameters.consideration = dto.parameters.consideration :=
    hstored.consideration_eq
  obtain ⟨adv, hadv⟩ := exists_advancedOrder hstored
  obtain ⟨hread, -⟩ := orderToAdvancedOrder_eq_some hadv
  unfold assertValidBid at hvalid
  cases hgiven : dto.parameters.offer with
  | nil =>
      rw [hgiven] at hvalid
      cases hvalid
  | cons offer offers =>
      cases hwanted : dto.parameters.consideration with
      | nil =>
          rw [hgiven, hwanted] at hvalid
          cases hvalid
      | cons cons conses =>
          rw [hgiven, hwanted] at hvalid
          simp only [List.head?_cons, husdc, bind_eq_ok, require_eq_ok, decide_eq_true_eq] at hvalid
          obtain ⟨_, htype, _, hitem, usdc', husdc', _, htoken, _, hcontract, -⟩ := hvalid
          obtain rfl := Except.ok.inj husdc'
          rw [hoffer, hgiven] at hread
          obtain ⟨a, as_, ha, -, -⟩ := List.forall₂_cons_left_iff.1 (readable_items hread)
          obtain ⟨-, -, hamount⟩ := advancedItem_eq_some ha
          have hnonempty : offer.startAmount ≠ [] := hne offer (by rw [hgiven]; rfl)
          refine ⟨⟨a.startAmount, ⟨adv, hadv⟩, ?_, ?_⟩, ?_⟩
          · exact ⟨offer, offers, hoffer.trans hgiven, htype, htoken, hnonempty, hamount⟩
          · exact ⟨cons, conses, hconsideration.trans hwanted, hcontract⟩
          · exact ⟨cons, conses, hconsideration.trans hwanted, hitem⟩

end Stored

section Complete

namespace MatchExecution

def offerItem (x : MatchExecution) (c : Component) : Option AdvancedItem :=
  x.orders[c.orderIndex]?.bind fun o => o.offer[c.itemIndex]?

def considerationItem (x : MatchExecution) (c : Component) : Option AdvancedItem :=
  x.orders[c.orderIndex]?.bind fun o => o.consideration[c.itemIndex]?

/-- The identifier that a resolver names for the criteria of a consideration item. -/
def resolvedTo (resolvers : List CriteriaResolver) (c : Component) : Option ℕ :=
  (resolvers.find? fun r =>
    r.orderIndex = c.orderIndex && r.side = .consideration && r.index = c.itemIndex).map
    CriteriaResolver.identifier

/-- The type of a consideration item once the criteria are resolved: an ERC-721 token with criteria
is the token that the resolver names. -/
def resolvedType (x : MatchExecution) (c : Component) (item : AdvancedItem) : ℕ :=
  if item.itemType = 4 ∧ (resolvedTo x.criteriaResolvers c).isSome then 2 else item.itemType

def resolvedIdentifier (x : MatchExecution) (c : Component) (item : AdvancedItem) : ℤ :=
  if item.itemType = 4 then
    ((resolvedTo x.criteriaResolvers c).map Int.ofNat).getD item.identifierOrCriteria
  else item.identifierOrCriteria

/-- A fulfillment draws on one offer item, for one consideration item of its type and token. -/
def IsFunded (x : MatchExecution) (f : Fulfillment) : Prop :=
  ∃ o c given wanted, f = ⟨[o], [c]⟩ ∧ x.offerItem o = some given ∧
    x.considerationItem c = some wanted ∧ x.resolvedType c wanted = given.itemType ∧
    lower wanted.token = lower given.token

/-- Where a fulfillment gives an NFT, it is the one that is wanted. -/
def GivesWanted (x : MatchExecution) : Prop :=
  ∀ f ∈ x.fulfillments, ∀ o c given wanted, f = ⟨[o], [c]⟩ → x.offerItem o = some given →
    x.considerationItem c = some wanted → given.itemType = 2 →
      x.resolvedIdentifier c wanted = given.identifierOrCriteria

/-- The fulfillments cover the NFT of the bid, which is item 0 of order 0, and the `n` lines of the
listing, which is order 1, each once; every one is funded, and the lines add up to the amount that
the bid offers. -/
structure IsComplete (x : MatchExecution) (n : ℕ) : Prop where
  covered : (x.fulfillments.flatMap Fulfillment.considerationComponents).Perm
    (⟨0, 0⟩ :: (List.range n).map fun i => ⟨1, i⟩)
  funded : ∀ f ∈ x.fulfillments, x.IsFunded f
  conserved : ∃ bid listing given, x.orders = [bid, listing] ∧ bid.offer.head? = some given ∧
    listing.consideration.length = n ∧
    (listing.consideration.map AdvancedItem.startAmount).sum = given.startAmount

end MatchExecution

theorem covered_matchFulfillments {n : ℕ} (hn : 1 ≤ n) :
    ((matchFulfillments n).flatMap Fulfillment.considerationComponents).Perm
      (⟨0, 0⟩ :: (List.range n).map fun i => ⟨1, i⟩) := by
  have hrest : (if 1 < n then (List.range' 1 (n - 1)).map fun i =>
      (⟨[⟨0, 0⟩], [⟨1, i⟩]⟩ : Fulfillment) else []) =
        (List.range' 1 (n - 1)).map fun i => ⟨[⟨0, 0⟩], [⟨1, i⟩]⟩ := by
    split_ifs with h
    · rfl
    · have hzero : n - 1 = 0 := by omega
      rw [hzero]
      rfl
  have hlines : ∀ is : List ℕ, (is.map fun i => (⟨[⟨0, 0⟩], [⟨1, i⟩]⟩ : Fulfillment)).flatMap
      Fulfillment.considerationComponents = is.map fun i => ⟨1, i⟩ := by
    intro is
    induction is with
    | nil => rfl
    | cons i is ih => simp [ih]
  have hrange : List.range n = 0 :: List.range' 1 (n - 1) := by
    obtain ⟨m, rfl⟩ : ∃ m, n = m + 1 := ⟨n - 1, by omega⟩
    rw [List.range_eq_range', List.range'_succ]
    rfl
  rw [matchFulfillments, hrest, List.flatMap_append, hlines, hrange]
  exact .swap _ _ _

theorem mem_matchFulfillments {n : ℕ} {f : Fulfillment} (h : f ∈ matchFulfillments n) :
    f = ⟨[⟨1, 0⟩], [⟨0, 0⟩]⟩ ∨ f = ⟨[⟨0, 0⟩], [⟨1, 0⟩]⟩ ∨ ∃ i < n, f = ⟨[⟨0, 0⟩], [⟨1, i⟩]⟩ := by
  rcases List.mem_append.1 h with h | h
  · rcases List.mem_cons.1 h with rfl | h
    · exact .inr (.inl rfl)
    · exact .inl (List.mem_singleton.1 h)
  · split_ifs at h with hn
    · obtain ⟨i, hi, rfl⟩ := List.mem_map.1 h
      rw [List.mem_range'] at hi
      obtain ⟨j, hj, rfl⟩ := hi
      exact .inr (.inr ⟨_, by omega, rfl⟩)
    · cases h

variable {usdc nft : JsStr} {amount : ℤ} {bid listing : Order} {resolvers : List CriteriaResolver}

/-- A bid and an ask at its amount are matched completely. The NFT that the bid wants is of type 2
already, or there are criteria that resolve it. -/
theorem isComplete_buildMatchExecution (hbid : IsBid usdc nft amount bid)
    (hlisting : IsAsk usdc nft listing)
    (hamount : sumMicros listing.parameters.consideration = amount)
    (htype : firstConsiderationIs 2 bid ∨ firstConsiderationIs 4 bid ∧
      (MatchExecution.resolvedTo resolvers ⟨0, 0⟩).isSome = true) :
    ∃ x, buildMatchExecution bid listing resolvers = some x ∧
      x.IsComplete listing.parameters.consideration.length := by
  obtain ⟨buyer, hbuyer⟩ := hbid.readable
  obtain ⟨seller, hseller⟩ := hlisting.readable
  obtain ⟨hbidOffer, hbidWanted⟩ := orderToAdvancedOrder_eq_some hbuyer
  obtain ⟨hgiven, hlines⟩ := orderToAdvancedOrder_eq_some hseller
  have hlines := readable_items hlines
  -- the first items of the two orders
  obtain ⟨usdcItem, usdcRest, husdcOffer, husdcType, husdcToken, -, husdcAmount⟩ := hbid.offer
  obtain ⟨usdcAdv, husdcAdv, husdcBuyer⟩ := head_advancedItems hbidOffer (by rw [husdcOffer]; rfl)
  obtain ⟨nftItem, nftRest, hnftOffer, hnftType, hnftToken⟩ := hlisting.offer
  obtain ⟨nftAdv, hnftAdv, hnftSeller⟩ := head_advancedItems hgiven (by rw [hnftOffer]; rfl)
  obtain ⟨wanted, wantedRest, hwanted, hwantedToken⟩ := hbid.wanted
  obtain ⟨wantedAdv, hwantedAdv, hwantedBuyer⟩ := head_advancedItems hbidWanted
    (by rw [hwanted]; rfl)
  obtain ⟨husdcType', husdcToken', husdcStart⟩ := advancedItem_eq_some husdcAdv
  obtain ⟨hnftType', hnftToken', -⟩ := advancedItem_eq_some hnftAdv
  obtain ⟨hwantedType', hwantedToken', -⟩ := advancedItem_eq_some hwantedAdv
  refine ⟨⟨[buyer, seller], resolvers, matchFulfillments listing.parameters.consideration.length,
    matchRecipientZero⟩, by simp [buildMatchExecution, hbuyer, hseller], ?_, ?_, ?_⟩
  · exact covered_matchFulfillments (List.length_pos_iff.2 hlisting.nonempty)
  · -- the NFT goes to the bidder, and USDC to every line
    have hpaid : ∀ i < listing.parameters.consideration.length, MatchExecution.IsFunded
        ⟨[buyer, seller], resolvers, matchFulfillments listing.parameters.consideration.length,
          matchRecipientZero⟩ ⟨[⟨0, 0⟩], [⟨1, i⟩]⟩ := by
      intro i hi
      have hi' : i < seller.consideration.length := by
        rw [← hlines.length_eq]
        exact hi
      have hline := hlines.get hi hi'
      obtain ⟨hlineType, hlineToken, -⟩ := advancedItem_eq_some hline
      obtain ⟨htype1, htoken1⟩ := hlisting.lines _ (List.getElem_mem hi)
      refine ⟨⟨0, 0⟩, ⟨1, i⟩, usdcAdv, seller.consideration[i], rfl, ?_, ?_, ?_, ?_⟩
      · simp [MatchExecution.offerItem, husdcBuyer]
      · simp [MatchExecution.considerationItem, hi']
      · have hone : seller.consideration[i].itemType = 1 := hlineType.trans htype1
        rw [MatchExecution.resolvedType, hone, husdcType', husdcType]
        simp
      · have htoken : seller.consideration[i].token = listing.parameters.consideration[i].token :=
          hlineToken
        rw [htoken, htoken1, husdcToken', husdcToken]
    intro f hf
    rcases mem_matchFulfillments hf with rfl | rfl | ⟨i, hi, rfl⟩
    · refine ⟨⟨1, 0⟩, ⟨0, 0⟩, nftAdv, wantedAdv, rfl, ?_, ?_, ?_, ?_⟩
      · simp [MatchExecution.offerItem, hnftSeller]
      · simp [MatchExecution.considerationItem, hwantedBuyer]
      · rw [MatchExecution.resolvedType, hnftType', hnftType, hwantedType']
        rcases htype with ⟨item, rest, hitem, htwo⟩ | ⟨⟨item, rest, hitem, hfour⟩, hresolver⟩
        · obtain ⟨rfl, -⟩ := List.cons.inj (hwanted.symm.trans hitem)
          rw [htwo]
          simp
        · obtain ⟨rfl, -⟩ := List.cons.inj (hwanted.symm.trans hitem)
          rw [if_pos ⟨hfour, hresolver⟩]
      · rw [hwantedToken', hwantedToken, hnftToken', hnftToken]
    · exact hpaid 0 (List.length_pos_iff.2 hlisting.nonempty)
    · exact hpaid i hi
  · refine ⟨buyer, seller, usdcAdv, rfl, ?_, hlines.length_eq.symm, ?_⟩
    · rw [List.head?_eq_getElem?, husdcBuyer]
    · rw [sum_startAmount hlines, hamount]
      exact Option.some.inj (husdcAmount.symm.trans husdcStart)

/-- The token that moves is the one that the bid wants, or that the resolver names for it, when the
listing offers that one. -/
theorem givesWanted_buildMatchExecution {x : MatchExecution} {tokenId : ℕ}
    (hbid : IsBid usdc nft amount bid) (hoffers : Offers tokenId listing)
    (htoken : firstConsiderationIs 2 bid ∧ Wants tokenId bid ∨ firstConsiderationIs 4 bid ∧
      MatchExecution.resolvedTo resolvers ⟨0, 0⟩ = some tokenId)
    (hx : buildMatchExecution bid listing resolvers = some x) : x.GivesWanted := by
  simp only [buildMatchExecution, Option.bind_eq_bind, Option.bind_eq_some_iff] at hx
  obtain ⟨buyer, hbuyer, seller, hseller, hx⟩ := hx
  obtain rfl := Option.some.inj hx
  obtain ⟨hbidOffer, hbidWanted⟩ := orderToAdvancedOrder_eq_some hbuyer
  obtain ⟨hgiven, -⟩ := orderToAdvancedOrder_eq_some hseller
  -- the USDC of the bid is no NFT
  obtain ⟨usdcItem, usdcRest, husdcOffer, husdcType, -⟩ := hbid.offer
  obtain ⟨usdcAdv, husdcAdv, husdcBuyer⟩ := head_advancedItems hbidOffer (by rw [husdcOffer]; rfl)
  have husdc : ∀ given, buyer.offer[0]? = some given → given.itemType ≠ 2 := by
    intro given hgiven htwo
    rw [husdcBuyer, Option.some.injEq] at hgiven
    rw [← hgiven, (advancedItem_eq_some husdcAdv).1, husdcType] at htwo
    cases htwo
  intro f hf o c given wanted hpair ho hc htwo
  rcases mem_matchFulfillments hf with rfl | rfl | ⟨i, -, rfl⟩
  · obtain ⟨hoList, hcList⟩ := Fulfillment.mk.inj hpair
    obtain rfl := (List.cons.inj hoList).1
    obtain rfl := (List.cons.inj hcList).1
    change seller.offer[0]? = some given at ho
    change buyer.consideration[0]? = some wanted at hc
    obtain ⟨nftItem, hnftItem, hnftToken⟩ := hoffers
    obtain ⟨nftAdv, hnftAdv, hnftSeller⟩ := head_advancedItems hgiven hnftItem
    obtain rfl := Option.some.inj (hnftSeller.symm.trans ho)
    have hgives : nftAdv.identifierOrCriteria = tokenId := Option.some.inj
      ((identifier_of_advancedItem hnftAdv).symm.trans hnftToken)
    rw [hgives]
    rcases htoken with ⟨⟨item, rest, hitem, htype⟩, wantedItem, hwantedItem, hwants⟩ |
      ⟨⟨item, rest, hitem, htype⟩, hresolved⟩
    · rw [hitem, List.head?_cons, Option.mem_some_iff] at hwantedItem
      obtain rfl := hwantedItem
      obtain ⟨wantedAdv, hwantedAdv, hwantedBuyer⟩ := head_advancedItems hbidWanted
        (by rw [hitem]; rfl)
      obtain rfl := Option.some.inj (hwantedBuyer.symm.trans hc)
      rw [MatchExecution.resolvedIdentifier, if_neg (by simp [advancedItem_eq_some hwantedAdv, htype])]
      exact Option.some.inj ((identifier_of_advancedItem hwantedAdv).symm.trans hwants)
    · obtain ⟨wantedAdv, hwantedAdv, hwantedBuyer⟩ := head_advancedItems hbidWanted
        (by rw [hitem]; rfl)
      obtain rfl := Option.some.inj (hwantedBuyer.symm.trans hc)
      rw [MatchExecution.resolvedIdentifier, if_pos ((advancedItem_eq_some hwantedAdv).1.trans htype),
        hresolved]
      rfl
  · obtain ⟨hoList, -⟩ := Fulfillment.mk.inj hpair
    obtain rfl := (List.cons.inj hoList).1
    exact absurd htwo (husdc given ho)
  · obtain ⟨hoList, -⟩ := Fulfillment.mk.inj hpair
    obtain rfl := (List.cons.inj hoList).1
    exact absurd htwo (husdc given ho)

def isTokenBidOrder (o : Order) : Prop :=
  o.side = .bid ∧ (o.parameters.offer.head?.map SeaportItem.itemType = some 1) ∧
    o.parameters.consideration.head?.map SeaportItem.itemType = some 2

def isCriteriaCollectionBid (o : Order) : Prop :=
  o.side = .bid ∧ o.parameters.consideration.head?.map SeaportItem.itemType = some 4

theorem firstConsiderationIs_of_head {itemType : ℕ} {o : Order}
    (h : o.parameters.consideration.head?.map SeaportItem.itemType = some itemType) :
    firstConsiderationIs itemType o := by
  obtain ⟨item, hitem, htype⟩ := Option.map_eq_some_iff.1 h
  obtain ⟨rest, hrest⟩ := List.head?_eq_some_iff.1 hitem
  exact ⟨item, rest, hrest, htype⟩

/-- A listing that was aligned to a bid is matched with it completely, and the token that moves is
the one that the bid wants when the seller lists that token. -/
theorem match_complete {deps : MatchDeps} {aligned : Order} (hbid : IsBid usdc nft amount bid)
    (hlisting : IsAsk usdc nft listing) (hapi : StoresPayload deps.replaceListingApi)
    (husdc : lower deps.usdcAddress = usdc) (hnft : lower deps.rwaAddress = nft)
    (hunits : deps.parseUnits (deps.formatUnits amount 6) 6 = amount)
    (hpositive : deps.isPositiveNumber (deps.formatUnits amount 6) = true → 0 < amount)
    (h : alignListingToBidOffer deps listing bid = .ok aligned) :
    (isTokenBidOrder bid → ∃ x, buildTokenBidMatchExecution bid aligned = some x ∧
      x.IsComplete aligned.parameters.consideration.length ∧
      (Offers deps.tokenId listing → Wants deps.tokenId bid → x.GivesWanted)) ∧
    (isCriteriaCollectionBid bid → ∀ tokenId criteriaProof,
      ∃ x, buildCriteriaMatchExecution bid aligned tokenId criteriaProof = some x ∧
        x.IsComplete aligned.parameters.consideration.length ∧
        (Offers deps.tokenId listing → tokenId = deps.tokenId → x.GivesWanted)) := by
  obtain ⟨halign, hamount⟩ := isAsk_align hbid hlisting hapi husdc hnft hunits hpositive h
  have hoffers := offers_align hbid hlisting hapi hunits hpositive h
  constructor
  · rintro ⟨-, -, htype⟩
    have htwo := firstConsiderationIs_of_head htype
    obtain ⟨x, hx, hcomplete⟩ : ∃ x, buildMatchExecution bid aligned [] = some x ∧
        x.IsComplete aligned.parameters.consideration.length :=
      isComplete_buildMatchExecution hbid halign hamount (.inl htwo)
    exact ⟨x, hx, hcomplete, fun hlists hwants =>
      givesWanted_buildMatchExecution hbid (hoffers hlists) (.inl ⟨htwo, hwants⟩) hx⟩
  · rintro ⟨-, htype⟩ tokenId criteriaProof
    have hfour := firstConsiderationIs_of_head htype
    have hresolved : MatchExecution.resolvedTo
        [⟨0, .consideration, 0, tokenId, criteriaProof⟩] ⟨0, 0⟩ = some tokenId := rfl
    obtain ⟨x, hx, hcomplete⟩ := isComplete_buildMatchExecution hbid halign hamount
      (.inr ⟨hfour, Option.isSome_of_eq_some hresolved⟩)
    refine ⟨x, hx, hcomplete, fun hlists htoken => ?_⟩
    subst htoken
    exact givesWanted_buildMatchExecution hbid (hoffers hlists) (.inr ⟨hfour, hresolved⟩) hx

def listedRow (orderHash : JsStr) (dto : CreateOrderDto) : Order where
  id := 0
  orderHash := orderHash
  offerer := dto.offerer
  side := .ask
  tokenContract := dto.tokenContract
  tokenId := dto.tokenId
  considerationAmount := dto.considerationAmount
  parameters := dto.parameters

def cardBid : Order where
  id := 1
  orderHash := js "0xb1d"
  offerer := js "0x" ++ List.replicate 40 '2'
  side := .bid
  tokenContract := cardContract
  tokenId := js "7"
  considerationAmount := js "100000000"
  parameters := {
    offer := [⟨1, usdcContract, js "0", js "100000000", js "100000000", []⟩]
    consideration := [⟨2, cardContract, js "7", js "1", js "1", []⟩] }

/-- The units are those of whole amounts. -/
def cardSeller : MatchDeps where
  env := defaultFees
  walletReady := true
  signerReady := true
  seller := (heldCard 0).seller
  rwaAddress := cardContract
  usdcAddress := usdcContract
  tokenId := 7
  settlementPolicy := .ok .selfVaultHold
  preflight := .ok ()
  formatUnits := fun n decimals => ofInt (n / 10 ^ decimals)
  parseUnits := fun s decimals => toNat s * 10 ^ decimals
  isPositiveNumber := fun s => isDigits s && 0 < toNat s
  replaceListingApi := fun _ dto => .ok (listedRow (js "0xa5c") dto)

theorem storesPayload_cardSeller : StoresPayload cardSeller.replaceListingApi := by
  intro oldOrderHash dto row h
  obtain rfl := Except.ok.inj h
  exact ⟨rfl, rfl, rfl⟩

theorem isBid_cardBid : IsBid (lower usdcContract) (lower cardContract) 100000000 cardBid where
  readable := ⟨_, rfl⟩
  offer := ⟨⟨1, usdcContract, js "0", js "100000000", js "100000000", []⟩, [], rfl, rfl, rfl,
    by decide, by decide⟩
  wanted := ⟨⟨2, cardContract, js "7", js "1", js "1", []⟩, [], rfl, rfl⟩

/-- A card at 90 USDC is signed again at the 100 USDC of the bid, with a line for the fee. -/
theorem match_complete_raised : ∃ dto aligned x, (heldCard 90000000).payload defaultFees = .ok dto ∧
    alignListingToBidOffer cardSeller (listedRow (js "0xa5c") dto) cardBid = .ok aligned ∧
    aligned.parameters.consideration.map SeaportItem.startAmount = [js "95000000", js "5000000"] ∧
    buildTokenBidMatchExecution cardBid aligned = some x ∧ x.IsComplete 2 ∧ x.GivesWanted := by
  obtain ⟨dto, hdto⟩ : ∃ dto, (heldCard 90000000).payload defaultFees = .ok dto := ⟨_, rfl⟩
  have hlisting : IsAsk (lower usdcContract) (lower cardContract) (listedRow (js "0xa5c") dto) :=
    (isAsk_of_payload (l := heldCard 90000000) (by decide) hdto rfl rfl rfl).1
  obtain ⟨aligned, haligned, hlines⟩ : ∃ aligned,
      alignListingToBidOffer cardSeller (listedRow (js "0xa5c") dto) cardBid = .ok aligned ∧
      aligned.parameters.consideration.map SeaportItem.startAmount =
        [js "95000000", js "5000000"] := by
    obtain rfl := Except.ok.inj hdto
    exact ⟨_, rfl, by decide⟩
  have hoffers : Offers cardSeller.tokenId (listedRow (js "0xa5c") dto) := by
    obtain rfl := Except.ok.inj hdto
    exact ⟨_, rfl, by decide⟩
  have hwants : Wants cardSeller.tokenId cardBid := ⟨_, rfl, by decide⟩
  obtain ⟨x, hx, hcomplete, hgives⟩ := (match_complete isBid_cardBid hlisting storesPayload_cardSeller
    rfl rfl (by decide) (fun _ => by decide) haligned).1 ⟨rfl, rfl, rfl⟩
  have hlength : aligned.parameters.consideration.length = 2 := by
    simpa using congrArg List.length hlines
  rw [hlength] at hcomplete
  exact ⟨dto, aligned, x, hdto, haligned, hlines, hx, hcomplete, hgives hoffers hwants⟩

end Complete

end Frontend
