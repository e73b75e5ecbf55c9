import Tokenable.Numeric.Interpolation
import Tokenable.Orders.NewRow
import Tokenable.Orders.SingleCall

/-!
# What the signer of an accepted order signed

An order is stored with a token and a price, and executed by Seaport from its signed parameters.
`Seaport` stands for the contract and the address parser: the amount that is taken of an item at a
time, and the texts that are addresses. An order whose parameters cannot be encoded has no hash and
is not accepted.
-/

namespace Orders
open Js Platform Async Db Vault Settlement Backend Interpolation

section Components

/-- An item as it is encoded; `recipient` is empty in an offer. -/
structure ComponentItem where
  itemType : ℕ
  token : JsStr
  identifierOrCriteria : ℤ
  startAmount : ℤ
  endAmount : ℤ
  recipient : JsStr := []

structure OrderComponents where
  offer : List ComponentItem
  consideration : List ComponentItem
  startTime : ℕ
  endTime : ℕ

def bigIntish (s : JsStr) : Option ℤ := if (trim s).isEmpty then some 0 else toBigInt (trim s)

def ethAddress (getAddress : JsStr → Option JsStr) (s : JsStr) : Option JsStr :=
  if (trim s).isEmpty then getAddress zeroAddress else getAddress (trim s)

def offerComponent (getAddress : JsStr → Option JsStr) (it : SeaportItem) : Option ComponentItem := do
  let token ← ethAddress getAddress it.token
  let identifierOrCriteria ← bigIntish it.identifierOrCriteria
  let startAmount ← bigIntish it.startAmount
  let endAmount ← bigIntish it.endAmount
  pure { itemType := it.itemType, token, identifierOrCriteria, startAmount, endAmount }

def considerationComponent (getAddress : JsStr → Option JsStr) (it : SeaportItem) :
    Option ComponentItem := do
  let item ← offerComponent getAddress it
  let recipient ← ethAddress getAddress it.recipient
  pure { item with recipient }

/-- The components that are hashed; a text that is no number or no address throws. -/
def buildSeaportOrderComponents (getAddress : JsStr → Option JsStr) (p : OrderParameters) :
    Option OrderComponents := do
  let offer ← p.offer.mapM (offerComponent getAddress)
  let consideration ← p.consideration.mapM (considerationComponent getAddress)
  pure { offer, consideration, startTime := p.startTime, endTime := p.endTime }

def IsUint (n : ℤ) : Prop := 0 ≤ n ∧ n < 2 ^ 256

instance : DecidablePred IsUint := fun n => inferInstanceAs (Decidable (0 ≤ n ∧ n < 2 ^ 256))

def ComponentItem.IsEncodable (it : ComponentItem) : Prop :=
  it.itemType < 2 ^ 8 ∧ IsUint it.identifierOrCriteria ∧ IsUint it.startAmount ∧ IsUint it.endAmount

instance : DecidablePred ComponentItem.IsEncodable := fun it =>
  inferInstanceAs (Decidable (it.itemType < 2 ^ 8 ∧ IsUint it.identifierOrCriteria ∧
    IsUint it.startAmount ∧ IsUint it.endAmount))

/-- The ABI encoding of the arguments of `getOrderHash` exists. -/
def OrderComponents.IsEncodable (c : OrderComponents) : Prop :=
  (∀ it ∈ c.offer ++ c.consideration, it.IsEncodable) ∧ IsUint c.startTime ∧ IsUint c.endTime

instance : DecidablePred OrderComponents.IsEncodable := fun c =>
  inferInstanceAs (Decidable ((∀ it ∈ c.offer ++ c.consideration, it.IsEncodable) ∧
    IsUint c.startTime ∧ IsUint c.endTime))

theorem bigIntish_eq (s : JsStr) : bigIntish s = toBigInt s := by
  unfold bigIntish
  split_ifs with h
  · have hnil : trim s = [] := List.isEmpty_iff.mp h
    rw [toBigInt, hnil]
  · rw [toBigInt, toBigInt, trim_trim]

/-- The encoded item carries what the texts of the item denote. -/
structure ComponentItem.Reads (getAddress : JsStr → Option JsStr) (it : SeaportItem)
    (c : ComponentItem) : Prop where
  itemType : c.itemType = it.itemType
  token : ethAddress getAddress it.token = some c.token
  identifierOrCriteria : toBigInt it.identifierOrCriteria = some c.identifierOrCriteria
  startAmount : toBigInt it.startAmount = some c.startAmount
  endAmount : toBigInt it.endAmount = some c.endAmount

variable {getAddress : JsStr → Option JsStr}

theorem reads_offerComponent {it : SeaportItem} {c : ComponentItem}
    (h : offerComponent getAddress it = some c) : c.Reads getAddress it := by
  simp only [offerComponent, bigIntish_eq, Option.bind_eq_bind, Option.bind_eq_some_iff] at h
  obtain ⟨token, htoken, id, hid, startAmount, hstart, endAmount, hend, hc⟩ := h
  obtain rfl := Option.some.inj hc
  exact ⟨rfl, htoken, hid, hstart, hend⟩

theorem reads_considerationComponent {it : SeaportItem} {c : ComponentItem}
    (h : considerationComponent getAddress it = some c) : c.Reads getAddress it := by
  simp only [considerationComponent, Option.bind_eq_bind, Option.bind_eq_some_iff] at h
  obtain ⟨item, hitem, recipient, -, hc⟩ := h
  obtain rfl := Option.some.inj hc
  have hreads := reads_offerComponent hitem
  exact ⟨hreads.itemType, hreads.token, hreads.identifierOrCriteria, hreads.startAmount,
    hreads.endAmount⟩

theorem forall₂_of_mapM {α β : Type} {f : α → Option β} {R : α → β → Prop}
    (hf : ∀ a b, f a = some b → R a b) {l : List α} {m : List β} (h : l.mapM f = some m) :
    List.Forall₂ R l m := by
  induction l generalizing m with
  | nil =>
    obtain rfl : [] = m := Option.some.inj h
    exact .nil
  | cons a l ih =>
    simp only [List.mapM_cons, Option.bind_eq_bind, Option.bind_eq_some_iff] at h
    obtain ⟨b, hb, m', hm', hcons⟩ := h
    obtain rfl := Option.some.inj hcons
    exact .cons (hf a b hb) (ih hm')

/-- The components have the items of the parameters, in their order. -/
theorem items_of_build {p : OrderParameters} {c : OrderComponents}
    (h : buildSeaportOrderComponents getAddress p = some c) :
    List.Forall₂ (fun it c => c.Reads getAddress it) p.offer c.offer ∧
      List.Forall₂ (fun it c => c.Reads getAddress it) p.consideration c.consideration ∧
      c.startTime = p.startTime ∧ c.endTime = p.endTime := by
  simp only [buildSeaportOrderComponents, Option.bind_eq_bind, Option.bind_eq_some_iff] at h
  obtain ⟨offer, hoffer, consideration, hconsideration, hc⟩ := h
  obtain rfl := Option.some.inj hc
  exact ⟨forall₂_of_mapM (fun _ _ => reads_offerComponent) hoffer,
    forall₂_of_mapM (fun _ _ => reads_considerationComponent) hconsideration, rfl, rfl⟩

def SeaportItem.amounts (it : SeaportItem) : ℤ × ℤ :=
  (parseMicros it.startAmount, parseMicros it.endAmount)

def ComponentItem.amounts (it : ComponentItem) : ℤ × ℤ := (it.startAmount, it.endAmount)

theorem amounts_eq {its : List SeaportItem} {cs : List ComponentItem}
    (h : List.Forall₂ (fun it c => ComponentItem.Reads getAddress it c) its cs) :
    cs.map ComponentItem.amounts = its.map SeaportItem.amounts := by
  induction h with
  | nil => rfl
  | cons hreads _ ih =>
    simp only [List.map_cons, ih, ComponentItem.amounts, SeaportItem.amounts, parseMicros,
      hreads.startAmount, hreads.endAmount, Option.getD_some]

end Components

/-- `getAddress` of the address parser, and the amount of a consideration item that Seaport takes at
a time: that of the line between its two amounts, rounded up. -/
structure Seaport where
  getAddress : JsStr → Option JsStr
  amountAt : (startAmount endAmount : ℤ) → (startTime endTime t : ℕ) → ℤ
  amountAt_start : ∀ a b s e, amountAt a b s e s = a
  amountAt_between : ∀ a b s e t, s < e → s ≤ t → t ≤ e →
    amountAt a b s e t = ⌈lerp a b (e - s) (t - s)⌉

def ComponentItem.amountAt (sp : Seaport) (c : OrderComponents) (t : ℕ) (it : ComponentItem) : ℤ :=
  sp.amountAt it.startAmount it.endAmount c.startTime c.endTime t

/-- A hash is answered for parameters that can be encoded only. -/
def Seaport.Answers (sp : Seaport) : (c : BackendCmd) → BackendRes c → Prop
  | .inr (.getOrderHash _ p), answer => ∀ hash, answer = Except.ok hash →
      ∃ c, buildSeaportOrderComponents sp.getAddress p = some c ∧ c.IsEncodable
  | _, _ => True

/-- What Seaport executes for the row. -/
def Seaport.signed (sp : Seaport) (row : Order) : Option OrderComponents :=
  buildSeaportOrderComponents sp.getAddress (seaportHashableParameters row.parameters)

section Acceptance
variable {sp : Seaport} {env : Env} {dto : CreateOrderDto} {chainId : ℕ} {row : Order}

/-- What an accepted request and the stored row have in common. -/
structure StoredAs (sp : Seaport) (dto : CreateOrderDto) (row : Order) : Prop where
  parameters : seaportHashableParameters row.parameters = seaportHashableParameters dto.parameters
  signed : ∃ c, sp.signed row = some c ∧ c.IsEncodable
  tokenContract : row.tokenContract = dto.tokenContract
  tokenId : row.tokenId = normalizeDecimalTokenId dto.tokenId
  considerationAmount : row.considerationAmount = dto.considerationAmount

theorem storedAs_of_materialize
    (h : (materializeOrderFromDto dto chainId).Yields sp.Answers (.ok row)) :
    StoredAs sp dto row := by
  obtain ⟨hrow, hash, hanswer⟩ := row_of_materialize h
  exact ⟨hrow.parameters, hanswer hash rfl, hrow.tokenContract, hrow.tokenId,
    hrow.considerationAmount⟩

/-- A created order has passed the checks of its kind and the row is the one of the request. -/
theorem inversion_createOrder (h : (createOrder env dto chainId).Yields sp.Answers (.ok row)) :
    (assertNewOrder env dto chainId).Yields sp.Answers (.ok ()) ∧ StoredAs sp dto row := by
  unfold createOrder at h
  obtain ⟨_, -, h⟩ := Prog.yields_bind.mp h
  obtain ⟨_, hchecks, h⟩ := Prog.yields_bind.mp h
  obtain ⟨order, horder, h⟩ := Prog.yields_bind.mp h
  obtain ⟨_, -, h⟩ := Prog.yields_bind.mp h
  obtain ⟨saved, hsaved, hrest⟩ := Prog.yields_bind.mp h
  obtain rfl := eq_of_persistOrderWith hsaved
  have hrow : saved = row := by
    by_cases hask : dto.side = .ask
    · rw [if_pos hask] at hrest
      obtain ⟨_, -, hshow⟩ := Prog.yields_bind.mp hrest
      obtain ⟨_, -, hpure⟩ := Prog.yields_bind.mp hshow
      exact Prog.yields_pure.mp hpure
    · rw [if_neg hask] at hrest
      obtain ⟨_, -, hpure⟩ := Prog.yields_bind.mp hrest
      exact Prog.yields_pure.mp hpure
  exact ⟨hchecks, hrow ▸ storedAs_of_materialize horder⟩

theorem yields_transaction {Ans : (c : BackendCmd) → BackendRes c → Prop} {body : BackendM Order}
    (h : (transaction body).Yields Ans (.ok row)) : body.Yields Ans (.ok row) := by
  obtain ⟨r, hbody, hend⟩ := Prog.yields_settle.mp h
  cases r with
  | ok a =>
    obtain ⟨_, -, hrow⟩ := hend
    exact Except.ok.inj hrow ▸ hbody
  | error e =>
    obtain ⟨_, -, hrow⟩ := hend
    cases hrow

/-- A replaced bid has passed the checks of a bid. -/
theorem inversion_replaceBuyerBid {oldOrderHash callerAddress : JsStr}
    (h : (replaceBuyerBid env oldOrderHash callerAddress dto chainId).Yields sp.Answers (.ok row)) :
    (assertReplacementBid env dto chainId).Yields sp.Answers (.ok ()) ∧ StoredAs sp dto row := by
  unfold replaceBuyerBid at h
  obtain ⟨_, -, h⟩ := Prog.yields_bind.mp h
  obtain ⟨_, -, h⟩ := Prog.yields_bind.mp h
  obtain ⟨_, hchecks, h⟩ := Prog.yields_bind.mp h
  have hbody := yields_transaction h
  obtain ⟨old, -, hmatch⟩ := Prog.yields_bind.mp hbody
  cases herror : replacedBidError old dto with
  | some e =>
    rw [herror] at hmatch
    cases hmatch
  | none =>
    rw [herror] at hmatch
    obtain ⟨_, -, h⟩ := Prog.yields_bind.mp hmatch
    obtain ⟨_, -, h⟩ := Prog.yields_bind.mp h
    obtain ⟨_, -, h⟩ := Prog.yields_bind.mp h
    obtain ⟨_, -, h⟩ := Prog.yields_bind.mp h
    obtain ⟨_, -, h⟩ := Prog.yields_bind.mp h
    obtain ⟨order, horder, h⟩ := Prog.yields_bind.mp h
    obtain rfl := eq_of_persistOrderWith h
    exact ⟨hchecks, storedAs_of_materialize horder⟩

/-- A replaced listing has passed the checks of a listing. -/
theorem inversion_replaceSellerListing {oldOrderHash callerAddress : JsStr}
    (h : (replaceSellerListing env oldOrderHash callerAddress dto chainId).Yields sp.Answers
      (.ok row)) :
    assertValidAskListing env dto chainId = .ok () ∧ StoredAs sp dto row := by
  unfold replaceSellerListing at h
  obtain ⟨_, -, h⟩ := Prog.yields_bind.mp h
  obtain ⟨_, -, h⟩ := Prog.yields_bind.mp h
  obtain ⟨_, hvalid, h⟩ := Prog.yields_bind.mp h
  obtain ⟨_, -, h⟩ := Prog.yields_bind.mp h
  obtain ⟨_, -, h⟩ := Prog.yields_bind.mp h
  have hbody := yields_transaction h
  obtain ⟨old, -, h⟩ := Prog.yields_bind.mp hbody
  obtain ⟨_, -, h⟩ := Prog.yields_bind.mp h
  obtain ⟨_, -, h⟩ := Prog.yields_bind.mp h
  obtain ⟨_, -, h⟩ := Prog.yields_bind.mp h
  obtain ⟨_, -, h⟩ := Prog.yields_bind.mp h
  obtain ⟨_, -, h⟩ := Prog.yields_bind.mp h
  obtain ⟨_, -, h⟩ := Prog.yields_bind.mp h
  unfold insertReplacementAsk at h
  obtain ⟨order, horder, h⟩ := Prog.yields_bind.mp h
  obtain ⟨_, -, h⟩ := Prog.yields_bind.mp h
  obtain ⟨saved, hsaved, h⟩ := Prog.yields_bind.mp h
  obtain ⟨_, -, h⟩ := Prog.yields_bind.mp h
  obtain rfl := eq_of_persistOrderWith hsaved
  obtain rfl := Prog.yields_pure.mp h
  have hstored := storedAs_of_materialize horder
  exact ⟨hvalid, hstored.parameters, hstored.signed, hstored.tokenContract, hstored.tokenId,
    hstored.considerationAmount⟩

end Acceptance

section Asks
variable {sp : Seaport} {env : Env} {dto : CreateOrderDto} {chainId : ℕ} {row : Order}

def AcceptsAsk (sp : Seaport) (env : Env) (dto : CreateOrderDto) (row : Order) : Prop :=
  ∃ chainId, (dto.side = .ask ∧ (createOrder env dto chainId).Yields sp.Answers (.ok row)) ∨
    ∃ oldOrderHash callerAddress,
      (replaceSellerListing env oldOrderHash callerAddress dto chainId).Yields sp.Answers (.ok row)

def OrderComponents.OffersOnly (c : OrderComponents) (row : Order) : Prop :=
  ∃ item, c.offer = [item] ∧ item.itemType = 2 ∧ lower item.token = lower row.tokenContract ∧
    toBigInt row.tokenId = some item.identifierOrCriteria

/-- The amounts that Seaport takes at `t` are not negative and add up to the price of the row. -/
def OrderComponents.Pays (sp : Seaport) (c : OrderComponents) (t : ℕ) (row : Order) : Prop :=
  (∀ it ∈ c.consideration, 0 ≤ sp.amountAt it.startAmount it.endAmount c.startTime c.endTime t) ∧
    toBigInt row.considerationAmount = some (c.consideration.map fun it =>
      sp.amountAt it.startAmount it.endAmount c.startTime c.endTime t).sum

/-- At every time of its window the signed order is what the row says. -/
def Represents (sp : Seaport) (row : Order) : Prop :=
  ∀ t, row.parameters.startTime ≤ t → t ≤ row.parameters.endTime →
    ∃ c, sp.signed row = some c ∧ c.OffersOnly row ∧ c.Pays sp t row

/-- The offer of the request is the listed token alone, where the checks of a listing do not say
so: its length, its item type, its contract, and an identifier that is no decimal text. -/
def SignsListedToken (sp : Seaport) (dto : CreateOrderDto) : Prop :=
  ∃ item, dto.parameters.offer = [item] ∧ item.itemType = 2 ∧
    (ethAddress sp.getAddress item.token).map lower = some (lower dto.tokenContract) ∧
    (isValidDecimalTokenId item.identifierOrCriteria ∨
      toBigInt item.identifierOrCriteria = toBigInt dto.tokenId)

/-- The end amounts, which the checks of a listing do not read, add up to the start amounts, and
every amount moves by a multiple of the duration. -/
def MovesEvenly (p : OrderParameters) : Prop :=
  ((p.consideration.map SeaportItem.amounts).map Prod.snd).sum =
      ((p.consideration.map SeaportItem.amounts).map Prod.fst).sum ∧
    ∀ it ∈ p.consideration, ((p.endTime - p.startTime : ℕ) : ℤ) ∣ it.amounts.2 - it.amounts.1

/-- What the checks of a listing establish. -/
structure CheckedAsk (dto : CreateOrderDto) : Prop where
  price : toBigInt dto.considerationAmount =
    some ((dto.parameters.consideration.map SeaportItem.amounts).map Prod.fst).sum
  tokenId : isValidDecimalTokenId dto.tokenId = true
  offerId : ∀ item ∈ dto.parameters.offer.head?,
    isValidDecimalTokenId item.identifierOrCriteria = true →
      normalizeDecimalTokenId item.identifierOrCriteria = normalizeDecimalTokenId dto.tokenId

theorem sumConsideration_eq_ok {usdc : JsStr} {i : ℕ} {cons : List SeaportItem} {sum total : ℤ}
    (h : sumConsideration usdc chainId i cons sum = .ok total) :
    total = sum + ((cons.map SeaportItem.amounts).map Prod.fst).sum := by
  induction cons generalizing i sum with
  | nil =>
    have htotal : sum = total := Except.ok.inj h
    simp [htotal]
  | cons it cons ih =>
    simp only [sumConsideration, bind_eq_ok, require_eq_ok, bigInt_eq_ok] at h
    obtain ⟨_, -, _, -, amount, hamount, hrest⟩ := h
    rw [ih hrest]
    simp only [List.map_cons, List.sum_cons, SeaportItem.amounts, parseMicros, hamount,
      Option.getD_some]
    ring

theorem checkedAsk_of_valid (h : assertValidAskListing env dto chainId = .ok ()) :
    CheckedAsk dto := by
  simp only [assertValidAskListing, bind_eq_ok, require_eq_ok, bigInt_eq_ok] at h
  obtain ⟨_, -, usdc, -, sum, hsum, declared, hdeclared, _, heq, _, htokenId, hoffer⟩ := h
  have htotal : sum = declared := of_decide_eq_true heq
  refine ⟨?_, htokenId, ?_⟩
  · rw [hdeclared, ← htotal, sumConsideration_eq_ok hsum, zero_add]
  · intro item hitem hdecimal
    rw [Option.mem_def] at hitem
    simpa [hitem, hdecimal] using hoffer

/-- An accepted ask has passed the checks of a listing. -/
theorem inversion_acceptsAsk (h : AcceptsAsk sp env dto row) : CheckedAsk dto ∧ StoredAs sp dto row := by
  obtain ⟨chainId, ⟨hside, hcreate⟩ | ⟨oldOrderHash, callerAddress, hreplace⟩⟩ := h
  · obtain ⟨hchecks, hstored⟩ := inversion_createOrder hcreate
    rw [assertNewOrder, hside] at hchecks
    obtain ⟨_, hvalid, -⟩ := Prog.yields_bind.mp hchecks
    exact ⟨checkedAsk_of_valid hvalid, hstored⟩
  · obtain ⟨hvalid, hstored⟩ := inversion_replaceSellerListing hreplace
    exact ⟨checkedAsk_of_valid hvalid, hstored⟩

theorem StoredAs.offer_eq (h : StoredAs sp dto row) :
    (seaportHashableParameters row.parameters).offer = dto.parameters.offer := by
  rw [h.parameters]
  rfl

theorem StoredAs.consideration_eq (h : StoredAs sp dto row) :
    (seaportHashableParameters row.parameters).consideration = dto.parameters.consideration := by
  rw [h.parameters]
  rfl

/-- The stored window is the one of the request. -/
theorem StoredAs.window_eq (h : StoredAs sp dto row) :
    row.parameters.startTime = dto.parameters.startTime ∧
      row.parameters.endTime = dto.parameters.endTime := by
  have hstart := congrArg OrderParameters.startTime h.parameters
  have hend := congrArg OrderParameters.endTime h.parameters
  exact ⟨hstart, hend⟩

theorem offersOnly_iff {c : OrderComponents} (hchecked : CheckedAsk dto)
    (hstored : StoredAs sp dto row) (hc : sp.signed row = some c) :
    c.OffersOnly row ↔ SignsListedToken sp dto := by
  obtain ⟨hoffer, -, -, -⟩ := items_of_build hc
  rw [hstored.offer_eq] at hoffer
  have hrowId : toBigInt row.tokenId = toBigInt dto.tokenId := by
    rw [hstored.tokenId]
    exact toBigInt_normalizeDecimalTokenId hchecked.tokenId
  constructor
  · rintro ⟨item, hone, htype, htoken, hid⟩
    rw [hone] at hoffer
    cases hsigned : dto.parameters.offer with
    | nil =>
      rw [hsigned] at hoffer
      cases hoffer
    | cons it its =>
      rw [hsigned] at hoffer
      cases hoffer with
      | cons hreads hnil =>
        cases hnil
        refine ⟨it, hsigned, hreads.itemType ▸ htype, ?_, .inr ?_⟩
        · rw [hreads.token, Option.map_some, htoken, hstored.tokenContract]
        · rw [hreads.identifierOrCriteria, ← hid, hrowId]
  · rintro ⟨it, hsigned, htype, htoken, hid⟩
    have hhead : it ∈ dto.parameters.offer.head? := by rw [hsigned]; rfl
    have hoffers := hoffer
    rw [hsigned] at hoffers
    cases hitems : c.offer with
    | nil =>
      rw [hitems] at hoffers
      cases hoffers
    | cons item items =>
      rw [hitems] at hoffers
      cases hoffers with
      | cons hreads hnil =>
        cases hnil
        refine ⟨item, hitems, hreads.itemType.trans htype, ?_, ?_⟩
        · rw [hreads.token, Option.map_some, Option.some.injEq] at htoken
          rw [htoken, hstored.tokenContract]
        · rw [hrowId, ← hreads.identifierOrCriteria]
          rcases hid with hdecimal | hsame
          · have hnormal := hchecked.offerId it hhead hdecimal
            rw [← toBigInt_normalizeDecimalTokenId hdecimal, hnormal,
              toBigInt_normalizeDecimalTokenId hchecked.tokenId]
          · exact hsame.symm

/-- The amounts that are taken at a time of the window are not negative. -/
theorem amountAt_nonneg {a b : ℤ} {s e t : ℕ} (ha : IsUint a) (hb : IsUint b) (hs : s ≤ t)
    (he : t ≤ e) : 0 ≤ sp.amountAt a b s e t := by
  by_cases hlt : s < e
  · rw [sp.amountAt_between a b s e t hlt hs he]
    exact Int.ceil_nonneg (lerp_nonneg ha.1 hb.1 (by omega))
  · have hend : e = s := by omega
    have hnow : t = s := by omega
    rw [hend, hnow, sp.amountAt_start]
    exact ha.1

theorem pays_iff {c : OrderComponents} {t : ℕ} (hchecked : CheckedAsk dto)
    (hstored : StoredAs sp dto row) (hc : sp.signed row = some c) (hencodable : c.IsEncodable)
    (hs : dto.parameters.startTime ≤ t) (he : t ≤ dto.parameters.endTime) :
    c.Pays sp t row ↔
      ((dto.parameters.consideration.map SeaportItem.amounts).map fun p =>
        sp.amountAt p.1 p.2 dto.parameters.startTime dto.parameters.endTime t).sum =
      ((dto.parameters.consideration.map SeaportItem.amounts).map Prod.fst).sum := by
  obtain ⟨-, hconsideration, hstart, hend⟩ := items_of_build hc
  rw [hstored.consideration_eq] at hconsideration
  have hstart' : c.startTime = dto.parameters.startTime := hstart.trans hstored.window_eq.1
  have hend' : c.endTime = dto.parameters.endTime := hend.trans hstored.window_eq.2
  have hsum : (c.consideration.map fun it =>
      sp.amountAt it.startAmount it.endAmount c.startTime c.endTime t) =
      (dto.parameters.consideration.map SeaportItem.amounts).map fun p =>
        sp.amountAt p.1 p.2 dto.parameters.startTime dto.parameters.endTime t := by
    rw [← amounts_eq hconsideration, List.map_map, hstart', hend']
    rfl
  have hnonneg : ∀ it ∈ c.consideration,
      0 ≤ sp.amountAt it.startAmount it.endAmount c.startTime c.endTime t := by
    intro it hit
    obtain ⟨-, -, hstartAmount, hendAmount⟩ := hencodable.1 it (List.mem_append_right _ hit)
    exact amountAt_nonneg hstartAmount hendAmount (hstart' ▸ hs) (hend' ▸ he)
  unfold OrderComponents.Pays
  rw [hsum, hstored.considerationAmount, hchecked.price, Option.some.injEq]
  exact ⟨fun h => h.2.symm, fun h => ⟨hnonneg, h.symm⟩⟩

/-- The start amounts add up to the price, so the amounts of the whole window do if and only if
they move evenly. -/
theorem amounts_constant_iff (sp : Seaport) {p : OrderParameters} (hwindow : p.startTime ≤ p.endTime) :
    (∀ t, p.startTime ≤ t → t ≤ p.endTime →
      ((p.consideration.map SeaportItem.amounts).map fun q =>
        sp.amountAt q.1 q.2 p.startTime p.endTime t).sum =
      ((p.consideration.map SeaportItem.amounts).map Prod.fst).sum) ↔
      (p.startTime < p.endTime → MovesEvenly p) := by
  by_cases hlt : p.startTime < p.endTime
  · have hd : 0 < p.endTime - p.startTime := by omega
    have hceil : ∀ k, k ≤ p.endTime - p.startTime →
        (fun q : ℤ × ℤ => sp.amountAt q.1 q.2 p.startTime p.endTime (p.startTime + k)) =
          fun q => ⌈lerp q.1 q.2 (p.endTime - p.startTime) k⌉ := by
      intro k hk
      funext q
      rw [sp.amountAt_between _ _ _ _ _ hlt (by omega) (by omega), Nat.add_sub_cancel_left]
    rw [MovesEvenly, ← List.forall_mem_map (P := fun q : ℤ × ℤ =>
      ((p.endTime - p.startTime : ℕ) : ℤ) ∣ q.2 - q.1), ← sum_ceil_lerp_constant_iff hd]
    constructor
    · intro h _ k hk
      have hat := h (p.startTime + k) (by omega) (by omega)
      rwa [hceil k hk] at hat
    · intro h t hs he
      have hk : t - p.startTime ≤ p.endTime - p.startTime := by omega
      have hat := h hlt (t - p.startTime) hk
      rw [← hceil _ hk] at hat
      rwa [Nat.add_sub_cancel' hs] at hat
  · have hend : p.endTime = p.startTime := by omega
    refine ⟨fun _ hlt' => absurd hlt' hlt, fun _ t hs he => ?_⟩
    have hnow : t = p.startTime := by omega
    have hfst : (fun q : ℤ × ℤ => sp.amountAt q.1 q.2 p.startTime p.endTime t) = Prod.fst := by
      funext q
      rw [hend, hnow, sp.amountAt_start]
    rw [hfst]

/-- An accepted ask represents the signed order if and only if the parts of the order that the
checks do not read agree with it. -/
theorem accepted_ask_represents_signed_order_iff (sp : Seaport) (env : Env) (dto : CreateOrderDto)
    (row : Order) (h : AcceptsAsk sp env dto row) :
    Represents sp row ↔ (dto.parameters.startTime ≤ dto.parameters.endTime →
      SignsListedToken sp dto ∧
        (dto.parameters.startTime < dto.parameters.endTime → MovesEvenly dto.parameters)) := by
  obtain ⟨hchecked, hstored⟩ := inversion_acceptsAsk h
  obtain ⟨c, hc, hencodable⟩ := hstored.signed
  obtain ⟨hstart, hend⟩ := hstored.window_eq
  unfold Represents
  rw [hstart, hend]
  constructor
  · intro hrep hwindow
    have hat : ∀ t, dto.parameters.startTime ≤ t → t ≤ dto.parameters.endTime →
        c.OffersOnly row ∧ c.Pays sp t row := by
      intro t hs he
      obtain ⟨c', hc', hoffer, hpays⟩ := hrep t hs he
      obtain rfl := Option.some.inj (hc.symm.trans hc')
      exact ⟨hoffer, hpays⟩
    constructor
    · exact (offersOnly_iff hchecked hstored hc).mp (hat _ le_rfl hwindow).1
    · rw [← amounts_constant_iff sp hwindow]
      intro t hs he
      exact (pays_iff hchecked hstored hc hencodable hs he).mp (hat t hs he).2
  · intro hcond t hs he
    obtain ⟨htoken, hmoves⟩ := hcond (hs.trans he)
    refine ⟨c, hc, (offersOnly_iff hchecked hstored hc).mpr htoken, ?_⟩
    rw [pays_iff hchecked hstored hc hencodable hs he]
    exact (amounts_constant_iff sp (hs.trans he)).mpr hmoves t hs he

end Asks

section Bids
variable {sp : Seaport} {env : Env} {dto : CreateOrderDto} {chainId : ℕ} {row : Order}

def AcceptsBid (sp : Seaport) (env : Env) (dto : CreateOrderDto) (row : Order) : Prop :=
  ∃ chainId, (dto.side = .bid ∧ (createOrder env dto chainId).Yields sp.Answers (.ok row)) ∨
    ∃ oldOrderHash callerAddress,
      (replaceBuyerBid env oldOrderHash callerAddress dto chainId).Yields sp.Answers (.ok row)

def StoresSignedPrice (row : Order) : Prop :=
  ∃ item n, row.parameters.offer = [item] ∧ toBigInt row.considerationAmount = some n ∧
    toBigInt item.startAmount = some n ∧ toBigInt item.endAmount = some n ∧ 0 < n

/-- What the checks of a bid leave open: a second offer item, an amount of zero, an end amount that
differs from the start amount, and a declared amount that differs from both. -/
def OffersDeclaredAmount (dto : CreateOrderDto) : Prop :=
  dto.parameters.offer.tail = [] ∧ ∀ item ∈ dto.parameters.offer.head?,
    parseMicros item.startAmount ≠ 0 ∧ parseMicros item.endAmount = parseMicros item.startAmount ∧
      toBigInt dto.considerationAmount = toBigInt item.startAmount

theorem offer_of_assertValidBid {itemType nowMs : ℕ} {wrongType : JsStr}
    {checkItem : SeaportItem → Except HttpError Unit}
    (h : assertValidBid itemType wrongType checkItem env dto chainId nowMs = .ok ()) :
    ∃ item, dto.parameters.offer.head? = some item := by
  unfold assertValidBid at h
  cases hhead : dto.parameters.offer.head? with
  | some item => exact ⟨item, rfl⟩
  | none =>
    rw [hhead] at h
    cases h

theorem offer_of_assertNewBid (h : (assertNewBid env dto chainId).Yields sp.Answers (.ok ())) :
    ∃ item, dto.parameters.offer.head? = some item := by
  unfold assertNewBid at h
  split_ifs at h
  · obtain ⟨now, -, hrest⟩ := Prog.yields_bind.mp h
    obtain ⟨_, hvalid, -⟩ := Prog.yields_bind.mp hrest
    exact offer_of_assertValidBid hvalid
  · obtain ⟨now, -, hrest⟩ := Prog.yields_bind.mp h
    obtain ⟨_, hvalid, -⟩ := Prog.yields_bind.mp hrest
    exact offer_of_assertValidBid hvalid
  · cases h

theorem offer_of_assertReplacementBid
    (h : (assertReplacementBid env dto chainId).Yields sp.Answers (.ok ())) :
    ∃ item, dto.parameters.offer.head? = some item := by
  unfold assertReplacementBid at h
  obtain ⟨now, -, hrest⟩ := Prog.yields_bind.mp h
  split_ifs at hrest
  · obtain ⟨_, hvalid, -⟩ := Prog.yields_bind.mp hrest
    exact offer_of_assertValidBid hvalid
  · obtain ⟨_, hvalid, -⟩ := Prog.yields_bind.mp hrest
    exact offer_of_assertValidBid hvalid
  · obtain ⟨_, hthrow, -⟩ := Prog.yields_bind.mp hrest
    cases hthrow

/-- An accepted bid has an offer. -/
theorem inversion_acceptsBid (h : AcceptsBid sp env dto row) :
    (∃ item, dto.parameters.offer.head? = some item) ∧ StoredAs sp dto row := by
  obtain ⟨chainId, ⟨hside, hcreate⟩ | ⟨oldOrderHash, callerAddress, hreplace⟩⟩ := h
  · obtain ⟨hchecks, hstored⟩ := inversion_createOrder hcreate
    rw [assertNewOrder, hside] at hchecks
    exact ⟨offer_of_assertNewBid hchecks, hstored⟩
  · obtain ⟨hchecks, hstored⟩ := inversion_replaceBuyerBid hreplace
    exact ⟨offer_of_assertReplacementBid hchecks, hstored⟩

/-- An accepted bid stores the price that the bidder signed if and only if the request offers one
positive amount and declares it. -/
theorem accepted_bid_stores_signed_price_iff (sp : Seaport) (env : Env) (dto : CreateOrderDto)
    (row : Order) (h : AcceptsBid sp env dto row) :
    StoresSignedPrice row ↔ OffersDeclaredAmount dto := by
  obtain ⟨⟨item, hhead⟩, hstored⟩ := inversion_acceptsBid h
  obtain ⟨c, hc, hencodable⟩ := hstored.signed
  have hoffer : row.parameters.offer = dto.parameters.offer := hstored.offer_eq
  obtain ⟨rest, hrest⟩ : ∃ rest, dto.parameters.offer = item :: rest := by
    rw [List.head?_eq_some_iff] at hhead
    exact hhead
  obtain ⟨hitems, -, -, -⟩ := items_of_build hc
  rw [hstored.offer_eq, hrest] at hitems
  unfold StoresSignedPrice OffersDeclaredAmount
  rw [hoffer, hstored.considerationAmount, hrest]
  cases hcs : c.offer with
  | nil =>
    rw [hcs] at hitems
    cases hitems
  | cons ci cs =>
    rw [hcs] at hitems
    cases hitems with
    | cons hreads htail =>
      have hmem : ci ∈ c.offer ++ c.consideration := by
        rw [hcs]
        exact List.mem_append_left _ (.head _)
      have hnonneg : 0 ≤ ci.startAmount := (hencodable.1 ci hmem).2.2.1.1
      constructor
      · rintro ⟨item', n, hone, hprice, hstart, hend, hpos⟩
        obtain ⟨rfl, rfl⟩ := List.cons.inj hone
        refine ⟨rfl, fun it hit => ?_⟩
        obtain rfl : item = it := Option.some.inj hit
        rw [parseMicros, parseMicros, hstart, hend, hprice]
        exact ⟨by simpa using hpos.ne', rfl, rfl⟩
      · rintro ⟨hone, hamounts⟩
        obtain ⟨hne, hsame, hdeclared⟩ := hamounts item rfl
        rw [parseMicros, parseMicros, hreads.startAmount, hreads.endAmount] at hsame
        rw [parseMicros, hreads.startAmount] at hne
        have hrestNil : rest = [] := hone
        refine ⟨item, ci.startAmount, by rw [hrestNil], ?_, hreads.startAmount, ?_, ?_⟩
        · rw [hdeclared, hreads.startAmount]
        · rw [hreads.endAmount, ← Option.getD_some (a := ci.endAmount) (b := 0), hsame]
          rfl
        · exact lt_of_le_of_ne hnonneg (Ne.symm hne)

end Bids

section Runs

def cardContract : JsStr := js "0x0000000000000000000000000000000000000012"

def usdcContract : JsStr := js "0x0000000000000000000000000000000000000034"

def cardOwner : JsStr := js "0x0000000000000000000000000000000000000056"

def marketEnv : Env where
  rwaAddresses := [(1, cardContract)]
  usdcAddresses := [(1, usdcContract)]

/-- The addresses of these orders have no letters, so that their checksums are themselves. -/
def plainSeaport : Seaport where
  getAddress s := if isAddress s then some s else none
  amountAt a b s e t := if s < e then ⌈lerp a b (e - s) (t - s)⌉ else a
  amountAt_start a b s e := by
    split_ifs with h
    · rw [Nat.sub_self, lerp_eq (by omega)]
      simp
    · rfl
  amountAt_between a b s e t h _ _ := if_pos h

/-- Card 7 for 100. -/
def listing (endAmount : JsStr) : CreateOrderDto where
  side := .ask
  tokenContract := cardContract
  tokenId := js "7"
  offerer := cardOwner
  considerationAmount := js "100"
  parameters := {
    offer := [{ itemType := 2, token := cardContract, identifierOrCriteria := js "7",
                startAmount := js "1", endAmount := js "1" }]
    consideration := [{ itemType := 1, token := usdcContract, startAmount := js "100",
                        endAmount := endAmount, recipient := cardOwner }]
    startTime := 1000
    endTime := 1050 }

/-- A bid for card 7 that offers 100 and declares `price`. -/
def offer100 (price : JsStr) : CreateOrderDto where
  side := .bid
  tokenContract := cardContract
  tokenId := js "7"
  offerer := cardOwner
  considerationAmount := price
  collectionKey := some (js "cards")
  parameters := {
    offer := [{ itemType := 1, token := usdcContract, startAmount := js "100",
                endAmount := js "100" }]
    consideration := [{ itemType := 2, token := cardContract, identifierOrCriteria := js "7",
                        startAmount := js "1", endAmount := js "1", recipient := cardOwner }]
    startTime := 1000
    endTime := 87400 }

/-- Nodes that hash these parameters only, at second 1000. -/
def marketWorld (p : OrderParameters) : World
  | .now => 1000000
  | .getOrderHash _ q => if q = p then .ok (js "0xaa") else .error (js "call exception")
  | .ensureCollectionForListing .. => some (js "cards")
  | .findCollection key _ => some key
  | .ownerOf .. => .ok cardOwner
  | q => idleWorld q

def marketTables : Tables where
  orders := Table.empty
  tokens := [{ tokenContract := cardContract, tokenId := js "7", settlementPolicy := some .standard }]
  holdings := []
  settlements := []
  assets := []
  cycles := Table.empty
  claims := Table.empty
  redemptions := Table.empty

theorem marketWorld_answers {p : OrderParameters} {c : OrderComponents}
    (hc : buildSeaportOrderComponents plainSeaport.getAddress p = some c) (henc : c.IsEncodable)
    (t : Tables) (q : BackendCmd) :
    plainSeaport.Answers q (solo marketEnv (marketWorld p) t q).1 := by
  rcases q with q | q
  · trivial
  · cases q with
    | getOrderHash chainId q =>
      intro hash hanswer
      have hsame : q = p := by
        by_contra hne
        have herror : (solo marketEnv (marketWorld p) t (.inr (.getOrderHash chainId q))).1 =
            .error (js "call exception") := if_neg hne
        rw [herror] at hanswer
        cases hanswer
      exact ⟨c, hsame ▸ hc, henc⟩
    | _ => trivial

theorem accepts_listing {endAmount : JsStr} (h : endAmount = js "100" ∨ endAmount = js "50") :
    ∃ row, AcceptsAsk plainSeaport marketEnv (listing endAmount) row := by
  have hcreate : ∀ dto c row, dto.side = .ask →
      buildSeaportOrderComponents plainSeaport.getAddress dto.parameters = some c →
      c.IsEncodable → ((createOrder marketEnv dto 1).play
        (solo marketEnv (marketWorld dto.parameters)) marketTables).1 = .ok row →
      AcceptsAsk plainSeaport marketEnv dto row := by
    intro dto c row hside hc henc hplay
    refine ⟨1, .inl ⟨hside, ?_⟩⟩
    rw [← hplay]
    exact Prog.yields_play (marketWorld_answers hc henc) _ _
  rcases h with rfl | rfl
  · exact ⟨_, hcreate (listing (js "100")) _ _ rfl rfl (by decide) rfl⟩
  · exact ⟨_, hcreate (listing (js "50")) _ _ rfl rfl (by decide) rfl⟩

/-- A listing whose amounts do not move is what its row says. -/
theorem fixed_price_listing_represented :
    ∃ row, AcceptsAsk plainSeaport marketEnv (listing (js "100")) row ∧
      Represents plainSeaport row := by
  obtain ⟨row, haccepts⟩ := accepts_listing (.inl rfl)
  refine ⟨row, haccepts, ?_⟩
  rw [accepted_ask_represents_signed_order_iff plainSeaport marketEnv _ row haccepts]
  intro _
  constructor
  · exact ⟨_, rfl, rfl, rfl, .inl rfl⟩
  · intro _
    constructor
    · rfl
    · decide

/-- A listing whose price falls to a half is accepted at its first price. -/
theorem falling_price_listing_misrepresented :
    CreateOrderDto.isValid (listing (js "50")) ∧ ∃ row, AcceptsAsk plainSeaport marketEnv (listing (js "50")) row ∧
      ¬ Represents plainSeaport row := by
  refine ⟨by decide, ?_⟩
  obtain ⟨row, haccepts⟩ := accepts_listing (.inr rfl)
  obtain ⟨hchecked, hstored⟩ := inversion_acceptsAsk haccepts
  obtain ⟨hstart, hend⟩ := hstored.window_eq
  refine ⟨row, haccepts, fun hrep => ?_⟩
  obtain ⟨c, hc, -, hpays⟩ := hrep 1050 (by rw [hstart]; decide) (by rw [hend]; decide)
  obtain ⟨c', hc', henc⟩ := hstored.signed
  obtain rfl := Option.some.inj (hc.symm.trans hc')
  rw [pays_iff hchecked hstored hc henc (by decide) (by decide)] at hpays
  have hhalf : plainSeaport.amountAt 100 50 1000 1050 1050 = 50 := by
    rw [plainSeaport.amountAt_between _ _ _ _ _ (by decide) (by decide) (by decide),
      lerp_end (by decide), Int.ceil_intCast]
  have hsum : plainSeaport.amountAt 100 50 1000 1050 1050 + 0 = 100 + 0 := hpays
  rw [hhalf] at hsum
  exact absurd hsum (by decide)

theorem accepts_offer100 {price : JsStr} (h : price = js "100" ∨ price = js "900") :
    ∃ row, AcceptsBid plainSeaport marketEnv (offer100 price) row := by
  have hcreate : ∀ dto c row, dto.side = .bid →
      buildSeaportOrderComponents plainSeaport.getAddress dto.parameters = some c →
      c.IsEncodable → ((createOrder marketEnv dto 1).play
        (solo marketEnv (marketWorld dto.parameters)) marketTables).1 = .ok row →
      AcceptsBid plainSeaport marketEnv dto row := by
    intro dto c row hside hc henc hplay
    refine ⟨1, .inl ⟨hside, ?_⟩⟩
    rw [← hplay]
    exact Prog.yields_play (marketWorld_answers hc henc) _ _
  rcases h with rfl | rfl
  · exact ⟨_, hcreate (offer100 (js "100")) _ _ rfl rfl (by decide) rfl⟩
  · exact ⟨_, hcreate (offer100 (js "900")) _ _ rfl rfl (by decide) rfl⟩

/-- A bid that declares its offer stores it. -/
theorem declared_offer_stored :
    ∃ row, AcceptsBid plainSeaport marketEnv (offer100 (js "100")) row ∧ StoresSignedPrice row := by
  obtain ⟨row, haccepts⟩ := accepts_offer100 (.inl rfl)
  refine ⟨row, haccepts, ?_⟩
  rw [accepted_bid_stores_signed_price_iff plainSeaport marketEnv _ row haccepts]
  refine ⟨rfl, fun item hitem => ?_⟩
  obtain rfl := Option.some.inj hitem
  decide

/-- A bid that offers 100 is stored as a bid of 900. -/
theorem inflated_bid_stored :
    CreateOrderDto.isValid (offer100 (js "900")) ∧
      ∃ row, AcceptsBid plainSeaport marketEnv (offer100 (js "900")) row ∧
      ¬ StoresSignedPrice row := by
  refine ⟨by decide, ?_⟩
  obtain ⟨row, haccepts⟩ := accepts_offer100 (.inr rfl)
  obtain ⟨-, hstored⟩ := inversion_acceptsBid haccepts
  refine ⟨row, haccepts, ?_⟩
  rintro ⟨item, n, hone, hprice, hstart, -, -⟩
  have hoffer : row.parameters.offer = (offer100 (js "900")).parameters.offer := hstored.offer_eq
  obtain rfl := (List.cons.inj (hoffer.symm.trans hone)).1
  rw [hstored.considerationAmount] at hprice
  have hsame : some (900 : ℤ) = some 100 := hprice.trans hstart.symm
  exact absurd hsame (by decide)

end Runs

end Orders
