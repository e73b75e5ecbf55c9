import Tokenable.Orders.SignedTerms

/-!
# Bids that cross an ask

A bid at or above a live ask has to buy that ask. The asks that `createOrder` compares a bid with
come from two queries, by collection key and by token id; neither one names a contract, and the
second compares the texts of the token ids.
-/

namespace Orders
open Js Platform Async Db Vault Settlement Backend

section Scan
variable {bidMicros : ℤ} {nowMs : ℕ} {seen : List JsStr} {rows : List Order}

def hashOf (o : Order) : JsStr := lower (trim o.orderHash)

theorem crossedAsks_cons (row : Order) :
    crossedAsks bidMicros nowMs seen (row :: rows) =
      if !(hashOf row).isEmpty && hashOf row ∈ seen then crossedAsks bidMicros nowMs seen rows
      else if isCrossed bidMicros nowMs row then
        row :: crossedAsks bidMicros nowMs
          (if (hashOf row).isEmpty then seen else hashOf row :: seen) rows
      else crossedAsks bidMicros nowMs
        (if (hashOf row).isEmpty then seen else hashOf row :: seen) rows := rfl

/-- The scan finds a crossed ask if there is one whose hash it has not seen. -/
theorem crossedAsks_ne_nil_iff
    (hinj : ∀ a ∈ rows, ∀ b ∈ rows, hashOf a = hashOf b → a = b) :
    crossedAsks bidMicros nowMs seen rows ≠ [] ↔
      ∃ row ∈ rows, isCrossed bidMicros nowMs row = true ∧ (hashOf row ∈ seen → hashOf row = []) := by
  induction rows generalizing seen with
  | nil => simp [crossedAsks]
  | cons row rows ih =>
    have hinj' : ∀ a ∈ rows, ∀ b ∈ rows, hashOf a = hashOf b → a = b :=
      fun a ha b hb => hinj a (.tail _ ha) b (.tail _ hb)
    rw [crossedAsks_cons]
    by_cases hskip : hashOf row ≠ [] ∧ hashOf row ∈ seen
    · have hcond : (!(hashOf row).isEmpty && decide (hashOf row ∈ seen)) = true := by
        simp [hskip.1, hskip.2]
      rw [if_pos hcond, ih hinj']
      constructor
      · rintro ⟨r, hr, hcrossed⟩
        exact ⟨r, .tail _ hr, hcrossed⟩
      · rintro ⟨r, hr, hcrossed, hnew⟩
        rcases List.mem_cons.mp hr with rfl | hr
        · exact absurd (hnew hskip.2) hskip.1
        · exact ⟨r, hr, hcrossed, hnew⟩
    · have hcond : ¬ (!(hashOf row).isEmpty && decide (hashOf row ∈ seen)) = true := by
        simpa using hskip
      rw [if_neg hcond]
      by_cases hcrossed : isCrossed bidMicros nowMs row = true
      · rw [if_pos hcrossed]
        refine ⟨fun _ => ⟨row, .head _, hcrossed, fun hmem => ?_⟩, fun _ => List.cons_ne_nil _ _⟩
        by_contra hne
        exact hskip ⟨hne, hmem⟩
      · rw [if_neg hcrossed, ih hinj']
        constructor
        · rintro ⟨r, hr, hr', hnew⟩
          refine ⟨r, .tail _ hr, hr', fun hmem => hnew ?_⟩
          split_ifs
          · exact hmem
          · exact .tail _ hmem
        · rintro ⟨r, hr, hr', hnew⟩
          rcases List.mem_cons.mp hr with rfl | hr
          · exact absurd hr' hcrossed
          · refine ⟨r, hr, hr', fun hmem => ?_⟩
            split_ifs at hmem
            · exact hnew hmem
            · rcases List.mem_cons.mp hmem with heq | hmem
              · exact absurd (hinj r (.tail _ hr) row (.head _) heq ▸ hr') hcrossed
              · exact hnew hmem

theorem pickCrossingAskForBid_isSome_iff
    (hinj : ∀ a ∈ rows, ∀ b ∈ rows, hashOf a = hashOf b → a = b) :
    (pickCrossingAskForBid rows bidMicros nowMs).isSome ↔
      ∃ row ∈ rows, isCrossed bidMicros nowMs row = true := by
  have hscan : crossedAsks bidMicros nowMs [] rows ≠ [] ↔
      ∃ row ∈ rows, isCrossed bidMicros nowMs row = true ∧ (hashOf row ∈ [] → hashOf row = []) :=
    crossedAsks_ne_nil_iff hinj
  have hsort : ∀ l : List Order, (l.insertionSort cheaper).head?.isSome ↔ l ≠ [] := by
    intro l
    rw [List.isSome_head?, ← List.length_pos_iff, List.length_insertionSort, List.length_pos_iff]
  unfold pickCrossingAskForBid
  split_ifs with hbid
  · simp only [Option.isSome_none, Bool.false_eq_true, false_iff, not_exists, not_and]
    intro row _ hcrossed
    simp only [isCrossed, Bool.and_eq_true, decide_eq_true_eq] at hcrossed
    omega
  · rw [hsort, hscan]
    simp

end Scan

section Decision
variable {env : Env} {x : World} {t : Tables} {dto : CreateOrderDto} {chainId : ℕ} {bidMicros : ℤ}
  {key hash : JsStr}

def candidateAsks (t : Tables) (dto : CreateOrderDto) : List Order :=
  t.activeAsksOfCollection (keyOfBid dto) ++
    if firstConsiderationTypeOf dto = some 4 || (trim dto.tokenId).isEmpty then []
    else t.activeAsksOfToken (trim dto.tokenId)

def bidRow (x : World) (dto : CreateOrderDto) (key hash : JsStr) : Order where
  id := x .nextOrderId
  orderHash := lower hash
  offerer := dto.offerer
  side := .bid
  tokenContract := dto.tokenContract
  tokenId := normalizeDecimalTokenId dto.tokenId
  collectionKey := some key
  considerationAmount := dto.considerationAmount
  parameters := dto.parameters
  startTime := 1000 * dto.parameters.startTime
  endTime := 1000 * dto.parameters.endTime

/-- A bid of `bidMicros` that every step of `createOrder` but the comparison with asks accepts. -/
structure PlaceableBid (env : Env) (x : World) (t : Tables) (dto : CreateOrderDto) (chainId : ℕ)
    (bidMicros : ℤ) (key hash : JsStr) : Prop where
  side : dto.side = .bid
  contract : env.getRwaAddress chainId = .ok (lower dto.tokenContract)
  valid : firstConsiderationTypeOf dto = some 2 ∧
      assertValidTokenBid env dto chainId (x .now) = .ok () ∨
    firstConsiderationTypeOf dto = some 4 ∧
      assertValidCriteriaBid env dto chainId (x .now) = .ok ()
  collectionKey : keyOfBid dto ≠ []
  belowLimit : (assertActiveTokenBidLimit env dto.offerer (keyOfBid dto) chainId).play
    (solo env x) t = (.ok (), t)
  amount : toBigInt ((dto.parameters.offer.head?.map SeaportItem.startAmount).getD []) =
    some bidMicros
  collection : x (.findCollection (keyOfBid dto) chainId) = some key
  hashed : x (.getOrderHash chainId (seaportHashableParameters dto.parameters)) = .ok hash
  fresh : (Stmt.insertOrder (bidRow x dto key hash)).changes t = true
  shown : x (.listingDisplay (bidRow x dto key hash)) = .ok ()

theorem play_assertTokenBidDoesNotCrossAsk
    (hamount : toBigInt ((dto.parameters.offer.head?.map SeaportItem.startAmount).getD []) =
      some bidMicros) :
    (assertTokenBidDoesNotCrossAsk dto (keyOfBid dto)).play (solo env x) t =
      (if (pickCrossingAskForBid (candidateAsks t dto) bidMicros (x .now)).isSome then
        .error (.conflict bidCrossesAskMessage) else .ok (), t) := by
  have htokenAsks : (tokenAsksOf dto).play (solo env x) t =
      (.ok (if firstConsiderationTypeOf dto = some 4 || (trim dto.tokenId).isEmpty then []
        else t.activeAsksOfToken (trim dto.tokenId)), t) := by
    unfold tokenAsksOf
    split_ifs <;> rfl
  unfold assertTokenBidDoesNotCrossAsk
  rw [play_orThrow, hamount]
  dsimp only
  by_cases hbid : bidMicros ≤ 0
  · rw [if_pos hbid, pickCrossingAskForBid, if_pos hbid]
    rfl
  · rw [if_neg hbid, Prog.play_bind, play_db]
    simp only [Stmt.answer, Stmt.changes, Bool.false_eq_true, if_false, Prog.onOk]
    rw [Prog.play_bind, htokenAsks]
    simp only [Prog.onOk]
    rw [Prog.play_bind, play_rpc]
    simp only [Prog.onOk, Prog.throwIf, candidateAsks]
    split_ifs <;> rfl

theorem play_assertPlaceableBid {check : ℕ → Except HttpError Unit} {missingKey : JsStr}
    (h : PlaceableBid env x t dto chainId bidMicros key hash) (hcheck : check (x .now) = .ok ()) :
    (assertPlaceableBid env dto chainId check missingKey).play (solo env x) t =
      (if (pickCrossingAskForBid (candidateAsks t dto) bidMicros (x .now)).isSome then
        .error (.conflict bidCrossesAskMessage) else .ok (), t) := by
  have hkey : (keyOfBid dto).isEmpty = false := by
    cases hk : keyOfBid dto with
    | nil => exact absurd hk h.collectionKey
    | cons c s => rfl
  unfold assertPlaceableBid
  rw [Prog.play_bind, play_rpc]
  simp only [Prog.onOk, hcheck]
  rw [Prog.play_bind, Prog.play_ret]
  simp only [Prog.onOk]
  rw [play_throwIf, hkey, if_neg (by decide), Prog.play_bind, h.belowLimit]
  exact play_assertTokenBidDoesNotCrossAsk h.amount

/-- The checks of a new bid, when all but the last one pass. -/
theorem play_assertNewBid (h : PlaceableBid env x t dto chainId bidMicros key hash) :
    (assertNewBid env dto chainId).play (solo env x) t =
      (if (pickCrossingAskForBid (candidateAsks t dto) bidMicros (x .now)).isSome then
        .error (.conflict bidCrossesAskMessage) else .ok (), t) := by
  unfold assertNewBid
  rcases h.valid with ⟨htype, hvalid⟩ | ⟨htype, hvalid⟩
  · rw [if_pos htype]
    exact play_assertPlaceableBid h hvalid
  · rw [if_neg (by rw [htype]; decide), if_pos htype]
    exact play_assertPlaceableBid h hvalid

def RejectedAsCrossing (env : Env) (x : World) (t : Tables) (dto : CreateOrderDto) (chainId : ℕ) :
    Prop :=
  (serve env x (createOrder env dto chainId) t).1 = .error (.conflict bidCrossesAskMessage)

theorem play_assertRwaOfChain (h : env.getRwaAddress chainId = .ok (lower dto.tokenContract)) :
    (assertRwaOfChain env dto chainId).play (solo env x) t = (.ok (), t) := by
  unfold assertRwaOfChain
  rw [Prog.play_bind, h, Prog.play_ret]
  simp only [Prog.onOk, Prog.throwIf, ne_eq, not_true_eq_false, decide_false, Bool.false_eq_true,
    if_false, Prog.play_ret]

theorem play_materializeBid (h : PlaceableBid env x t dto chainId bidMicros key hash) :
    (materializeOrderFromDto dto chainId).play (solo env x) t =
      (.ok (bidRow x dto key hash), t) := by
  have hkey : (keyOfBid dto).isEmpty = false := by
    cases hk : keyOfBid dto with
    | nil => exact absurd hk h.collectionKey
    | cons c s => rfl
  have hcol : (collectionKeyOf dto chainId).play (solo env x) t = (.ok (some key), t) := by
    rw [collectionKeyOf, h.side]
    dsimp only [bidCollectionKey]
    rw [← keyOfBid, play_throwIf, hkey, if_neg (by decide), Prog.play_bind, play_rpc]
    simp only [Prog.onOk, h.collection]
    rfl
  have hpolicy : (stampPolicy dto).play (solo env x) t = (.ok dto.parameters, t) := by
    rw [stampPolicy, h.side]
    rfl
  unfold materializeOrderFromDto
  rw [Prog.play_bind, hcol]
  simp only [Prog.onOk]
  rw [Prog.play_bind, hpolicy]
  simp only [Prog.onOk]
  rw [Prog.play_bind, play_rpc]
  simp only [Prog.onOk, h.hashed, bidRow, ← h.side]
  rfl

theorem play_persistBid (h : PlaceableBid env x t dto chainId bidMicros key hash) :
    (persistOrderWith db (bidRow x dto key hash)).play (solo env x) t =
      (.ok (bidRow x dto key hash), (Stmt.insertOrder (bidRow x dto key hash)).apply env t) := by
  unfold persistOrderWith
  rw [Prog.play_bind, play_db]
  simp only [Prog.onOk, Stmt.answer, h.fresh, Stmt.orUniqueViolation, if_true]
  rfl

/-- Only the comparison with asks rejects a placeable bid. -/
theorem rejectedAsCrossing_iff (h : PlaceableBid env x t dto chainId bidMicros key hash) :
    RejectedAsCrossing env x t dto chainId ↔
      (pickCrossingAskForBid (candidateAsks t dto) bidMicros (x .now)).isSome := by
  have hchecks : (assertNewOrder env dto chainId).play (solo env x) t =
      (if (pickCrossingAskForBid (candidateAsks t dto) bidMicros (x .now)).isSome then
        .error (.conflict bidCrossesAskMessage) else .ok (), t) := by
    rw [assertNewOrder, h.side]
    exact play_assertNewBid h
  unfold RejectedAsCrossing
  rw [serve_eq_play (createOrder_outside dto), createOrder, Prog.play_bind,
    play_assertRwaOfChain h.contract]
  simp only [Prog.onOk]
  rw [Prog.play_bind, hchecks]
  cases (pickCrossingAskForBid (candidateAsks t dto) bidMicros (x .now)).isSome with
  | true => simp [Prog.onOk]
  | false =>
    simp only [Bool.false_eq_true, if_false, Prog.onOk]
    rw [Prog.play_bind, play_materializeBid h]
    simp only [Prog.onOk]
    rw [play_throwIf, if_neg (by simp [h.side]), Prog.play_bind, play_persistBid h]
    simp only [Prog.onOk, h.side, reduceCtorEq, if_false]
    rw [play_orThrowAnswer _ (play_rpc (.listingDisplay (bidRow x dto key hash))), h.shown]
    simp only [Prog.onOk, iff_false]
    intro herror
    cases herror

/-- An ask of the contract of the chain, live at `nowMs`, that a bid of `bidMicros` would take: one
of the token of the bid, or one of its collection. -/
structure CrossedOnChain (env : Env) (dto : CreateOrderDto) (chainId : ℕ) (bidMicros : ℤ)
    (nowMs : ℕ) (o : Order) : Prop where
  active : o.status = .active
  ask : o.side = .ask
  window : o.startTime ≤ nowMs ∧ nowMs ≤ o.endTime
  contract : env.getRwaAddress chainId = .ok (lower o.tokenContract)
  price : ∃ p, toBigInt o.considerationAmount = some p ∧ 0 < p ∧ p ≤ bidMicros
  item : (firstConsiderationTypeOf dto = some 2 ∧ isValidDecimalTokenId o.tokenId ∧
      toNat (trim o.tokenId) = toNat (trim dto.tokenId)) ∨
    o.collectionKey.map lower = some (keyOfBid dto)

/-- The ask is of another contract, or it is over and its end time is the epoch. -/
def Misleading (env : Env) (chainId nowMs : ℕ) (o : Order) : Prop :=
  env.getRwaAddress chainId ≠ .ok (lower o.tokenContract) ∨ (o.endTime = 0 ∧ 0 < nowMs)

def SpelledDifferently (dto : CreateOrderDto) (o : Order) : Prop :=
  o.tokenId ≠ trim dto.tokenId ∧ o.collectionKey.map lower ≠ some (keyOfBid dto)

/-- No two rows have one hash, which is what the unique index says of hashes in lower case. -/
def DistinctHashes (t : Tables) : Prop :=
  ∀ a ∈ t.orders.rows, ∀ b ∈ t.orders.rows, hashOf a = hashOf b → a = b

theorem mem_candidateAsks {o : Order} :
    o ∈ candidateAsks t dto ↔ o ∈ t.orders.rows ∧ o.status = .active ∧ o.side = .ask ∧
      (o.collectionKey.map lower = some (keyOfBid dto) ∨
        firstConsiderationTypeOf dto ≠ some 4 ∧ trim dto.tokenId ≠ [] ∧ o.tokenId = trim dto.tokenId) := by
  unfold candidateAsks Tables.activeAsksOfCollection Tables.activeAsksOfToken Table.find
  split_ifs with hnone
  · simp only [Bool.or_eq_true, decide_eq_true_eq, List.isEmpty_iff] at hnone
    simp only [List.append_nil, List.mem_filter, Bool.and_eq_true, decide_eq_true_eq]
    tauto
  · simp only [Bool.or_eq_true, decide_eq_true_eq, List.isEmpty_iff] at hnone
    simp only [List.mem_append, List.mem_filter, Bool.and_eq_true, decide_eq_true_eq]
    tauto

theorem isCrossed_iff {nowMs : ℕ} {o : Order} :
    isCrossed bidMicros nowMs o = true ↔ o.status = .active ∧ o.side = .ask ∧
      (o.startTime ≤ nowMs ∧ (nowMs ≤ o.endTime ∨ o.endTime = 0)) ∧
      ∃ p, toBigInt o.considerationAmount = some p ∧ 0 < p ∧ p ≤ bidMicros := by
  have hside : o.side ≠ .bid ↔ o.side = .ask := by cases o.side <;> simp
  have hwindow : windowOpen o nowMs = true ↔
      o.startTime ≤ nowMs ∧ (nowMs ≤ o.endTime ∨ o.endTime = 0) := by
    simp only [windowOpen, Bool.and_eq_true, Bool.not_eq_true', Bool.and_eq_false_iff,
      decide_eq_false_iff_not, decide_eq_true_eq]
    omega
  have hprice : (0 < parseMicros o.considerationAmount ∧
      parseMicros o.considerationAmount ≤ bidMicros) ↔
      ∃ p, toBigInt o.considerationAmount = some p ∧ 0 < p ∧ p ≤ bidMicros := by
    unfold parseMicros
    cases toBigInt o.considerationAmount with
    | none => simp
    | some p => simp
  simp only [isCrossed, Bool.and_eq_true, decide_eq_true_eq, hside, hwindow, ← hprice, and_assoc]

/-- The token id of a placeable token bid is a decimal text. -/
theorem PlaceableBid.tokenId (h : PlaceableBid env x t dto chainId bidMicros key hash)
    (htype : firstConsiderationTypeOf dto ≠ some 4) : isValidDecimalTokenId dto.tokenId = true := by
  rcases h.valid with ⟨-, hvalid⟩ | ⟨hfour, -⟩
  · unfold assertValidTokenBid assertValidBid at hvalid
    split at hvalid
    · simp only [bind_eq_ok, require_eq_ok] at hvalid
      obtain ⟨_, -, _, -, usdc, -, _, -, _, -, _, ⟨_, hid, -⟩, -⟩ := hvalid
      exact hid
    · cases hvalid
  · exact absurd hfour htype

/-- A candidate that the bid crosses is an ask of the chain, unless it misleads. -/
theorem crossedOnChain_of_candidate {o : Order}
    (h : PlaceableBid env x t dto chainId bidMicros key hash) (ho : o ∈ candidateAsks t dto)
    (hcrossed : isCrossed bidMicros (x .now) o = true)
    (hmislead : ¬ Misleading env chainId (x .now) o) :
    CrossedOnChain env dto chainId bidMicros (x .now) o := by
  obtain ⟨-, hactive, hask, hkey⟩ := mem_candidateAsks.mp ho
  obtain ⟨-, -, ⟨hstart, hend⟩, hprice⟩ := isCrossed_iff.mp hcrossed
  simp only [Misleading, ne_eq, not_or, not_not] at hmislead
  refine ⟨hactive, hask, ⟨hstart, by omega⟩, hmislead.1, hprice, ?_⟩
  rcases hkey with hkey | ⟨htype, -, hid⟩
  · exact .inr hkey
  · have hdecimal := h.tokenId htype
    have htwo : firstConsiderationTypeOf dto = some 2 := by
      rcases h.valid with ⟨htwo, -⟩ | ⟨hfour, -⟩
      · exact htwo
      · exact absurd hfour htype
    refine .inl ⟨htwo, ?_, ?_⟩
    · rw [hid, isValidDecimalTokenId, trim_trim]
      exact hdecimal
    · rw [hid, trim_trim]

/-- An ask of the chain that the bid crosses is a candidate, unless its token id is spelled
differently. -/
theorem candidate_of_crossedOnChain {o : Order}
    (h : PlaceableBid env x t dto chainId bidMicros key hash) (ho : o ∈ t.orders.rows)
    (hcrossed : CrossedOnChain env dto chainId bidMicros (x .now) o)
    (hspelled : ¬ SpelledDifferently dto o) :
    o ∈ candidateAsks t dto ∧ isCrossed bidMicros (x .now) o = true := by
  refine ⟨mem_candidateAsks.mpr ⟨ho, hcrossed.active, hcrossed.ask, ?_⟩, ?_⟩
  · by_cases hkey : o.collectionKey.map lower = some (keyOfBid dto)
    · exact .inl hkey
    · rcases hcrossed.item with ⟨htwo, -, -⟩ | hsame
      · have htype : firstConsiderationTypeOf dto ≠ some 4 := by
          rw [htwo]
          decide
        have hdecimal := h.tokenId htype
        refine .inr ⟨htype, ?_, ?_⟩
        · intro hnil
          rw [isValidDecimalTokenId, hnil] at hdecimal
          cases hdecimal
        · by_contra hid
          exact hspelled ⟨hid, hkey⟩
      · exact absurd hsame hkey
  · obtain ⟨hstart, hend⟩ := hcrossed.window
    exact isCrossed_iff.mpr
      ⟨hcrossed.active, hcrossed.ask, ⟨hstart, .inl hend⟩, hcrossed.price⟩

/-- The rejection of a placeable bid is exact unless an ask of another contract, or one that is
over, decides it, or an ask with another spelling of the token id would have to. -/
theorem crossing_rejection_exact_iff (env : Env) (x : World) (t : Tables) (dto : CreateOrderDto)
    (chainId : ℕ) (bidMicros : ℤ) (key hash : JsStr) (hhashes : DistinctHashes t)
    (h : PlaceableBid env x t dto chainId bidMicros key hash) :
    (RejectedAsCrossing env x t dto chainId ↔
        ∃ o ∈ t.orders.rows, CrossedOnChain env dto chainId bidMicros (x .now) o) ↔
      ((∃ o ∈ candidateAsks t dto, isCrossed bidMicros (x .now) o ∧
            Misleading env chainId (x .now) o) →
          ∃ o ∈ t.orders.rows, CrossedOnChain env dto chainId bidMicros (x .now) o) ∧
        ((∃ o ∈ t.orders.rows, CrossedOnChain env dto chainId bidMicros (x .now) o ∧
            SpelledDifferently dto o) →
          ∃ o ∈ candidateAsks t dto, isCrossed bidMicros (x .now) o) := by
  have hinj : ∀ a ∈ candidateAsks t dto, ∀ b ∈ candidateAsks t dto, hashOf a = hashOf b → a = b :=
    fun a ha b hb => hhashes a (mem_candidateAsks.mp ha).1 b (mem_candidateAsks.mp hb).1
  rw [rejectedAsCrossing_iff h, pickCrossingAskForBid_isSome_iff hinj]
  constructor
  · intro hexact
    constructor
    · rintro ⟨o, ho, hcrossed, -⟩
      exact hexact.mp ⟨o, ho, hcrossed⟩
    · rintro ⟨o, ho, hcrossed, -⟩
      exact hexact.mpr ⟨o, ho, hcrossed⟩
  · rintro ⟨hmislead, hspelled⟩
    constructor
    · rintro ⟨o, ho, hcrossed⟩
      by_cases hm : Misleading env chainId (x .now) o
      · exact hmislead ⟨o, ho, hcrossed, hm⟩
      · exact ⟨o, (mem_candidateAsks.mp ho).1, crossedOnChain_of_candidate h ho hcrossed hm⟩
    · rintro ⟨o, ho, hcrossed⟩
      by_cases hs : SpelledDifferently dto o
      · exact hspelled ⟨o, ho, hcrossed, hs⟩
      · exact ⟨o, candidate_of_crossedOnChain h ho hcrossed hs⟩

end Decision

section Runs

/-- A live ask of 50 for card 7 of the contract. -/
def askFor50 (contract : JsStr) : Order where
  id := 3
  orderHash := js "0xa5"
  offerer := cardOwner
  side := .ask
  tokenContract := contract
  tokenId := js "7"
  collectionKey := some (js "others")
  considerationAmount := js "50"
  startTime := 900000
  endTime := 2000000

def bookWithAsk (contract : JsStr) : Tables :=
  { marketTables with orders := ⟨[askFor50 contract], by simp⟩ }

def bidWorld : World := marketWorld (offer100 (js "100")).parameters

theorem offer100_placeable (contract : JsStr) :
    PlaceableBid marketEnv bidWorld (bookWithAsk contract) (offer100 (js "100")) 1 100 (js "cards")
      (js "0xaa") where
  side := rfl
  contract := rfl
  valid := .inl ⟨rfl, rfl⟩
  collectionKey := by decide
  belowLimit := rfl
  amount := rfl
  collection := rfl
  hashed := rfl
  fresh := rfl
  shown := rfl

theorem bookWithAsk_distinctHashes (contract : JsStr) : DistinctHashes (bookWithAsk contract) := by
  intro a ha b hb _
  rw [List.mem_singleton.mp ha, List.mem_singleton.mp hb]

/-- A bid of 100 is rejected for an ask of 50 of its own contract. -/
theorem crossing_rejection_exact_ownContract :
    RejectedAsCrossing marketEnv bidWorld (bookWithAsk cardContract) (offer100 (js "100")) 1 ↔
      ∃ o ∈ (bookWithAsk cardContract).orders.rows,
        CrossedOnChain marketEnv (offer100 (js "100")) 1 100 (bidWorld .now) o := by
  have hcrossed : CrossedOnChain marketEnv (offer100 (js "100")) 1 100 (bidWorld .now)
      (askFor50 cardContract) :=
    ⟨rfl, rfl, by decide, rfl, ⟨50, rfl, by decide, by decide⟩, .inl ⟨rfl, by decide, rfl⟩⟩
  refine (crossing_rejection_exact_iff marketEnv bidWorld (bookWithAsk cardContract)
    (offer100 (js "100")) 1 100 (js "cards") (js "0xaa") (bookWithAsk_distinctHashes _)
    (offer100_placeable _)).mpr ⟨fun _ => ⟨_, .head _, hcrossed⟩, fun _ => ?_⟩
  exact ⟨askFor50 cardContract, .head _, by decide⟩

/-- A bid of 100 is rejected for an ask of 50 of a contract of another chain. -/
theorem rejected_for_foreign_ask :
    ¬ (RejectedAsCrossing marketEnv bidWorld
          (bookWithAsk (js "0x0000000000000000000000000000000000000099")) (offer100 (js "100")) 1 ↔
        ∃ o ∈ (bookWithAsk (js "0x0000000000000000000000000000000000000099")).orders.rows,
          CrossedOnChain marketEnv (offer100 (js "100")) 1 100 (bidWorld .now) o) := by
  intro hexact
  have hrejected : RejectedAsCrossing marketEnv bidWorld
      (bookWithAsk (js "0x0000000000000000000000000000000000000099")) (offer100 (js "100")) 1 :=
    (rejectedAsCrossing_iff (offer100_placeable _)).mpr (by decide)
  obtain ⟨o, ho, hcrossed⟩ := hexact.mp hrejected
  obtain rfl := List.mem_singleton.mp ho
  exact absurd (Except.ok.inj hcrossed.contract) (by decide)

end Runs

end Orders
