import Tokenable.Orders.SingleCall

/-!
# Listings of the front end

`platformFee.ts` and the payload that `submitAskListingOrder` sends: the split of a price into the
seller's part and the platform's, and the consideration of an ask. The back end checks a listing
with its own split (`assertAskSettlementPolicy`, `assertValidAskListing`).
-/

namespace Frontend
open Js Platform Async Orders Vault Backend Settlement

/-- The `NEXT_PUBLIC_` variables of `contracts.ts`; a numeric variable is its `parseInt(…, 10)`,
`none` when unset or not a number. -/
structure PublicEnv where
  platformFeeRecipient : Option JsStr := none
  platformFeeBps : Option ℤ := none
  selfVaultPlatformFeeBps : Option ℤ := none

/-- `/^0x[a-fA-F0-9]{40}$/.test(s)` -/
def isHexAddress (s : JsStr) : Bool :=
  s.take 2 = js "0x" && (s.drop 2).length = 40 && (s.drop 2).all (fun c => isLowerHex c.toLower)

/-- `PLATFORM_FEE_RECIPIENT` -/
def PublicEnv.recipient (e : PublicEnv) : Option JsStr :=
  let raw := trim (e.platformFeeRecipient.getD [])
  if isHexAddress raw then some raw else none

/-- A configured fee of at most `most` basis points; the default is 500. -/
def bpsWithin (most : ℕ) : Option ℤ → ℕ
  | some v => if 0 ≤ v ∧ v ≤ most then v.toNat else 500
  | none => 500

/-- `PLATFORM_FEE_BPS` and `SELF_VAULT_PLATFORM_FEE_BPS` -/
def PublicEnv.feeBps (e : PublicEnv) : SettlementPolicy → ℕ
  | .standard => if e.recipient.isNone then 0 else bpsWithin 5000 e.platformFeeBps
  | .selfVaultHold => if e.recipient.isNone then 0 else bpsWithin 10000 e.selfVaultPlatformFeeBps

theorem recipient_eq_some {e : PublicEnv} {feeRecipient : JsStr}
    (h : e.recipient = some feeRecipient) :
    feeRecipient = trim (e.platformFeeRecipient.getD []) ∧ isHexAddress feeRecipient = true := by
  unfold PublicEnv.recipient at h
  dsimp only at h
  split_ifs at h with haddress
  obtain rfl := Option.some.inj h
  exact ⟨rfl, haddress⟩

structure FeeSplit where
  sellerAmount : ℤ
  feeAmount : ℤ
  feeRecipient : Option JsStr
  totalAmount : ℤ
  fullPlatformTake : Bool

def computeFeeSplit (e : PublicEnv) (totalPriceUnits : ℤ) (policy : SettlementPolicy) :
    Except JsStr FeeSplit :=
  let feeBps := e.feeBps policy
  if policy = .selfVaultHold ∧ e.recipient.isNone then
    .error (js "PLATFORM_FEE_RECIPIENT is required for self-vault listings")
  else if e.recipient.isNone ∨ feeBps = 0 then
    .ok ⟨totalPriceUnits, 0, none, totalPriceUnits, false⟩
  else
    let feeAmount := (totalPriceUnits * feeBps).tdiv 10000
    .ok ⟨totalPriceUnits - feeAmount, feeAmount, e.recipient, totalPriceUnits, false⟩

def usdcLine (usdcAddress recipient : JsStr) (amount : ℤ) : SeaportItem where
  itemType := 1
  token := usdcAddress
  identifierOrCriteria := js "0"
  startAmount := ofInt amount
  endAmount := ofInt amount
  recipient := recipient

def considerationOf (split : FeeSplit) (sellerAddress usdcAddress : JsStr) : List SeaportItem :=
  match split.feeRecipient with
  | none => [usdcLine usdcAddress sellerAddress split.sellerAmount]
  | some feeRecipient =>
    if split.fullPlatformTake then [usdcLine usdcAddress feeRecipient split.feeAmount]
    else usdcLine usdcAddress sellerAddress split.sellerAmount ::
      if 0 < split.feeAmount then [usdcLine usdcAddress feeRecipient split.feeAmount] else []

def buildAskConsiderationPayload (e : PublicEnv) (totalPriceUnits : ℤ)
    (sellerAddress usdcAddress : JsStr) (policy : SettlementPolicy) :
    Except JsStr (List SeaportItem) :=
  (computeFeeSplit e totalPriceUnits policy).map fun split =>
    considerationOf split sellerAddress usdcAddress

/-- What a seller lists: the price is in USDC micros. -/
structure Listing where
  seller : JsStr
  rwaAddress : JsStr
  usdcAddress : JsStr
  tokenId : ℕ
  price : ℤ
  policy : SettlementPolicy

def Listing.offerItem (l : Listing) : SeaportItem where
  itemType := 2
  token := l.rwaAddress
  identifierOrCriteria := ofNat l.tokenId
  startAmount := js "1"
  endAmount := js "1"

/-- The request of `submitAskListingOrder`. -/
def Listing.payload (e : PublicEnv) (l : Listing) : Except JsStr CreateOrderDto :=
  (buildAskConsiderationPayload e l.price l.seller l.usdcAddress l.policy).map fun consideration =>
    { side := .ask
      tokenContract := l.rwaAddress
      tokenId := ofNat l.tokenId
      offerer := l.seller
      considerationAmount := ofInt l.price
      parameters := { offer := [l.offerItem], consideration := consideration } }

section Split
variable {e : PublicEnv} {price : ℤ} {policy : SettlementPolicy} {split : FeeSplit}

theorem bpsWithin_le {most : ℕ} (h : 500 ≤ most) (v : Option ℤ) : bpsWithin most v ≤ most := by
  unfold bpsWithin
  split
  · split_ifs with hv
    · omega
    · exact h
  · exact h

theorem feeBps_le (e : PublicEnv) (policy : SettlementPolicy) : e.feeBps policy ≤ 10000 := by
  have hstandard : bpsWithin 5000 e.platformFeeBps ≤ 5000 := bpsWithin_le (by decide) _
  have hhold : bpsWithin 10000 e.selfVaultPlatformFeeBps ≤ 10000 := bpsWithin_le (by decide) _
  unfold PublicEnv.feeBps
  cases policy <;> dsimp only <;> split_ifs <;> omega

/-- A fee of `bps` basis points is at most the amount, and nothing below one unit. -/
theorem tdiv_bounds {bps : ℕ} (hprice : 0 < price) (hbps : bps ≤ 10000) :
    0 ≤ (price * bps).tdiv 10000 ∧ (price * bps).tdiv 10000 ≤ price ∧
      (0 < (price * bps).tdiv 10000 ↔ 10000 ≤ price * bps) := by
  have hnonneg : 0 ≤ price * bps := mul_nonneg hprice.le (Int.natCast_nonneg _)
  have hle : price * bps ≤ price * 10000 := by
    apply mul_le_mul_of_nonneg_left _ hprice.le
    exact_mod_cast hbps
  rw [Int.tdiv_eq_ediv_of_nonneg hnonneg]
  omega

theorem computeFeeSplit_fee (hprice : 0 < price)
    (h : computeFeeSplit e price policy = .ok split) :
    split.sellerAmount + split.feeAmount = price ∧ 0 ≤ split.feeAmount ∧
      split.feeAmount ≤ price := by
  have hbounds := tdiv_bounds hprice (feeBps_le e policy)
  unfold computeFeeSplit at h
  dsimp only at h
  split_ifs at h with hmissing hfree
  · obtain rfl := Except.ok.inj h
    dsimp only
    omega
  · obtain rfl := Except.ok.inj h
    dsimp only
    omega

/-- A fee line is present if and only if there is a fee. -/
theorem considerationOf_computeFeeSplit {seller usdc : JsStr}
    (h : computeFeeSplit e price policy = .ok split) :
    considerationOf split seller usdc = usdcLine usdc seller split.sellerAmount ::
      if 0 < split.feeAmount then [usdcLine usdc (e.recipient.getD []) split.feeAmount] else [] := by
  unfold computeFeeSplit at h
  dsimp only at h
  split_ifs at h with hmissing hfree
  · obtain rfl := Except.ok.inj h
    rfl
  · obtain rfl := Except.ok.inj h
    cases hrecipient : e.recipient with
    | none => simp [hrecipient] at hfree
    | some recipient => rfl

/-- A hold listing is built only for a configured recipient, at the hold fee. -/
theorem computeFeeSplit_hold (h : computeFeeSplit e price .selfVaultHold = .ok split) :
    ∃ feeRecipient, e.recipient = some feeRecipient ∧ split.feeAmount =
      (price * bpsWithin 10000 e.selfVaultPlatformFeeBps).tdiv 10000 := by
  unfold computeFeeSplit PublicEnv.feeBps at h
  dsimp only at h
  cases hrecipient : e.recipient with
  | none => simp [hrecipient] at h
  | some feeRecipient =>
    refine ⟨feeRecipient, rfl, ?_⟩
    simp only [hrecipient, Option.isNone_some, Bool.false_eq_true, and_false, if_false,
      false_or] at h
    split_ifs at h with hfree
    · obtain rfl := Except.ok.inj h
      simp [hfree]
    · obtain rfl := Except.ok.inj h
      rfl

end Split

/-- The lines pay the price: the seller, and the platform unless its fee is zero. -/
def PaysPrice (price : ℤ) (consideration : List SeaportItem) : Prop :=
  ∃ fee, 0 ≤ fee ∧ fee ≤ price ∧ consideration.map SeaportItem.startAmount =
    ofInt (price - fee) :: if 0 < fee then [ofInt fee] else []

/-- Both sides are configured with one recipient and one fee. -/
structure ConfiguredAlike (e : PublicEnv) (env : Env) : Prop where
  recipient : e.platformFeeRecipient = env.platformFeeRecipient
  feeBps : e.selfVaultPlatformFeeBps.map (fun v : ℤ => (v : ℚ)) = env.selfVaultPlatformFeeBps
  range : ∀ v ∈ e.selfVaultPlatformFeeBps, 0 ≤ v ∧ v ≤ 10000

theorem bpsWithin_eq {e : PublicEnv} {env : Env} (h : ConfiguredAlike e env) :
    bpsWithin 10000 e.selfVaultPlatformFeeBps = env.readSelfVaultPlatformFeeBps := by
  unfold bpsWithin Env.readSelfVaultPlatformFeeBps
  rw [← h.feeBps]
  cases hv : e.selfVaultPlatformFeeBps with
  | none => rfl
  | some v =>
    obtain ⟨hnonneg, hle⟩ := h.range v hv
    have hcast : ¬ (v : ℚ) < 0 := by exact_mod_cast not_lt.mpr hnonneg
    simp only [Option.map_some, hnonneg, hle, hcast, Rat.floor_intCast, Nat.cast_ofNat, and_self,
      if_true, if_false]
    omega

/-- The two checks of the back end that read the consideration. -/
def Accepted (env : Env) (x : World) (t : Tables) (dto : CreateOrderDto) (chainId : ℕ) : Prop :=
  assertValidAskListing env dto chainId = .ok () ∧
    (serve env x (assertAskSettlementPolicy env dto chainId) t).1 = .ok ()

theorem toBigInt_ofInt {n : ℤ} (h : 0 ≤ n) : toBigInt (ofInt n) = some n := by
  have hnot : ¬ n < 0 := not_lt.mpr h
  rw [ofInt, if_neg hnot, toBigInt_ofNat]
  congr 1
  omega

theorem payload_eq_ok {e : PublicEnv} {l : Listing} {dto : CreateOrderDto}
    (h : l.payload e = .ok dto) : ∃ split, computeFeeSplit e l.price l.policy = .ok split ∧
      dto = { side := .ask, tokenContract := l.rwaAddress, tokenId := ofNat l.tokenId,
              offerer := l.seller, considerationAmount := ofInt l.price,
              parameters :=
                { offer := [l.offerItem], consideration := considerationOf split l.seller l.usdcAddress } } := by
  unfold Listing.payload buildAskConsiderationPayload at h
  cases hsplit : computeFeeSplit e l.price l.policy with
  | error err =>
    rw [hsplit] at h
    cases h
  | ok split =>
    rw [hsplit] at h
    exact ⟨split, rfl, (Except.ok.inj h).symm⟩

section Checks
variable {e : PublicEnv} {env : Env} {l : Listing} {dto : CreateOrderDto} {split : FeeSplit}
  {chainId : ℕ}

/-- The lines of a payload are USDC and add up to the price. -/
theorem sumConsideration_considerationOf (hprice : 0 < l.price)
    (hsplit : computeFeeSplit e l.price l.policy = .ok split) :
    sumConsideration (lower l.usdcAddress) chainId 0
      (considerationOf split l.seller l.usdcAddress) 0 = .ok l.price := by
  obtain ⟨hsum, hnonneg, hle⟩ := computeFeeSplit_fee hprice hsplit
  have hseller : toBigInt (ofInt split.sellerAmount) = some split.sellerAmount :=
    toBigInt_ofInt (by omega)
  have hfee : toBigInt (ofInt split.feeAmount) = some split.feeAmount := toBigInt_ofInt hnonneg
  rw [considerationOf_computeFeeSplit hsplit]
  split_ifs with hpos
  · simp only [sumConsideration, bind_eq_ok, require_eq_ok, bigInt_eq_ok, usdcLine, decide_true]
    exact ⟨(), trivial, (), trivial, _, hseller, (), trivial, (), trivial, _, hfee, by simp [hsum]⟩
  · simp only [sumConsideration, bind_eq_ok, require_eq_ok, bigInt_eq_ok, usdcLine, decide_true]
    refine ⟨(), trivial, (), trivial, _, hseller, ?_⟩
    congr 1
    omega

theorem assertValidAskListing_payload (hprice : 0 < l.price)
    (husdc : env.getUsdcAddress chainId = .ok (lower l.usdcAddress)) (h : l.payload e = .ok dto) :
    assertValidAskListing env dto chainId = .ok () := by
  obtain ⟨split, hsplit, rfl⟩ := payload_eq_ok h
  have hlines : (considerationOf split l.seller l.usdcAddress).isEmpty = false := by
    rw [considerationOf_computeFeeSplit hsplit]
    rfl
  have htokenId : isValidDecimalTokenId (ofNat l.tokenId) = true := by
    rw [isValidDecimalTokenId, trim_of_isDigits (isDigits_ofNat _)]
    exact isDigits_ofNat _
  simp only [assertValidAskListing, bind_eq_ok, require_eq_ok, bigInt_eq_ok]
  refine ⟨(), by simp [hlines], _, husdc, _, sumConsideration_considerationOf hprice hsplit, _,
    toBigInt_ofInt hprice.le, (), by simp, (), htokenId, ?_⟩
  simp [Listing.offerItem]

/-- The hold check on two lines, which are there when there is a fee. -/
theorem assertHoldSplit_payload (halike : ConfiguredAlike e env) (hprice : 0 < l.price)
    (hseller : isEthereumAddress l.seller = true) (hhold : l.policy = .selfVaultHold)
    (hsplit : computeFeeSplit e l.price l.policy = .ok split) {feeRecipient : JsStr} :
    assertHoldSplit env chainId (lower l.usdcAddress) (lower feeRecipient)
      (lower (trim l.seller)) l.price (usdcLine l.usdcAddress l.seller split.sellerAmount)
      (usdcLine l.usdcAddress feeRecipient split.feeAmount) = .ok () := by
  obtain ⟨hsum, hnonneg, hle⟩ := computeFeeSplit_fee hprice hsplit
  have hsellerAmount : toBigInt (ofInt split.sellerAmount) = some split.sellerAmount :=
    toBigInt_ofInt (by omega)
  have hfeeAmount : toBigInt (ofInt split.feeAmount) = some split.feeAmount :=
    toBigInt_ofInt hnonneg
  have hmin : min env.readSelfVaultPlatformFeeBps 10000 = env.readSelfVaultPlatformFeeBps :=
    Nat.min_eq_left env.readSelfVaultPlatformFeeBps_le
  have hfee : split.feeAmount = (l.price * env.readSelfVaultPlatformFeeBps).tdiv 10000 := by
    rw [hhold] at hsplit
    obtain ⟨_, -, hfee⟩ := computeFeeSplit_hold hsplit
    rw [hfee, bpsWithin_eq halike]
  simp only [assertHoldSplit, bind_eq_ok, require_eq_ok, bigInt_eq_ok, usdcLine]
  refine ⟨(), rfl, (), by simp, (), by simp [trim_of_isAddress_lower hseller], (), by simp, _,
    hsellerAmount, _, hfeeAmount, ?_⟩
  simp only [splitGrossUsdcMicros, hmin, ← hfee, Bool.and_eq_true, decide_eq_true_eq, and_true]
  omega

/-- The hold check on one line, the seller's. -/
theorem assertLegacyHoldLine_payload {feeRecipient : JsStr} {amount price : ℤ} (h : 0 ≤ amount) :
    assertLegacyHoldLine feeRecipient price (usdcLine l.usdcAddress l.seller amount) = .ok () ↔
      lower l.seller = feeRecipient ∧ amount = price := by
  simp only [assertLegacyHoldLine, bind_eq_ok, require_eq_ok, bigInt_eq_ok, usdcLine]
  constructor
  · rintro ⟨_, -, _, hrecipient, read, hread, hamount⟩
    rw [toBigInt_ofInt h] at hread
    exact ⟨of_decide_eq_true hrecipient, (Option.some.inj hread).trans (of_decide_eq_true hamount)⟩
  · rintro ⟨hrecipient, hamount⟩
    exact ⟨(), by simp, (), by simp [hrecipient], amount, toBigInt_ofInt h, by simp [hamount]⟩

/-- The platform's wallet, as the back end compares it. -/
def PublicEnv.feeWallet (e : PublicEnv) : JsStr := lower (trim (e.platformFeeRecipient.getD []))

/-- A listing of a `self_vault_hold` token passes when its fee is at least one unit, or when the
seller is the platform. -/
theorem assertHoldListing_payload_iff (halike : ConfiguredAlike e env) (hprice : 0 < l.price)
    (hseller : isEthereumAddress l.seller = true) (hhold : l.policy = .selfVaultHold)
    (husdc : env.getUsdcAddress chainId = .ok (lower l.usdcAddress)) (h : l.payload e = .ok dto) :
    assertHoldListing env dto chainId = .ok () ↔
      10000 ≤ l.price * e.feeBps .selfVaultHold ∨ lower l.seller = e.feeWallet := by
  obtain ⟨split, hsplit, rfl⟩ := payload_eq_ok h
  obtain ⟨hsum, hnonneg, hle⟩ := computeFeeSplit_fee hprice hsplit
  obtain ⟨feeRecipient, hrecipient, hfee⟩ := computeFeeSplit_hold (hhold ▸ hsplit)
  obtain ⟨hraw, haddress⟩ := recipient_eq_some hrecipient
  have hwallet : lower (trim (env.platformFeeRecipient.getD [])) = lower feeRecipient := by
    rw [hraw, halike.recipient]
  have hnotEmpty : (lower feeRecipient).isEmpty = false := by
    cases feeRecipient with
    | nil => cases haddress
    | cons c rest => rfl
  have hbps : e.feeBps .selfVaultHold = bpsWithin 10000 e.selfVaultPlatformFeeBps := by
    simp [PublicEnv.feeBps, hrecipient]
  have hpositive : 0 < split.feeAmount ↔ 10000 ≤ l.price * e.feeBps .selfVaultHold := by
    rw [hfee, hbps]
    exact (tdiv_bounds hprice (bpsWithin_le (by decide) _)).2.2
  have hfeeWallet : e.feeWallet = lower feeRecipient := by rw [PublicEnv.feeWallet, hraw]
  rw [← hpositive, hfeeWallet]
  simp only [assertHoldListing, bind_eq_ok, require_eq_ok, bigInt_eq_ok, hwallet, hnotEmpty,
    Bool.not_false, true_and, exists_const]
  by_cases hpos : 0 < split.feeAmount
  · have hlines : considerationOf split l.seller l.usdcAddress =
        [usdcLine l.usdcAddress l.seller split.sellerAmount,
          usdcLine l.usdcAddress feeRecipient split.feeAmount] := by
      rw [considerationOf_computeFeeSplit hsplit, if_pos hpos, hrecipient]
      rfl
    have hcheck : assertHoldSplit env chainId (lower l.usdcAddress) (lower feeRecipient)
        (lower (trim l.seller)) l.price (usdcLine l.usdcAddress l.seller split.sellerAmount)
        (usdcLine l.usdcAddress feeRecipient split.feeAmount) = .ok () :=
      assertHoldSplit_payload halike hprice hseller hhold hsplit
    rw [hlines]
    simp only [hpos, true_or, iff_true]
    exact ⟨_, husdc, _, toBigInt_ofInt hprice.le, hcheck⟩
  · have hlines : considerationOf split l.seller l.usdcAddress =
        [usdcLine l.usdcAddress l.seller split.sellerAmount] := by
      rw [considerationOf_computeFeeSplit hsplit, if_neg hpos]
    have hnoFee : split.sellerAmount = l.price := by omega
    rw [hlines]
    simp only [hpos, false_or]
    constructor
    · rintro ⟨usdc, -, declared, -, hcheck⟩
      exact ((assertLegacyHoldLine_payload (by omega)).mp hcheck).1
    · intro hself
      refine ⟨_, husdc, _, toBigInt_ofInt hprice.le, ?_⟩
      exact (assertLegacyHoldLine_payload (by omega)).mpr ⟨hself, hnoFee⟩

/-- The lines of a payload pay exactly the price. -/
theorem paysPrice_payload (hprice : 0 < l.price) (h : l.payload e = .ok dto) :
    PaysPrice l.price dto.parameters.consideration := by
  obtain ⟨split, hsplit, rfl⟩ := payload_eq_ok h
  obtain ⟨hsum, hnonneg, hle⟩ := computeFeeSplit_fee hprice hsplit
  have hseller : l.price - split.feeAmount = split.sellerAmount := by omega
  refine ⟨split.feeAmount, hnonneg, hle, ?_⟩
  rw [considerationOf_computeFeeSplit hsplit, hseller]
  split_ifs <;> rfl

theorem serve_assertAskSettlementPolicy {x : World} {t : Tables} {policy : SettlementPolicy}
    (hpolicy : (getSettlementPolicy t.ledger dto.tokenContract dto.tokenId).1 = some policy) :
    (serve env x (assertAskSettlementPolicy env dto chainId) t).1 =
      if policy = .standard then .ok () else assertHoldListing env dto chainId := by
  have hanswer : (Stmt.getSettlementPolicy dto.tokenContract dto.tokenId).answer t = some policy :=
    hpolicy
  rw [serve_eq_play (outside_of_quiet (assertAskSettlementPolicy_quiet dto chainId)),
    assertAskSettlementPolicy, Prog.play_bind, play_db, hanswer]
  cases policy with
  | standard => rfl
  | selfVaultHold => rfl

end Checks

/-- A listing that the front end builds passes the checks of the back end, for the price it names,
if and only if the token is a standard one, the hold fee is at least one unit, or the seller is the
platform. -/
theorem submitted_ask_accepted_iff {e : PublicEnv} {env : Env} (halike : ConfiguredAlike e env)
    {l : Listing} (hprice : 0 < l.price) (hseller : isEthereumAddress l.seller = true) {chainId : ℕ}
    (husdc : env.getUsdcAddress chainId = .ok (lower l.usdcAddress)) {x : World} {t : Tables}
    (hpolicy : (getSettlementPolicy t.ledger l.rwaAddress (ofNat l.tokenId)).1 = some l.policy)
    {dto : CreateOrderDto} (hbuilt : l.payload e = .ok dto) :
    Accepted env x t dto chainId ∧ toBigInt dto.considerationAmount = some l.price ∧
        PaysPrice l.price dto.parameters.consideration ↔
      l.policy = .standard ∨ 10000 ≤ l.price * e.feeBps .selfVaultHold ∨
        lower l.seller = e.feeWallet := by
  have hvalid := assertValidAskListing_payload hprice husdc hbuilt
  have hpays := paysPrice_payload hprice hbuilt
  have hhold := fun h => assertHoldListing_payload_iff halike hprice hseller h husdc hbuilt
  have hamount : toBigInt dto.considerationAmount = some l.price := by
    obtain ⟨split, -, rfl⟩ := payload_eq_ok hbuilt
    exact toBigInt_ofInt hprice.le
  have hread : (getSettlementPolicy t.ledger dto.tokenContract dto.tokenId).1 = some l.policy := by
    obtain ⟨split, -, rfl⟩ := payload_eq_ok hbuilt
    exact hpolicy
  simp only [Accepted, hvalid, hpays, hamount, serve_assertAskSettlementPolicy hread, true_and,
    and_true]
  by_cases hstandard : l.policy = .standard
  · simp [hstandard]
  · have hpolicyHold : l.policy = .selfVaultHold := by
      cases hp : l.policy with
      | standard => exact absurd hp hstandard
      | selfVaultHold => rfl
    rw [if_neg hstandard, hhold hpolicyHold]
    simp [hstandard]

section Runs

def feeWalletAddress : JsStr := js "0x" ++ List.replicate 40 'f'

def usdcContract : JsStr := js "0x" ++ List.replicate 40 'd'

def cardContract : JsStr := js "0x" ++ List.replicate 40 'c'

def defaultFees : PublicEnv := { platformFeeRecipient := some feeWalletAddress }

def defaultFeesEnv : Env :=
  { platformFeeRecipient := some feeWalletAddress, usdcAddresses := [(1, usdcContract)] }

def heldCard (price : ℤ) : Listing where
  seller := js "0x" ++ List.replicate 40 '1'
  rwaAddress := cardContract
  usdcAddress := usdcContract
  tokenId := 7
  price := price
  policy := .selfVaultHold

def heldCardTables : Tables where
  orders := Db.Table.empty
  tokens := [{ tokenContract := cardContract, tokenId := js "7", settlementPolicy := some .selfVaultHold }]
  holdings := []
  settlements := []
  assets := []
  cycles := Db.Table.empty
  claims := Db.Table.empty
  redemptions := Db.Table.empty

theorem defaultFees_alike : ConfiguredAlike defaultFees defaultFeesEnv where
  recipient := rfl
  feeBps := rfl
  range := by
    rintro v ⟨⟩

theorem usdcAddress_mainnet :
    defaultFeesEnv.getUsdcAddress 1 = .ok (lower usdcContract) := by decide +kernel

theorem policy_heldCard :
    (getSettlementPolicy heldCardTables.ledger cardContract (ofNat 7)).1 = some .selfVaultHold := by
  decide +kernel

/-- A card at 100 USDC is accepted. -/
theorem submitted_ask_accepted_iff_heldCard : ∃ dto,
    (heldCard 100000000).payload defaultFees = .ok dto ∧
      Accepted defaultFeesEnv idleWorld heldCardTables dto 1 := by
  obtain ⟨dto, hdto⟩ : ∃ dto, (heldCard 100000000).payload defaultFees = .ok dto := ⟨_, rfl⟩
  have haccepted := (submitted_ask_accepted_iff (l := heldCard 100000000) (x := idleWorld)
    defaultFees_alike (by decide) (by decide) usdcAddress_mainnet policy_heldCard hdto).mpr
      (.inr (.inl (by decide)))
  exact ⟨dto, hdto, haccepted.1⟩

/-- At 19 micros the fee rounds to zero, and the listing has no line for it. -/
theorem smallest_ask_refused : ConfiguredAlike defaultFees defaultFeesEnv ∧
    ∃ dto, (heldCard 19).payload defaultFees = .ok dto ∧
      dto.parameters.consideration.map SeaportItem.startAmount = [js "19"] ∧
      ¬ Accepted defaultFeesEnv idleWorld heldCardTables dto 1 := by
  obtain ⟨dto, hdto, hlines, hrefused⟩ : ∃ dto, (heldCard 19).payload defaultFees = .ok dto ∧
      dto.parameters.consideration.map SeaportItem.startAmount = [js "19"] ∧
      assertHoldListing defaultFeesEnv dto 1 ≠ .ok () := ⟨_, rfl, by decide, by decide +kernel⟩
  refine ⟨defaultFees_alike, dto, hdto, hlines, fun h => hrefused ?_⟩
  have hread : (getSettlementPolicy heldCardTables.ledger dto.tokenContract dto.tokenId).1 =
      some .selfVaultHold := by
    obtain ⟨split, -, rfl⟩ := payload_eq_ok hdto
    exact policy_heldCard
  have hpolicy := h.2
  rw [serve_assertAskSettlementPolicy hread] at hpolicy
  exact hpolicy

end Runs

end Frontend
