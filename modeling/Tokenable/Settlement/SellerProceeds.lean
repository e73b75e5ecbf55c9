import Mathlib.Algebra.Order.AbsoluteValue.Basic
import Mathlib.Tactic.Linarith
import Mathlib.Tactic.NormNum
import Mathlib.Tactic.Ring
import Tokenable.Frontend.PlatformFee
import Tokenable.Alerts.Service

/-!
# What a seller receives, and is told

The order validator and the settlement ledger split a sale of a held token at
`SELF_VAULT_PLATFORM_FEE_BPS`; `notifyTradeSettled` computes the net that it tells the seller from
`PLATFORM_FEE_BPS`. Amounts in USDC are exact rationals here.
-/

namespace SellerProceeds
open Js Platform Orders Settlement Vault Backend Frontend

/-- `parseInt(s, 10)`; `none` is `NaN`. -/
def parseInt (s : JsStr) : Option ℤ :=
  let leading (ds : JsStr) : Option ℕ :=
    if (ds.takeWhile Char.isDigit).isEmpty then none else some (toNat (ds.takeWhile Char.isDigit))
  match s.dropWhile isSpace with
  | '-' :: ds => (leading ds).map fun n => -(n : ℤ)
  | '+' :: ds => (leading ds).map fun n => (n : ℤ)
  | ds => (leading ds).map fun n => (n : ℤ)

/-- `PLATFORM_FEE_BPS` as the notifications read it. -/
def platformFeeBps (configured : Option JsStr) : ℤ :=
  match parseInt (configured.getD (js "250")) with
  | some raw => if 0 < raw then raw else 0
  | none => 0

def sellerNetUsdc (configured : Option JsStr) (grossUsdc : ℚ) : ℚ :=
  let bps := platformFeeBps configured
  if ¬ 0 < grossUsdc ∨ bps ≤ 0 then max 0 grossUsdc
  else max 0 (grossUsdc * (10000 - bps) / 10000)

/-- The entry that tells a seller of the sale, with its amounts before they are formatted. -/
structure SellerSold where
  recipientWallet : JsStr
  dedupeKey : JsStr
  tokenId : JsStr
  askOrderHash : JsStr
  bidOrderHash : Option JsStr
  collectionKey : Option JsStr
  saleUsdc : ℚ
  netUsdc : ℚ

def saleMicros (ask : Order) (bid : Option Order) (settlementMicros : Option JsStr) : JsStr :=
  let given := trim (settlementMicros.getD [])
  if !given.isEmpty then given
  else
    match bid with
    | some bid => (firstOfferAmount bid).getD bid.considerationAmount
    | none => ask.considerationAmount

/-- What `notifyTradeSettled` tells the seller. -/
def notifyTradeSettled (configured : Option JsStr) (ask : Order) (bid : Option Order)
    (settlementMicros : Option JsStr) : Option SellerSold :=
  if ask.side ≠ .ask then none
  else if !isValidDecimalTokenId ask.tokenId then none
  else
    let seller := Alerts.normalizeWallet ask.offerer
    let saleUsdc := microsToUsdc (saleMicros ask bid settlementMicros)
    if seller.isEmpty then none
    else
      some
        { recipientWallet := seller
          dedupeKey := js "seller_sold:" ++ ask.orderHash
          tokenId := normalizeDecimalTokenId ask.tokenId
          askOrderHash := ask.orderHash
          bidOrderHash := bid.map Order.orderHash
          collectionKey := ask.collectionKey
          saleUsdc
          netUsdc := sellerNetUsdc configured saleUsdc }

/-! ### The split of a sale -/

/-- A sale of `gross` micros less the fee. -/
def netMicros (gross bps : ℕ) : ℕ := gross - gross * bps / 10000

theorem fee_le (gross : ℕ) {bps : ℕ} (h : bps ≤ 10000) : gross * bps / 10000 ≤ gross := by
  have hmul : gross * bps ≤ gross * 10000 := Nat.mul_le_mul_left gross h
  omega

theorem splitGrossUsdcMicros_eq {gross bps : ℕ} (h : bps ≤ 10000) :
    splitGrossUsdcMicros gross bps =
      ((netMicros gross bps : ℤ), ((gross * bps / 10000 : ℕ) : ℤ)) := by
  have hfee := fee_le gross h
  have hdiv : ((gross : ℤ) * (bps : ℤ)).tdiv 10000 = ((gross * bps / 10000 : ℕ) : ℤ) := by
    rw [← Int.natCast_mul]
    exact Int.tdiv_eq_ediv_of_nonneg (Int.natCast_nonneg _)
  unfold splitGrossUsdcMicros netMicros
  rw [Nat.min_eq_left h]
  dsimp only
  rw [hdiv, Int.ofNat_sub hfee]

theorem readSelfVaultPlatformFeeBps_of_set {env : Env} {bps : ℕ}
    (hset : env.selfVaultPlatformFeeBps = some (bps : ℚ)) (h : bps ≤ 10000) :
    env.readSelfVaultPlatformFeeBps = bps := by
  have hnonneg : ¬ (bps : ℚ) < 0 := not_lt.mpr (Nat.cast_nonneg bps)
  have hfloor : (bps : ℚ).floor = (bps : ℤ) := by
    rw [← Int.cast_natCast]
    exact Rat.floor_intCast _
  unfold Env.readSelfVaultPlatformFeeBps
  rw [hset]
  dsimp only
  rw [if_neg hnonneg, hfloor, Int.toNat_natCast, Nat.min_eq_left h]

section Held
variable {env : Env} {dto : CreateOrderDto} {chainId gross bps : ℕ}

/-- The lines of an ask for a held token: the net to the seller and the fee to the platform, or all of
it to the platform, which owes the seller. -/
def HoldLines (env : Env) (dto : CreateOrderDto) (gross bps : ℕ) : Prop :=
  (∃ sellerLine feeLine, dto.parameters.consideration = [sellerLine, feeLine] ∧
    lower sellerLine.recipient = lower (trim dto.offerer) ∧
    lower feeLine.recipient = feeRecipient env ∧
    toBigInt sellerLine.startAmount = some (netMicros gross bps : ℤ) ∧
    toBigInt feeLine.startAmount = some ((gross * bps / 10000 : ℕ) : ℤ)) ∨
  ∃ only, dto.parameters.consideration = [only] ∧ lower only.recipient = feeRecipient env ∧
    toBigInt only.startAmount = some (gross : ℤ)

theorem holdLines_of_accepted (hset : env.selfVaultPlatformFeeBps = some (bps : ℚ))
    (hbps : bps ≤ 10000) (hgross : toBigInt dto.considerationAmount = some (gross : ℤ))
    (h : assertHoldListing env dto chainId = .ok ()) : HoldLines env dto gross bps := by
  have hread := readSelfVaultPlatformFeeBps_of_set hset hbps
  simp only [assertHoldListing, bind_eq_ok, require_eq_ok, bigInt_eq_ok] at h
  obtain ⟨-, -, usdc, -, declared, hdeclared, h⟩ := h
  obtain rfl : (gross : ℤ) = declared := Option.some.inj (hgross.symm.trans hdeclared)
  split at h
  · rename_i only hlines
    simp only [assertLegacyHoldLine, bind_eq_ok, require_eq_ok, bigInt_eq_ok,
      decide_eq_true_eq] at h
    obtain ⟨-, -, -, hrecipient, amount, hamount, hsame⟩ := h
    rw [hsame] at hamount
    exact .inr ⟨only, hlines, hrecipient, hamount⟩
  · rename_i sellerLine feeLine hlines
    simp only [assertHoldSplit, bind_eq_ok, require_eq_ok, bigInt_eq_ok, Bool.and_eq_true,
      decide_eq_true_eq] at h
    obtain ⟨-, -, -, -, -, hseller, -, hfee, sellerAmount, hsellerAmount, feeAmount, hfeeAmount,
      hsplit⟩ := h
    rw [hread, splitGrossUsdcMicros_eq hbps] at hsplit
    rw [hsplit.1] at hsellerAmount
    rw [hsplit.2] at hfeeAmount
    exact .inl ⟨sellerLine, feeLine, hlines, hseller, hfee, hsellerAmount, hfeeAmount⟩
  · cases h

end Held

/-- A new settlement owes the seller the net of its gross amount. -/
theorem settlement_payout {env : Env} {bps : ℕ} (hset : env.selfVaultPlatformFeeBps = some (bps : ℚ))
    (hbps : bps ≤ 10000) {p : FilledAsk} {ledger : Ledger}
    (hnew : ledger.settlementOf (trim p.ask.orderHash) = none) {row : SelfVaultSettlement}
    (h : (createFromFulfilledAsk env p ledger).1 = some row) :
    row.grossUsdc = resolveGrossMicros p.ask ∧
      toNat row.sellerPayoutUsdc = netMicros (toNat row.grossUsdc) bps := by
  have hread := readSelfVaultPlatformFeeBps_of_set hset hbps
  unfold createFromFulfilledAsk at h
  dsimp only at h
  rw [hnew] at h
  dsimp only at h
  split_ifs at h
  obtain rfl := Option.some.inj h
  refine ⟨rfl, ?_⟩
  change toNat (computeSellerPayoutMicros env (resolveGrossMicros p.ask)) = _
  unfold computeSellerPayoutMicros netMicros
  rw [toNat_ofNat, hread]
  rfl

/-! ### What the seller is told -/

theorem platformFeeBps_of_set {configured : Option JsStr} {bps : ℕ}
    (hset : configured.bind parseInt = some (bps : ℤ)) : platformFeeBps configured = bps := by
  obtain ⟨text, rfl, htext⟩ := Option.bind_eq_some_iff.mp hset
  unfold platformFeeBps
  rw [Option.getD_some, htext]
  dsimp only
  split_ifs with hpos
  · rfl
  · omega

/-- The exact net and the floored one are less than a micro apart. -/
theorem net_diff_lt_one (gross : ℕ) {bps : ℕ} (h : bps ≤ 10000) :
    |(gross : ℚ) * (10000 - bps) / 10000 - netMicros gross bps| < 1 := by
  have hdiv := Nat.div_add_mod (gross * bps) 10000
  have hmod := Nat.mod_lt (gross * bps) (by decide : 0 < 10000)
  have hcast : (10000 : ℚ) * (gross * bps / 10000 : ℕ) + (gross * bps % 10000 : ℕ) = gross * bps := by
    exact_mod_cast hdiv
  have hrest : ((gross * bps % 10000 : ℕ) : ℚ) < 10000 := by exact_mod_cast hmod
  have hnonneg : (0 : ℚ) ≤ (gross * bps % 10000 : ℕ) := Nat.cast_nonneg _
  have hexact : (gross : ℚ) * (10000 - bps) / 10000 - netMicros gross bps =
      -((gross * bps % 10000 : ℕ) : ℚ) / 10000 := by
    unfold netMicros
    rw [Nat.cast_sub (fee_le gross h)]
    linarith
  rw [hexact, abs_lt]
  constructor
  · linarith
  · linarith

theorem microsToUsdc_of_isDigits {s : JsStr} (h : isDigits s = true) :
    microsToUsdc s = toNat s / 10 ^ 6 := by
  have htrim := trim_of_isDigits h
  have hsome : ¬ (trim s).isEmpty = true := by
    rw [htrim]
    unfold isDigits at h
    rw [Bool.and_eq_true] at h
    simpa using h.1
  unfold microsToUsdc toNumber
  rw [if_neg hsome, htrim, if_pos h]
  rfl

/-- The told net of a sale. -/
theorem told_net {configured : Option JsStr} {bps : ℕ}
    (hset : configured.bind parseInt = some (bps : ℤ)) (hbps : bps ≤ 10000) {ask : Order}
    {bid : Option Order} {settlementMicros : Option JsStr} {sold : SellerSold}
    (hsold : notifyTradeSettled configured ask bid settlementMicros = some sold)
    (hmicros : isDigits (saleMicros ask bid settlementMicros) = true) :
    |sold.netUsdc * 10 ^ 6 - netMicros (toNat (saleMicros ask bid settlementMicros)) bps| < 1 := by
  unfold notifyTradeSettled at hsold
  dsimp only at hsold
  split_ifs at hsold
  obtain rfl := Option.some.inj hsold
  dsimp only
  rw [microsToUsdc_of_isDigits hmicros]
  generalize toNat (saleMicros ask bid settlementMicros) = gross
  have hdiff := net_diff_lt_one gross hbps
  have hle : (bps : ℚ) ≤ 10000 := by exact_mod_cast hbps
  have hgross : (0 : ℚ) ≤ gross := Nat.cast_nonneg gross
  unfold sellerNetUsdc
  rw [platformFeeBps_of_set hset]
  dsimp only
  have husdc : (0 : ℚ) ≤ (gross : ℚ) / 10 ^ 6 := div_nonneg hgross (by norm_num)
  split_ifs with hcase
  · have hzero : gross * bps = 0 := by
      rcases hcase with hnone | hfree
      · have hle : (gross : ℚ) ≤ 0 := by
          by_contra hpos
          exact hnone (div_pos (not_le.mp hpos) (by norm_num))
        have hzero : gross = 0 := by
          have hgross : gross ≤ 0 := by exact_mod_cast hle
          omega
        rw [hzero, Nat.zero_mul]
      · have hzero : bps = 0 := by omega
        rw [hzero, Nat.mul_zero]
    unfold netMicros
    rw [hzero, max_eq_right husdc]
    simp
  · have hnet : (gross : ℚ) / 10 ^ 6 * (10000 - ((bps : ℤ) : ℚ)) / 10000 * 10 ^ 6 =
        gross * (10000 - bps) / 10000 := by
      rw [Int.cast_natCast]
      ring
    have hpos : (0 : ℚ) ≤ (gross : ℚ) / 10 ^ 6 * (10000 - ((bps : ℤ) : ℚ)) / 10000 := by
      rw [Int.cast_natCast]
      have hrate : (0 : ℚ) ≤ 10000 - bps := by linarith
      exact div_nonneg (mul_nonneg husdc hrate) (by norm_num)
    rw [max_eq_right hpos, hnet]
    exact hdiff

/-! ### Both policies -/

def LinesSum (dto : CreateOrderDto) (gross : ℤ) : Prop :=
  ∃ amounts : List ℤ, dto.parameters.consideration.map (fun l => toBigInt l.startAmount) =
    amounts.map some ∧ amounts.sum = gross

theorem amounts_of_sumConsideration {usdc : JsStr} {chainId i : ℕ} {lines : List SeaportItem}
    {sum total : ℤ} (h : sumConsideration usdc chainId i lines sum = .ok total) :
    ∃ amounts : List ℤ, lines.map (fun l => toBigInt l.startAmount) = amounts.map some ∧
      sum + amounts.sum = total := by
  induction lines generalizing i sum with
  | nil =>
    obtain rfl := Except.ok.inj h
    exact ⟨[], rfl, Int.add_zero _⟩
  | cons line lines ih =>
    simp only [sumConsideration, bind_eq_ok, require_eq_ok, bigInt_eq_ok] at h
    obtain ⟨-, -, -, -, amount, hamount, h⟩ := h
    obtain ⟨amounts, hamounts, hsum⟩ := ih h
    refine ⟨amount :: amounts, ?_, ?_⟩
    · rw [List.map_cons, List.map_cons, hamount, hamounts]
    · rw [List.sum_cons, ← hsum]
      omega

theorem linesSum_of_valid {env : Env} {dto : CreateOrderDto} {chainId : ℕ} {gross : ℤ}
    (hgross : toBigInt dto.considerationAmount = some gross)
    (h : assertValidAskListing env dto chainId = .ok ()) : LinesSum dto gross := by
  simp only [assertValidAskListing, bind_eq_ok, require_eq_ok, bigInt_eq_ok,
    decide_eq_true_eq] at h
  obtain ⟨-, -, usdc, -, sum, hsum, declared, hdeclared, -, hsame, -⟩ := h
  obtain rfl : gross = declared := Option.some.inj (hgross.symm.trans hdeclared)
  obtain ⟨amounts, hamounts, htotal⟩ := amounts_of_sumConsideration hsum
  refine ⟨amounts, hamounts, ?_⟩
  omega

/-- Both variables are set to a rate. -/
structure FeesSet (env : Env) (configured : Option JsStr) (hold standard : ℕ) : Prop where
  held : env.selfVaultPlatformFeeBps = some (hold : ℚ)
  held_le : hold ≤ 10000
  others : configured.bind parseInt = some (standard : ℤ)
  others_le : standard ≤ 10000

def policyBps (hold standard : ℕ) : SettlementPolicy → ℕ
  | .standard => standard
  | .selfVaultHold => hold

/-- An accepted ask for a held token pays the seller the net of its price, or the platform all of it; a
settlement owes the net of its gross amount. The lines of an ask for a standard token are only checked
to add up to its price. Where the rate of the policy is the one that the notifications read, the seller
is told the net, to less than a micro. -/
theorem seller_proceeds {env : Env} {configured : Option JsStr} {hold standard : ℕ}
    (hfees : FeesSet env configured hold standard) :
    (∀ (dto : CreateOrderDto) (x : World) (t : Tables) (chainId gross : ℕ),
      (getSettlementPolicy t.ledger dto.tokenContract dto.tokenId).1 = some .selfVaultHold →
      toBigInt dto.considerationAmount = some (gross : ℤ) →
      Accepted env x t dto chainId → HoldLines env dto gross hold) ∧
    (∀ (p : FilledAsk) (ledger : Ledger) (row : SelfVaultSettlement),
      ledger.settlementOf (trim p.ask.orderHash) = none →
      (createFromFulfilledAsk env p ledger).1 = some row →
      row.grossUsdc = resolveGrossMicros p.ask ∧
        toNat row.sellerPayoutUsdc = netMicros (toNat row.grossUsdc) hold) ∧
    (∀ (dto : CreateOrderDto) (x : World) (t : Tables) (chainId : ℕ) (gross : ℤ),
      (getSettlementPolicy t.ledger dto.tokenContract dto.tokenId).1 = some .standard →
      toBigInt dto.considerationAmount = some gross →
      (Accepted env x t dto chainId ↔ assertValidAskListing env dto chainId = .ok ()) ∧
        (Accepted env x t dto chainId → LinesSum dto gross)) ∧
    ∀ (policy : SettlementPolicy) (ask : Order) (bid : Option Order)
      (settlementMicros : Option JsStr) (sold : SellerSold),
      policyBps hold standard policy = standard →
      notifyTradeSettled configured ask bid settlementMicros = some sold →
      isDigits (saleMicros ask bid settlementMicros) = true →
      |sold.netUsdc * 10 ^ 6 -
        netMicros (toNat (saleMicros ask bid settlementMicros)) (policyBps hold standard policy)| < 1 := by
  refine ⟨?_, ?_, ?_, ?_⟩
  · rintro dto x t chainId gross hpolicy hgross ⟨-, hserved⟩
    rw [serve_assertAskSettlementPolicy hpolicy, if_neg (by decide)] at hserved
    exact holdLines_of_accepted hfees.held hfees.held_le hgross hserved
  · intro p ledger row hnew hrow
    exact settlement_payout hfees.held hfees.held_le hnew hrow
  · intro dto x t chainId gross hpolicy hgross
    have hserved : (serve env x (assertAskSettlementPolicy env dto chainId) t).1 = .ok () := by
      rw [serve_assertAskSettlementPolicy hpolicy, if_pos rfl]
    constructor
    · constructor
      · intro h
        exact h.1
      · intro h
        exact ⟨h, hserved⟩
    · intro h
      exact linesSum_of_valid hgross h.1
  · intro policy ask bid settlementMicros sold hrate hsold hmicros
    rw [hrate]
    exact told_net hfees.others hfees.others_le hsold hmicros

section Runs

def twoRatesEnv : Env := { defaultFeesEnv with selfVaultPlatformFeeBps := some 500 }

theorem feesSet_twoRates : FeesSet twoRatesEnv (some (js "250")) 500 250 where
  held := by
    unfold twoRatesEnv
    norm_num
  held_le := by decide
  others := by decide +kernel
  others_le := by decide

def soldAsk : Order where
  id := 1
  orderHash := js "0xa"
  offerer := js "0x" ++ List.replicate 40 '1'
  side := .ask
  tokenContract := Frontend.cardContract
  tokenId := js "7"
  considerationAmount := js "100000000"

theorem seller_proceeds_hundred : ∃ sold,
    notifyTradeSettled (some (js "250")) soldAsk none none = some sold ∧
      |sold.netUsdc * 10 ^ 6 - 97500000| < 1 := by
  have hmicros : saleMicros soldAsk none none = js "100000000" := by decide +kernel
  have hnet : netMicros (toNat (js "100000000")) 250 = 97500000 := by decide +kernel
  have hsome : (notifyTradeSettled (some (js "250")) soldAsk none none).isSome := by decide +kernel
  obtain ⟨sold, hsold⟩ := Option.isSome_iff_exists.mp hsome
  have htold := (seller_proceeds feesSet_twoRates).2.2.2 .standard soldAsk none none sold rfl hsold
    (by decide +kernel)
  rw [hmicros] at htold
  change |sold.netUsdc * 10 ^ 6 - (netMicros (toNat (js "100000000")) 250 : ℕ)| < 1 at htold
  rw [hnet] at htold
  exact ⟨sold, hsold, by exact_mod_cast htold⟩

/-- An ask for a standard token without a line for the platform. -/
def askWithoutFee : CreateOrderDto where
  side := .ask
  tokenContract := Frontend.cardContract
  tokenId := js "7"
  offerer := js "0x" ++ List.replicate 40 '1'
  considerationAmount := js "100000000"
  parameters := { consideration :=
    [usdcLine Frontend.usdcContract (js "0x" ++ List.replicate 40 '1') 100000000] }

def standardCardTables : Tables :=
  { heldCardTables with
    tokens := [{
      tokenContract := Frontend.cardContract
      tokenId := js "7"
      settlementPolicy := some .standard }] }

/-- The ask is accepted, and its one line pays the seller the whole price. -/
theorem standard_ask_without_fee :
    (getSettlementPolicy standardCardTables.ledger Frontend.cardContract (js "7")).1 = some .standard ∧
      Accepted twoRatesEnv idleWorld standardCardTables askWithoutFee 1 ∧
      (askWithoutFee.parameters.consideration.map fun l => toBigInt l.startAmount) =
        [some 100000000] ∧
      netMicros 100000000 250 = 97500000 := by
  have hpolicy : (getSettlementPolicy standardCardTables.ledger askWithoutFee.tokenContract
      askWithoutFee.tokenId).1 = some .standard := by decide +kernel
  refine ⟨hpolicy, ⟨by decide +kernel, ?_⟩, by decide +kernel, by decide⟩
  rw [serve_assertAskSettlementPolicy hpolicy, if_pos rfl]

end Runs

end SellerProceeds
