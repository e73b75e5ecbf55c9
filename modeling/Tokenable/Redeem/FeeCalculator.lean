import Tokenable.Redeem.FeeSchedule

/-!
# Redeem fees by shipment

`RedeemShippingFeeCalculator.estimate` groups the cards into one shipment from the PSA vault and one
for each partner, charges shipping on the first card of each, and adds the amounts up by card, by
shipment and in total. The answers of the services that it asks are arguments.
-/

namespace Redeem.Fee
open Js Platform Vault

inductive ShippingProvider where
  | psaVault | partner
  deriving DecidableEq

def ShippingProvider.text : ShippingProvider → JsStr
  | psaVault => js "psa_vault"
  | partner => js "partner"

inductive ShippingSource where
  | psaPublished | fedexStub | fedexRate
  deriving DecidableEq

def ShippingSource.text : ShippingSource → JsStr
  | psaPublished => js "psa_published"
  | fedexStub => js "fedex_stub"
  | fedexRate => js "fedex_rate"

inductive RateType where
  | account | list
  deriving DecidableEq

structure RedeemCardFeeLine where
  tokenId : ℕ
  vaultedAt : Option ℕ
  earlyWithdrawal : Bool
  retrievalUsd : ℚ
  earlyWithdrawalUsd : ℚ
  shippingUsd : ℚ
  totalUsd : ℚ
  shipmentKey : JsStr
  deriving DecidableEq

structure RedeemShipmentEstimate where
  key : JsStr
  provider : ShippingProvider
  vaultPartnerId : Option JsStr
  vaultLabel : JsStr
  cardCount : ℕ
  shippingUsd : ℚ
  retrievalFeeTotalUsd : ℚ
  earlyWithdrawalFeeTotalUsd : ℚ
  totalUsd : ℚ
  shippingSource : ShippingSource
  shippingServiceType : Option JsStr := none
  shippingRateType : Option RateType := none
  shippingQuoteExpiresAt : Option ℕ := none
  shippingDestinationCountry : Option JsStr := none
  cards : List RedeemCardFeeLine
  deriving DecidableEq

inductive AgeBasis where
  | depositedAt | unknownAssumeEarly
  deriving DecidableEq

structure RedeemEstimate where
  country : RedeemCountry
  cardCount : ℕ
  shippingUsd : ℚ
  retrievalFeePerCardUsd : ℚ
  earlyWithdrawalFeePerCardUsd : ℚ
  earlyWithdrawalDays : ℕ
  earlyWithdrawalCardCount : ℕ
  retrievalFeeTotalUsd : ℚ
  earlyWithdrawalFeeTotalUsd : ℚ
  withdrawFeePerCardUsd : ℚ
  withdrawFeeTotalUsd : ℚ
  totalUsd : ℚ
  totalUsdcMicros : ℤ
  payToAddress : Option JsStr
  cards : List RedeemCardFeeLine
  shipments : List RedeemShipmentEstimate
  source : JsStr
  ageBasis : AgeBasis
  shippingQuoteExpiresAt : Option ℕ
  deriving DecidableEq

structure VaultCustodyRow where
  tokenId : JsStr
  settlementPolicy : Option SettlementPolicy
  vaultPartnerId : Option JsStr
  known : Bool
  deriving DecidableEq

structure ShippingRateAddress where
  companyName : Option JsStr := none
  contactName : Option JsStr := none
  phone : Option JsStr := none
  country : JsStr
  city : JsStr
  region : Option JsStr
  postal : JsStr
  line1 : JsStr
  line2 : Option JsStr := none
  residential : Bool
  deriving DecidableEq

structure ShippingRateQuoteInput where
  origin : ShippingRateAddress
  destination : ShippingRateAddress
  destinationBucket : RedeemCountry
  packageCount : ℕ
  deriving DecidableEq

structure ShippingRateQuote where
  shippingUsd : ℚ
  serviceType : Option JsStr
  rateType : Option RateType
  isFedexRate : Bool
  expiresAt : ℕ
  deriving DecidableEq

/-- What the calculator asks: the custody rows and the deposit dates of tokens, by their ids, the
address of a partner, a carrier's quote, and the time at which the fees of a card are computed. -/
structure Services where
  getVaultCustodyRows : JsStr → List JsStr → Except HttpError (List VaultCustodyRow)
  getDepositedAtByTokenIds : JsStr → List JsStr → Except HttpError (List (JsStr × Option ℕ))
  findAddressByPartnerId : JsStr → Except HttpError (Option ShippingRateAddress)
  quote : ShippingRateQuoteInput → Except HttpError ShippingRateQuote
  now : ℕ → ℕ

section FedEx

def redeemFlatShippingUsd : ℚ := 40

def fedexKrDomesticUnsupportedMessage : JsStr :=
  js "Shipping within Korea isn’t available for Partner vault cards — FedEx can’t quote Korea → Korea. Ask the vault host to set their ship-from address to the United States (or another FedEx-served country), then try again."

def assertFedExLaneSupported (originIso destIso : JsStr) : Except HttpError Unit :=
  if originIso = js "KR" ∧ destIso = js "KR" then
    .error (.badRequest fedexKrDomesticUnsupportedMessage)
  else .ok ()

/-- `FedExRateClient.quote` at time `now`: a flat price that stays valid for `ttlMinutes`. -/
def fedexQuote (ttlMinutes now : ℕ) (input : ShippingRateQuoteInput) :
    Except HttpError ShippingRateQuote := do
  let originIso ← requireIso2CountryCode input.origin.country (js "origin.country")
  let destIso ← requireIso2CountryCode input.destination.country (js "destination.country")
  assertFedExLaneSupported originIso destIso
  .ok ⟨redeemFlatShippingUsd, some (js "FLAT_40"), none, false, now + max 1 ttlMinutes * 60000⟩

theorem wholeCents_fedexQuote {ttlMinutes now : ℕ} {input : ShippingRateQuoteInput}
    {quote : ShippingRateQuote} (h : fedexQuote ttlMinutes now input = .ok quote) :
    WholeCents quote.shippingUsd := by
  simp only [fedexQuote, bind_eq_ok] at h
  obtain ⟨originIso, -, destIso, -, -, -, h⟩ := h
  obtain rfl := Except.ok.inj h
  exact ⟨4000, by norm_num [redeemFlatShippingUsd]⟩

end FedEx

structure EstimateParams where
  country : RedeemCountry
  cardCount : Option ℕ := none
  tokenIds : List ℚ := []
  chainId : Option ℕ := none
  /-- Its `country` is not read. -/
  shipTo : Option ShipTo := none

structure TokenMeta where
  tokenId : ℕ
  settlementPolicy : SettlementPolicy
  vaultPartnerId : Option JsStr
  vaultedAt : Option ℕ
  deriving DecidableEq

/-- The ids floored, the positive ones, each once. -/
def uniqueIds (tokenIds : List ℚ) : List ℕ :=
  (((tokenIds.map Int.floor).filter (0 < ·)).map Int.toNat).eraseDups

section Grouping

structure Group where
  key : JsStr
  provider : ShippingProvider
  partnerId : Option JsStr
  tokens : List TokenMeta
  deriving DecidableEq

def TokenMeta.groupKey (m : TokenMeta) : JsStr :=
  match m.settlementPolicy with
  | .selfVaultHold => js "partner:" ++ m.vaultPartnerId.getD (js "unknown")
  | .standard => js "psa_vault"

def TokenMeta.provider (m : TokenMeta) : ShippingProvider :=
  match m.settlementPolicy with
  | .selfVaultHold => .partner
  | .standard => .psaVault

def TokenMeta.newGroup (m : TokenMeta) : Group where
  key := m.groupKey
  provider := m.provider
  partnerId := if m.provider = .partner then m.vaultPartnerId else none
  tokens := []

def Group.push (g : Group) (m : TokenMeta) : Group := { g with tokens := g.tokens ++ [m] }

def addToGroup (groups : OrderedMap JsStr Group) (m : TokenMeta) : OrderedMap JsStr Group :=
  groups.set m.groupKey (((groups.get? m.groupKey).getD m.newGroup).push m)

def groupTokens (metas : List TokenMeta) : OrderedMap JsStr Group :=
  metas.foldl addToGroup .empty

def checkGroup (cfg : PsaVaultFeeConfig) (g : Group) : Except HttpError Unit :=
  if cfg.maxItems < g.tokens.length then
    .error (.badRequest (js "At most " ++ ofNat cfg.maxItems ++ js " cards per " ++
      g.provider.text ++ js " shipment"))
  else if g.provider = .partner ∧ !truthy g.partnerId then
    .error (.badRequest (js "Self vault token is missing vault_partner_id — cannot quote Partner shipping"))
  else .ok ()

def checkGroups (cfg : PsaVaultFeeConfig) : List Group → Except HttpError Unit
  | [] => .ok ()
  | g :: gs => do
    checkGroup cfg g
    checkGroups cfg gs

end Grouping

section Cards

/-- The cards whose custody is unknown end the request. -/
def checkKnown (custody : List VaultCustodyRow) : Except HttpError Unit :=
  let unknownIds := (custody.filter fun c => !c.known).map VaultCustodyRow.tokenId
  if unknownIds.isEmpty then .ok ()
  else .error (.badRequest (js "RWA token(s) not indexed for this chain: " ++
    List.intercalate (js ", ") unknownIds))

def tokenMeta (custody : List VaultCustodyRow) (ages : List (JsStr × Option ℕ)) (tokenId : ℕ) :
    Except HttpError TokenMeta :=
  let notIndexed : HttpError :=
    .badRequest (js "RWA token " ++ ofNat tokenId ++ js " is not indexed for this chain")
  match custody.find? fun c => c.tokenId = ofNat tokenId with
  | none => .error notIndexed
  | some row =>
    match row.known, row.settlementPolicy with
    | true, some policy => .ok ⟨tokenId, policy, row.vaultPartnerId,
        (ages.find? fun a => a.1 = ofNat tokenId).bind Prod.snd⟩
    | _, _ => .error notIndexed

def tokenMetas (custody : List VaultCustodyRow) (ages : List (JsStr × Option ℕ)) :
    List ℕ → Except HttpError (List TokenMeta)
  | [] => .ok []
  | tokenId :: tokenIds => do
    let m ← tokenMeta custody ages tokenId
    let ms ← tokenMetas custody ages tokenIds
    .ok (m :: ms)

def psaLine (cfg : PsaVaultFeeConfig) (country : RedeemCountry) (key : JsStr) (tokenId : ℕ)
    (vaultedAt : Option ℕ) (isFirst : Bool) (now : ℕ) : RedeemCardFeeLine :=
  let fees := psaCardFees cfg country vaultedAt isFirst now
  ⟨tokenId, vaultedAt, fees.earlyWithdrawal, fees.retrievalUsd, fees.earlyWithdrawalUsd,
    fees.shippingUsd, fees.totalUsd, key⟩

def partnerLine (quote : ShippingRateQuote) (key : JsStr) (m : TokenMeta) (isFirst : Bool) :
    RedeemCardFeeLine :=
  let shippingUsd := if isFirst then quote.shippingUsd else 0
  ⟨m.tokenId, m.vaultedAt, false, 0, 0, shippingUsd, roundUsd shippingUsd, key⟩

end Cards

section Shipments

def sumOf (f : RedeemCardFeeLine → ℚ) (cards : List RedeemCardFeeLine) : ℚ := (cards.map f).sum

def sumOver (f : RedeemShipmentEstimate → ℚ) (shipments : List RedeemShipmentEstimate) : ℚ :=
  (shipments.map f).sum

def psaShipment (svc : Services) (cfg : PsaVaultFeeConfig) (country : RedeemCountry) (g : Group) :
    RedeemShipmentEstimate :=
  let cards := g.tokens.mapIdx fun index m =>
    psaLine cfg country g.key m.tokenId m.vaultedAt (index = 0) (svc.now m.tokenId)
  let shippingUsd := sumOf (·.shippingUsd) cards
  let retrievalFeeTotalUsd := roundUsd (sumOf (·.retrievalUsd) cards)
  let earlyWithdrawalFeeTotalUsd := roundUsd (sumOf (·.earlyWithdrawalUsd) cards)
  { key := g.key
    provider := .psaVault
    vaultPartnerId := none
    vaultLabel := js "PSA Vault"
    cardCount := cards.length
    shippingUsd := roundUsd shippingUsd
    retrievalFeeTotalUsd := retrievalFeeTotalUsd
    earlyWithdrawalFeeTotalUsd := earlyWithdrawalFeeTotalUsd
    totalUsd := roundUsd (shippingUsd + retrievalFeeTotalUsd + earlyWithdrawalFeeTotalUsd)
    shippingSource := .psaPublished
    cards := cards }

def publicSelfVaultLabel : JsStr := js "Tokenable Vault"

def partnerShipment (quote : ShippingRateQuote) (partnerId destinationIso : JsStr) (g : Group) :
    RedeemShipmentEstimate :=
  let cards := g.tokens.mapIdx fun index m => partnerLine quote g.key m (index = 0)
  let shippingUsd := roundUsd quote.shippingUsd
  { key := g.key
    provider := .partner
    vaultPartnerId := some partnerId
    vaultLabel := publicSelfVaultLabel
    cardCount := cards.length
    shippingUsd := shippingUsd
    retrievalFeeTotalUsd := 0
    earlyWithdrawalFeeTotalUsd := 0
    totalUsd := shippingUsd
    shippingSource := if quote.isFedexRate then .fedexRate else .fedexStub
    shippingServiceType := quote.serviceType
    shippingRateType := quote.rateType
    shippingQuoteExpiresAt := some quote.expiresAt
    shippingDestinationCountry := some destinationIso
    cards := cards }

/-- The ISO code of the destination, when a partner ships. -/
def destinationIso (p : EstimateParams) (groups : List Group) : Except HttpError (Option JsStr) :=
  if groups.any fun g => g.provider = .partner then
    match p.shipTo with
    | none => .error (.badRequest (js "shipTo (with destination country) is required for Partner Self vault shipping quotes"))
    | some shipTo => do
      let iso ← resolveShipToDestinationIso2 { shipTo with country := p.country.text }
      .ok (some iso)
  else .ok none

def rateDestination (shipTo : Option ShipTo) (iso : JsStr) : ShippingRateAddress where
  contactName := shipTo.map ShipTo.name
  phone := shipTo.map ShipTo.phone
  country := iso
  city := (shipTo.map ShipTo.city).getD []
  region := shipTo.bind ShipTo.region
  postal := (shipTo.map ShipTo.postal).getD []
  line1 := (shipTo.map ShipTo.line1).getD []
  line2 := shipTo.bind ShipTo.line2
  residential := true

def rateInput (p : EstimateParams) (origin : ShippingRateAddress) (iso : JsStr) (g : Group) :
    ShippingRateQuoteInput :=
  ⟨origin, rateDestination p.shipTo iso, p.country, g.tokens.length⟩

def quotePartner (svc : Services) (p : EstimateParams) (iso : Option JsStr) (g : Group) :
    Except HttpError RedeemShipmentEstimate := do
  let partnerId := g.partnerId.getD []
  let originRow ← svc.findAddressByPartnerId partnerId
  match originRow with
  | none => .error (.badRequest (js "Partner shipping origin is missing — the vault host must set company address before redeem"))
  | some origin =>
    match iso with
    | none => .error (.badRequest (js "shipTo destination country is required for Partner Self vault shipping quotes"))
    | some iso => do
      let quote ← svc.quote (rateInput p origin iso g)
      .ok (partnerShipment quote partnerId iso g)

def quoteGroup (svc : Services) (cfg : PsaVaultFeeConfig) (p : EstimateParams) (iso : Option JsStr)
    (g : Group) : Except HttpError RedeemShipmentEstimate :=
  match g.provider with
  | .psaVault => .ok (psaShipment svc cfg p.country g)
  | .partner => quotePartner svc p iso g

def quoteGroups (svc : Services) (cfg : PsaVaultFeeConfig) (p : EstimateParams)
    (iso : Option JsStr) : List Group → Except HttpError (List RedeemShipmentEstimate)
  | [] => .ok []
  | g :: gs => do
    let shipment ← quoteGroup svc cfg p iso g
    let shipments ← quoteGroups svc cfg p iso gs
    .ok (shipment :: shipments)

/-- The first of the expiries that no other one precedes. -/
def earliestExpiry (shipments : List RedeemShipmentEstimate) : Option ℕ :=
  (shipments.filterMap (·.shippingQuoteExpiresAt)).foldl
    (fun earliest at_ => some (match earliest with
      | none => at_
      | some e => if at_ < e then at_ else e)) none

end Shipments

section Estimate

def countEarly (cards : List RedeemCardFeeLine) : ℕ := cards.countP (·.earlyWithdrawal)

def summarize (cfg : PsaVaultFeeConfig) (country : RedeemCountry) (payTo : Option JsStr)
    (shipments : List RedeemShipmentEstimate) : RedeemEstimate :=
  let allCards := shipments.flatMap (·.cards)
  let shippingUsd := roundUsd (sumOver (·.shippingUsd) shipments)
  let retrievalFeeTotalUsd := roundUsd (sumOver (·.retrievalFeeTotalUsd) shipments)
  let earlyWithdrawalFeeTotalUsd := roundUsd (sumOver (·.earlyWithdrawalFeeTotalUsd) shipments)
  let withdrawFeeTotalUsd := roundUsd (retrievalFeeTotalUsd + earlyWithdrawalFeeTotalUsd)
  let totalUsd := roundUsd (shippingUsd + withdrawFeeTotalUsd)
  { country := country
    cardCount := allCards.length
    shippingUsd := shippingUsd
    retrievalFeePerCardUsd := cfg.retrievalUsd
    earlyWithdrawalFeePerCardUsd := cfg.earlyUsd
    earlyWithdrawalDays := cfg.earlyDays
    earlyWithdrawalCardCount := countEarly allCards
    retrievalFeeTotalUsd := retrievalFeeTotalUsd
    earlyWithdrawalFeeTotalUsd := earlyWithdrawalFeeTotalUsd
    withdrawFeePerCardUsd := roundUsd (withdrawFeeTotalUsd / max 1 allCards.length)
    withdrawFeeTotalUsd := withdrawFeeTotalUsd
    totalUsd := totalUsd
    totalUsdcMicros := usdToUsdcMicros totalUsd
    payToAddress := payTo
    cards := allCards
    shipments := shipments
    source := List.intercalate (js "+")
      ((shipments.map (·.shippingSource)).eraseDups.map ShippingSource.text)
    ageBasis := .depositedAt
    shippingQuoteExpiresAt := earliestExpiry shipments }

def estimatePsaOnlyCardCount (svc : Services) (cfg : PsaVaultFeeConfig) (country : RedeemCountry)
    (payTo : Option JsStr) (cardCount : ℕ) : RedeemEstimate :=
  let count := min cfg.maxItems (max 1 cardCount)
  let cards := (List.range count).map fun i =>
    psaLine cfg country (js "psa_vault") 0 none (i = 0) (svc.now 0)
  let earlyCount := countEarly cards
  let shippingUsd := sumOf (·.shippingUsd) cards
  let retrievalFeeTotalUsd := roundUsd (cfg.retrievalUsd * count)
  let earlyWithdrawalFeeTotalUsd := roundUsd (cfg.earlyUsd * earlyCount)
  let withdrawFeeTotalUsd := roundUsd (retrievalFeeTotalUsd + earlyWithdrawalFeeTotalUsd)
  let totalUsd := roundUsd (shippingUsd + withdrawFeeTotalUsd)
  let shipment : RedeemShipmentEstimate := {
    key := js "psa_vault"
    provider := .psaVault
    vaultPartnerId := none
    vaultLabel := js "PSA Vault"
    cardCount := count
    shippingUsd := roundUsd shippingUsd
    retrievalFeeTotalUsd := retrievalFeeTotalUsd
    earlyWithdrawalFeeTotalUsd := earlyWithdrawalFeeTotalUsd
    totalUsd := totalUsd
    shippingSource := .psaPublished
    cards := cards }
  { country := country
    cardCount := count
    shippingUsd := roundUsd shippingUsd
    retrievalFeePerCardUsd := cfg.retrievalUsd
    earlyWithdrawalFeePerCardUsd := cfg.earlyUsd
    earlyWithdrawalDays := cfg.earlyDays
    earlyWithdrawalCardCount := earlyCount
    retrievalFeeTotalUsd := retrievalFeeTotalUsd
    earlyWithdrawalFeeTotalUsd := earlyWithdrawalFeeTotalUsd
    withdrawFeePerCardUsd := roundUsd (withdrawFeeTotalUsd / max 1 count)
    withdrawFeeTotalUsd := withdrawFeeTotalUsd
    totalUsd := totalUsd
    totalUsdcMicros := usdToUsdcMicros totalUsd
    payToAddress := payTo
    cards := cards
    shipments := [shipment]
    source := js "psa_vault_published_schedule"
    ageBasis := .unknownAssumeEarly
    shippingQuoteExpiresAt := none }

def estimateTokens (env : Env) (svc : Services) (cfg : PsaVaultFeeConfig) (p : EstimateParams)
    (chainId : ℕ) : Except HttpError RedeemEstimate := do
  let contract ← env.getRwaAddress chainId
  let ids := uniqueIds p.tokenIds
  let custody ← svc.getVaultCustodyRows contract (ids.map ofNat)
  let ages ← svc.getDepositedAtByTokenIds contract (ids.map ofNat)
  checkKnown custody
  let metas ← tokenMetas custody ages ids
  let groups := (groupTokens metas).values
  checkGroups cfg groups
  let iso ← destinationIso p groups
  let shipments ← quoteGroups svc cfg p iso groups
  .ok (summarize cfg p.country env.getConfiguredRecipient shipments)

def estimate (env : Env) (svc : Services) (cfg : PsaVaultFeeConfig) (p : EstimateParams) :
    Except HttpError RedeemEstimate :=
  if (uniqueIds p.tokenIds).isEmpty then
    .ok (estimatePsaOnlyCardCount svc cfg p.country env.getConfiguredRecipient (p.cardCount.getD 1))
  else
    match p.chainId with
    | none => .error (.badRequest (js "chainId header required when estimating with tokenIds"))
    | some chainId => estimateTokens env svc cfg p chainId

end Estimate

end Redeem.Fee
