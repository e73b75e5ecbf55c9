import Tokenable.Backend.Store

/-!
# Checks on new orders

The validations of `createOrder` and of the two replacements that read the request only, the
comparison of a bid with the live asks, and the class-validator decorators of the request body.
Amounts are texts that `BigInt` reads; one that it cannot read ends the request with the uncaught
`SyntaxError`.
-/

namespace Orders
open Js Platform Vault Settlement Backend

def require (b : Bool) (message : JsStr) : Except HttpError Unit :=
  if b then .ok () else .error (.badRequest message)

def bigInt (s : JsStr) : Except HttpError ℤ :=
  match toBigInt s with
  | some n => .ok n
  | none => .error (.internal (js "Cannot convert " ++ s ++ js " to a BigInt"))

@[simp] theorem require_eq_ok {b : Bool} {message : JsStr} {u : Unit} :
    require b message = .ok u ↔ b = true := by
  cases b <;> simp [require]

@[simp] theorem bigInt_eq_ok {s : JsStr} {n : ℤ} : bigInt s = .ok n ↔ toBigInt s = some n := by
  unfold bigInt
  cases toBigInt s <;> simp

section Dto

/-- `/^[+-]?([0-9]*[.])?[0-9]+$/` -/
def isNumberString (s : JsStr) : Bool :=
  let t := if s.head? = some '+' ∨ s.head? = some '-' then s.tail else s
  match t.dropWhile Char.isDigit with
  | '.' :: fraction => isDigits fraction
  | rest => rest.isEmpty && !t.isEmpty

/-- `/^(0x)[0-9a-f]{40}$/i` -/
def isEthereumAddress (s : JsStr) : Bool := isAddress (lower s)

/-- The decorators on the fields of the request that the services read. -/
def CreateOrderDto.isValid (dto : CreateOrderDto) : Bool :=
  isEthereumAddress dto.tokenContract && isNumberString dto.tokenId &&
    isNumberString dto.considerationAmount && dto.collectionKey.all (fun k => !k.isEmpty)

end Dto

section Asks

/-- The sum of the start amounts of USDC items; `i` is the index of the first item in the list. -/
def sumConsideration (usdc : JsStr) (chainId : ℕ) : ℕ → List SeaportItem → ℤ → Except HttpError ℤ
  | _, [], sum => .ok sum
  | i, c :: cons, sum => do
    require (c.itemType = 1) (js "Ask consideration[" ++ ofNat i ++ js "] must be ERC20 (itemType 1)")
    require (lower c.token = usdc) (js "Ask consideration[" ++ ofNat i ++
      js "] token must match USDC for chain " ++ ofNat chainId ++ js " (" ++ usdc ++ js ")")
    let amount ← bigInt c.startAmount
    sumConsideration usdc chainId (i + 1) cons (sum + amount)

def ofInt (n : ℤ) : JsStr := if n < 0 then '-' :: ofNat n.natAbs else ofNat n.natAbs

def assertValidAskListing (env : Env) (dto : CreateOrderDto) (chainId : ℕ) :
    Except HttpError Unit := do
  require (!dto.parameters.consideration.isEmpty)
    (js "Ask listing must include at least one consideration item")
  let usdc ← env.getUsdcAddress chainId
  let sum ← sumConsideration usdc chainId 0 dto.parameters.consideration 0
  let declared ← bigInt dto.considerationAmount
  require (sum = declared) (js "Sum of consideration amounts (" ++ ofInt sum ++
    js ") does not equal considerationAmount (" ++ ofInt declared ++ js ")")
  require (isValidDecimalTokenId dto.tokenId)
    (js "Ask listings must include a valid ERC-721 tokenId (non-negative integer, including 0)")
  let offerId := (dto.parameters.offer.head?.map SeaportItem.identifierOrCriteria).getD []
  require (!isValidDecimalTokenId offerId ||
      normalizeDecimalTokenId offerId = normalizeDecimalTokenId dto.tokenId)
    (js "Ask offer identifierOrCriteria must match tokenId")

def splitGrossUsdcMicros (grossMicros : ℤ) (feeBps : ℕ) : ℤ × ℤ :=
  let feeMicros := (grossMicros * (min feeBps 10000 : ℕ)).tdiv 10000
  (grossMicros - feeMicros, feeMicros)

/-- The one consideration line of a legacy hold listing goes to the fee recipient. -/
def assertLegacyHoldLine (feeRecipient : JsStr) (declared : ℤ) (only : SeaportItem) :
    Except HttpError Unit := do
  require (only.itemType = 1) (js "Self-vault hold consideration must be ERC20 USDC")
  require (lower only.recipient = feeRecipient)
    (js "Legacy self-vault hold consideration recipient must be the platform fee wallet (" ++
      feeRecipient ++ js ")")
  let amount ← bigInt only.startAmount
  require (amount = declared)
    (js "Self-vault hold consideration amount must equal considerationAmount")

/-- The two lines of a hold listing pay the seller and the platform. -/
def assertHoldSplit (env : Env) (chainId : ℕ) (usdc feeRecipient offerer : JsStr) (declared : ℤ)
    (sellerLine feeLine : SeaportItem) : Except HttpError Unit := do
  require (sellerLine.itemType = 1 && feeLine.itemType = 1)
    (js "Self-vault hold consideration items must be ERC20 USDC")
  require (lower sellerLine.token = usdc && lower feeLine.token = usdc)
    (js "Self-vault hold consideration must use USDC for chain " ++ ofNat chainId)
  require (lower sellerLine.recipient = offerer)
    (js "Self-vault hold seller consideration must pay the ask offerer")
  require (lower feeLine.recipient = feeRecipient)
    (js "Self-vault hold fee consideration must pay the platform fee wallet (" ++ feeRecipient ++
      js ")")
  let bps := env.readSelfVaultPlatformFeeBps
  let split := splitGrossUsdcMicros declared bps
  let sellerAmount ← bigInt sellerLine.startAmount
  let feeAmount ← bigInt feeLine.startAmount
  require (sellerAmount = split.1 && feeAmount = split.2)
    (js "Self-vault hold fee split must be " ++ ofNat bps ++ js " bps platform / remainder to seller")

/-- What a listing of a `self_vault_hold` token pays, and to whom. -/
def assertHoldListing (env : Env) (dto : CreateOrderDto) (chainId : ℕ) : Except HttpError Unit := do
  let feeRecipient := lower (trim (env.platformFeeRecipient.getD []))
  require (!feeRecipient.isEmpty)
    (js "PLATFORM_FEE_RECIPIENT is required for self-vault hold listings")
  let usdc ← env.getUsdcAddress chainId
  let declared ← bigInt dto.considerationAmount
  match dto.parameters.consideration with
  | [only] => assertLegacyHoldLine feeRecipient declared only
  | [sellerLine, feeLine] =>
    assertHoldSplit env chainId usdc feeRecipient (lower (trim dto.offerer)) declared sellerLine feeLine
  | _ => .error (.badRequest
      (js "Self-vault hold asks must include seller USDC and platform fee consideration items"))

end Asks

section Bids

def tokenBidAllowedDurationDays : List ℕ := [1, 3, 7, 14, 30, 60, 90, 180]

def tokenBidSecondsPerDay : ℕ := 86400

def tokenBidDurationSkewSec : ℕ := 120

def tokenBidStartSkewSec : ℕ := 15 * 60

def tokenBidMaxDurationDays : ℕ := 180

/-- The durations differ by at most the skew. -/
def isAllowedTokenBidDurationSec (durationSec : ℕ) : Bool :=
  0 < durationSec && tokenBidAllowedDurationDays.any fun d =>
    durationSec ≤ d * tokenBidSecondsPerDay + tokenBidDurationSkewSec &&
      d * tokenBidSecondsPerDay ≤ durationSec + tokenBidDurationSkewSec

/-- The window of a bid, in seconds, against the clock, in milliseconds. -/
def tokenBidWindowIsValid (startTimeSec endTimeSec nowMs : ℕ) : Except HttpError Unit := do
  require (startTimeSec < endTimeSec) (js "Bid endTime must be after startTime")
  require (1000 * startTimeSec ≤ nowMs + 1000 * tokenBidStartSkewSec &&
      nowMs ≤ 1000 * startTimeSec + 1000 * tokenBidStartSkewSec)
    (js "Bid startTime is too far from now")
  require (isAllowedTokenBidDurationSec (endTimeSec - startTimeSec))
    (js "Bid duration must be 1, 3, 7, 14, 30, 60, 90, or 180 days")
  require (1000 * endTimeSec ≤ nowMs +
      1000 * (tokenBidMaxDurationDays * tokenBidSecondsPerDay + tokenBidDurationSkewSec))
    (js "Bid endTime exceeds the 180-day maximum")

/-- The checks of a bid whose first consideration item is of type `itemType`. -/
def assertValidBid (itemType : ℕ) (wrongType : JsStr)
    (checkItem : SeaportItem → Except HttpError Unit) (env : Env) (dto : CreateOrderDto)
    (chainId nowMs : ℕ) : Except HttpError Unit :=
  match dto.parameters.offer.head?, dto.parameters.consideration.head? with
  | some offer, some cons => do
    require (offer.itemType = 1) (js "Bid offer[0] must be ERC20 (itemType 1)")
    require (cons.itemType = itemType) wrongType
    let usdc ← env.getUsdcAddress chainId
    require (lower offer.token = usdc)
      (js "Bid offer token must match USDC for chain " ++ ofNat chainId)
    require (lower cons.token = lower dto.tokenContract)
      (js "Bid consideration token must match tokenContract")
    checkItem cons
    tokenBidWindowIsValid dto.parameters.startTime dto.parameters.endTime nowMs
  | _, _ => .error (.badRequest (js "Bid order must include offer and consideration items"))

def assertValidTokenBid (env : Env) (dto : CreateOrderDto) (chainId nowMs : ℕ) :
    Except HttpError Unit :=
  assertValidBid 2 (js "Token bid consideration[0] must be ERC721 (itemType 2)")
    (fun cons => do
      require (isValidDecimalTokenId dto.tokenId) (js "Token bids require a valid tokenId")
      require (isValidDecimalTokenId cons.identifierOrCriteria &&
          normalizeDecimalTokenId cons.identifierOrCriteria = normalizeDecimalTokenId dto.tokenId)
        (js "Bid consideration identifierOrCriteria must match tokenId"))
    env dto chainId nowMs

def criteriaTokenSentinel : JsStr := js "0"

def assertValidCriteriaBid (env : Env) (dto : CreateOrderDto) (chainId nowMs : ℕ) :
    Except HttpError Unit :=
  assertValidBid 4
    (js "Collection bid consideration[0] must be ERC721_WITH_CRITERIA (itemType 4)")
    (fun cons => do
      let root := trim cons.identifierOrCriteria
      require (!root.isEmpty && root ≠ js "0")
        (js "Collection bid requires a Merkle root in identifierOrCriteria")
      require (isValidDecimalTokenId dto.tokenId && trim dto.tokenId = criteriaTokenSentinel)
        (js "Collection bids must use tokenId 0 (criteria sentinel)"))
    env dto chainId nowMs

end Bids

section Crossing

def bidCrossesAskMessage : JsStr :=
  js "BID_CROSSES_ASK: This bid meets or exceeds a live ask. Buy the listing instead of placing a bid."

def parseMicros (raw : JsStr) : ℤ := (toBigInt raw).getD 0

def windowOpen (row : Order) (nowMs : ℕ) : Bool :=
  !(0 < row.endTime && row.endTime < nowMs) && row.startTime ≤ nowMs

/-- The live ask that the bid would take: `bidMicros` is at least its price. -/
def isCrossed (bidMicros : ℤ) (nowMs : ℕ) (row : Order) : Bool :=
  row.status = .active && row.side ≠ .bid && windowOpen row nowMs &&
    0 < parseMicros row.considerationAmount && parseMicros row.considerationAmount ≤ bidMicros

/-- The crossed asks in the order of the list; a row is skipped when its hash was `seen`. -/
def crossedAsks (bidMicros : ℤ) (nowMs : ℕ) : List JsStr → List Order → List Order
  | _, [] => []
  | seen, row :: rows =>
    let hash := lower (trim row.orderHash)
    if !hash.isEmpty && hash ∈ seen then crossedAsks bidMicros nowMs seen rows
    else
      let seen := if hash.isEmpty then seen else hash :: seen
      if isCrossed bidMicros nowMs row then row :: crossedAsks bidMicros nowMs seen rows
      else crossedAsks bidMicros nowMs seen rows

def cheaper (a b : Order) : Prop :=
  parseMicros a.considerationAmount < parseMicros b.considerationAmount ∨
    parseMicros a.considerationAmount = parseMicros b.considerationAmount ∧
      (toNumber a.tokenId).getD 0 ≤ (toNumber b.tokenId).getD 0

instance : DecidableRel cheaper := fun a b => by
  unfold cheaper
  infer_instance

def pickCrossingAskForBid (asks : List Order) (bidMicros : ℤ) (nowMs : ℕ) : Option Order :=
  if bidMicros ≤ 0 then none
  else ((crossedAsks bidMicros nowMs [] asks).insertionSort cheaper).head?

end Crossing

end Orders
