import Mathlib.Data.List.Sort
import Tokenable.Platform.Config

/-!
# Quotes of a redeem request

The destination of a shipment, what a request reads of the fee estimate of a set of cards, and the
choice between a fresh estimate and the quote that the user was shown before paying.
-/

namespace Redeem
open Js Platform

structure ShipTo where
  name : JsStr
  line1 : JsStr
  line2 : Option JsStr := none
  city : JsStr
  region : Option JsStr := none
  postal : JsStr
  country : JsStr
  countryCode : Option JsStr := none
  phone : JsStr
  deriving DecidableEq

structure RedeemCardFeeLine where
  tokenId : ℕ
  vaultedAt : Option ℕ := none
  earlyWithdrawal : Bool := false
  deriving DecidableEq

structure RedeemEstimate where
  cardCount : ℕ
  totalUsdcMicros : ℕ
  cards : List RedeemCardFeeLine
  deriving DecidableEq

structure PinnedQuote where
  totalMicros : ℕ
  estimate : RedeemEstimate
  deriving DecidableEq

def requireIso2CountryCode (raw fieldLabel : JsStr) : Except HttpError JsStr :=
  let c := upper (trim raw)
  if c.length = 2 ∧ c.all (fun d => 'A' ≤ d && d ≤ 'Z') ∧ c ∉ [js "XX", js "ZZ"] then .ok c
  else .error (.badRequest (fieldLabel ++
    js " must be a valid ISO-3166 alpha-2 country code (got \"" ++ raw ++ js "\")"))

def resolveShipToDestinationIso2 (shipTo : ShipTo) : Except HttpError JsStr :=
  if !(trim (shipTo.countryCode.getD [])).isEmpty then
    requireIso2CountryCode (shipTo.countryCode.getD []) (js "shipTo.countryCode")
  else
    let raw := trim shipTo.country
    if lower raw = js "us" then .ok (js "US")
    else if lower raw = js "ca" then .ok (js "CA")
    else if lower raw = js "intl" then
      .error (.badRequest (js "shipTo.countryCode (ISO-3166 alpha-2) is required for international Partner shipping quotes"))
    else requireIso2CountryCode raw (js "shipTo.country")

/-- The parts of a destination that a quote is pinned under. -/
structure PinDestination where
  country : Option JsStr
  countryCode : Option JsStr
  postal : Option JsStr
  deriving DecidableEq

/-- `dest.countryCode || dest.country || ''` -/
def PinDestination.countryText (dest : PinDestination) : JsStr :=
  if truthy dest.countryCode then dest.countryCode.getD [] else dest.country.getD []

def quotePinKey (tokenIds : List ℕ) (dest : PinDestination) : JsStr :=
  let ids := (tokenIds.dedup.insertionSort (· ≤ ·)).map ofNat
  let country := lower (trim dest.countryText)
  let postal := lower (trim (dest.postal.getD []))
  List.intercalate (js ",") ids ++ js "|" ++ country ++ js "|" ++ postal

/-- The cheaper of the fresh total and the pinned quote. -/
def expectedMicros (fresh : RedeemEstimate) (pinned : Option PinnedQuote) : ℕ :=
  match pinned with
  | some pin => if pin.totalMicros < fresh.totalUsdcMicros then pin.totalMicros
    else fresh.totalUsdcMicros
  | none => fresh.totalUsdcMicros

/-- The estimate the payment matches exactly, or else the dearest one that it covers. -/
def estimateMatchingPayment (fresh : RedeemEstimate) (pinned : Option RedeemEstimate)
    (paidMicros : ℕ) : RedeemEstimate :=
  let candidates := pinned.toList ++ [fresh]
  match candidates.find? (fun e => e.totalUsdcMicros = paidMicros) with
  | some exact => exact
  | none =>
    let affordable := (candidates.filter (fun e => e.totalUsdcMicros ≤ paidMicros)).insertionSort
      (fun a b => b.totalUsdcMicros ≤ a.totalUsdcMicros)
    affordable.headD fresh

end Redeem
