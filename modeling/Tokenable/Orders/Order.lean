import Tokenable.Db.Table
import Tokenable.Js.Text

/-!
# Orders

A row of the order book: the columns of the `orders` table and the part of the Seaport
parameters JSON that the services read, with the keys (`_settlementAmount`, `_filledByBuyer`, …)
they add to it. The functions are those of `platform-tape.util.ts`.
-/

namespace Orders
open Js

inductive OrderStatus where
  | active | fulfilled | cancelled | expired
  deriving DecidableEq

def OrderStatus.text : OrderStatus → JsStr
  | active => js "active"
  | fulfilled => js "fulfilled"
  | cancelled => js "cancelled"
  | expired => js "expired"

inductive OrderSide where
  | ask | bid
  deriving DecidableEq

/-- A Seaport offer or consideration item; `recipient` is empty in an offer. -/
structure SeaportItem where
  itemType : ℕ
  token : JsStr := []
  identifierOrCriteria : JsStr := []
  startAmount : JsStr := []
  endAmount : JsStr := []
  recipient : JsStr := []
  deriving DecidableEq

/-- The signed parameters, with the ones no service reads in `components`, and the keys that the
services add to them, with the ones no service reads in `marks`. Times are in seconds. -/
structure OrderParameters where
  offer : List SeaportItem := []
  consideration : List SeaportItem := []
  startTime : ℕ := 0
  endTime : ℕ := 0
  components : JsStr := []
  settlementPolicy : Option JsStr := none
  settlementAmount : Option JsStr := none
  filledByBuyer : Option JsStr := none
  tapeFillSide : Option JsStr := none
  matchedBidOrderHash : Option JsStr := none
  matchedAskOrderHash : Option JsStr := none
  fillTxHash : Option JsStr := none
  marks : List (JsStr × JsStr) := []
  deriving DecidableEq

/-- Strip the keys that start with `_`. -/
def seaportHashableParameters (p : OrderParameters) : OrderParameters where
  offer := p.offer
  consideration := p.consideration
  startTime := p.startTime
  endTime := p.endTime
  components := p.components

/-- A row of the book; its times are in milliseconds. -/
structure Order where
  id : ℕ
  orderHash : JsStr
  offerer : JsStr
  side : OrderSide
  tokenContract : JsStr
  tokenId : JsStr
  collectionKey : Option JsStr := none
  considerationAmount : JsStr := []
  parameters : OrderParameters := {}
  status : OrderStatus := .active
  startTime : ℕ := 0
  endTime : ℕ := 0
  createdAt : ℕ := 0
  updatedAt : ℕ := 0
  deriving DecidableEq

abbrev OrderTable := Db.Table Order ℕ Order.id

def isValidDecimalTokenId (raw : JsStr) : Bool := isDigits (trim raw)

def Order.firstOfferType (o : Order) : Option ℕ := o.parameters.offer.head?.map SeaportItem.itemType

def Order.firstConsiderationType (o : Order) : Option ℕ :=
  o.parameters.consideration.head?.map SeaportItem.itemType

/-- A USDC offer for any token of a collection. -/
def isCriteriaCollectionBidOrder (o : Order) : Bool :=
  o.side = .bid && o.firstOfferType = some 1 && o.firstConsiderationType = some 4

/-- A USDC offer for one token. -/
def isTokenBidOrder (o : Order) : Bool :=
  o.side = .bid && o.firstOfferType = some 1 && o.firstConsiderationType = some 2

def resolveFulfilledAskTokenId (o : Order) : Option JsStr :=
  if o.side ≠ .ask then none
  else if isValidDecimalTokenId o.tokenId then some (trim o.tokenId)
  else
    match o.parameters.offer.head? with
    | some item =>
      if item.itemType = 2 ∧ isValidDecimalTokenId item.identifierOrCriteria then
        some (trim item.identifierOrCriteria)
      else none
    | none => none

def backfillAskTokenIdFromParameters (o : Order) : Order :=
  if o.side ≠ .ask ∨ isValidDecimalTokenId o.tokenId then o
  else { o with tokenId := (resolveFulfilledAskTokenId o).getD o.tokenId }

/-- A decimal id without leading zeros; any other text is only trimmed. -/
def normalizeDecimalTokenId (raw : JsStr) : JsStr :=
  let s := trim raw
  if !isDigits s then s
  else
    match s.dropWhile (· = '0') with
    | [] => ['0']
    | t => t

theorem toNat_dropWhile_zero (s : JsStr) : toNat (s.dropWhile (· = '0')) = toNat s := by
  induction s with
  | nil => rfl
  | cons c s ih =>
    by_cases hc : c = '0'
    · have hzero : toNat ('0' :: s) = toNat s := rfl
      rw [hc, hzero, ← ih]
      simp
    · simp [hc]

theorem toNat_normalizeDecimalTokenId {raw : JsStr} (h : isDigits (trim raw) = true) :
    toNat (normalizeDecimalTokenId raw) = toNat (trim raw) := by
  rw [← toNat_dropWhile_zero (trim raw)]
  simp only [normalizeDecimalTokenId, h, Bool.not_true, Bool.false_eq_true, if_false]
  split
  · rename_i hnil
    rw [hnil]
    rfl
  · rfl

theorem isDigits_normalizeDecimalTokenId {raw : JsStr} (h : isDigits (trim raw) = true) :
    isDigits (normalizeDecimalTokenId raw) = true := by
  have hall : ∀ c ∈ trim raw, c.isDigit = true := by
    simp only [isDigits, Bool.and_eq_true, List.all_eq_true] at h
    exact h.2
  simp only [normalizeDecimalTokenId, h, Bool.not_true, Bool.false_eq_true, if_false]
  cases hdrop : (trim raw).dropWhile (· = '0') with
  | nil => rfl
  | cons c t =>
    have hsub : ∀ d ∈ c :: t, d.isDigit = true :=
      fun d hd => hall d ((List.dropWhile_sublist _).subset (hdrop ▸ hd))
    simpa [isDigits] using hsub

theorem toBigInt_normalizeDecimalTokenId {raw : JsStr} (h : isDigits (trim raw) = true) :
    toBigInt (normalizeDecimalTokenId raw) = toBigInt raw := by
  have hdigits := isDigits_normalizeDecimalTokenId h
  have htrim : trim (normalizeDecimalTokenId raw) = normalizeDecimalTokenId raw :=
    trim_of_isDigits hdigits
  rw [toBigInt_of_isDigits h, toBigInt_of_isDigits (by rw [htrim]; exact hdigits), htrim,
    toNat_normalizeDecimalTokenId h]

/-- Two decimal ids have one normal form if and only if they are the same number. -/
theorem normalizeDecimalTokenId_eq_iff {a b : JsStr} (ha : isDigits (trim a) = true)
    (hb : isDigits (trim b) = true) :
    normalizeDecimalTokenId a = normalizeDecimalTokenId b ↔ toNat (trim a) = toNat (trim b) := by
  constructor
  · intro h
    rw [← toNat_normalizeDecimalTokenId ha, ← toNat_normalizeDecimalTokenId hb, h]
  · intro h
    have hdigits : ∀ s : JsStr, isDigits s = true →
        ∀ c ∈ s.dropWhile (· = '0'), c.isDigit = true := by
      intro s hs c hc
      simp only [isDigits, Bool.and_eq_true, List.all_eq_true] at hs
      exact hs.2 c ((List.dropWhile_sublist _).subset hc)
    have hhead : ∀ s : JsStr, (s.dropWhile (· = '0')).head? ≠ some '0' := by
      intro s hs
      have hfalse := List.head?_dropWhile_not (· = '0') s
      rw [hs] at hfalse
      simp at hfalse
    have heq : (trim a).dropWhile (· = '0') = (trim b).dropWhile (· = '0') := by
      apply eq_of_toNat_eq (hdigits _ ha) (hdigits _ hb) (hhead _) (hhead _)
      rw [toNat_dropWhile_zero, toNat_dropWhile_zero, h]
    simp only [normalizeDecimalTokenId, ha, hb, heq, Bool.not_true, Bool.false_eq_true, if_false]

theorem normalizeDecimalTokenId_idem (raw : JsStr) :
    normalizeDecimalTokenId (normalizeDecimalTokenId raw) = normalizeDecimalTokenId raw := by
  cases hs : isDigits (trim raw) with
  | false => simp [normalizeDecimalTokenId, trim_trim, hs]
  | true =>
    cases ht : (trim raw).dropWhile (· = '0') with
    | nil =>
      have hzero : normalizeDecimalTokenId raw = ['0'] := by simp [normalizeDecimalTokenId, hs, ht]
      rw [hzero]
      decide
    | cons c t =>
      have hcons : normalizeDecimalTokenId raw = c :: t := by simp [normalizeDecimalTokenId, hs, ht]
      have hdigits : isDigits (c :: t) = true := hcons ▸ isDigits_normalizeDecimalTokenId hs
      have hdrop : (c :: t).dropWhile (· = '0') = c :: t := ht ▸ List.dropWhile_idempotent _ _
      rw [hcons]
      simp [normalizeDecimalTokenId, trim_of_isDigits hdigits, hdigits, hdrop]

end Orders
