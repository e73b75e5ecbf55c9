import Mathlib.Data.List.Sort
import Tokenable.Orders.Order
import Tokenable.Platform.Config
import Tokenable.Vault.Entities

/-!
# The self-vault settlement ledger

A settlement says what the platform owes the seller of a fulfilled ask whose USDC went to the fee
wallet. `createFromFulfilledAsk` is the only function that creates one; the live fill path
(`maybeCreateSelfVaultSettlement`) and the repair path (`backfillMissingFromFulfilledAsks`) call
it behind different tests.
-/

namespace Settlement
open Js Platform Vault Orders

inductive SettlementStatus where
  | pendingConfirm | confirmed | paid | rejected
  deriving DecidableEq

def SettlementStatus.text : SettlementStatus → JsStr
  | pendingConfirm => js "pending_confirm"
  | confirmed => js "confirmed"
  | paid => js "paid"
  | rejected => js "rejected"

structure SelfVaultSettlement where
  id : ℕ
  orderHash : JsStr
  tokenContract : JsStr := []
  tokenId : JsStr := []
  sellerWallet : JsStr
  buyerWallet : JsStr
  grossUsdc : JsStr
  sellerPayoutUsdc : JsStr
  chainId : ℕ
  status : SettlementStatus := .pendingConfirm
  fulfillTxHash : Option JsStr := none
  payoutTxHash : Option JsStr := none
  confirmedAt : Option ℕ := none
  paidAt : Option ℕ := none
  createdAt : ℕ := 0
  deriving DecidableEq

inductive CostBasisSource where
  | manual | vaultDelivery | marketplaceBuy
  deriving DecidableEq

structure PortfolioHolding where
  walletAddress : JsStr
  tokenContract : JsStr
  tokenId : ℕ
  costBasisSource : Option CostBasisSource := none
  costBasisUsd : Option ℚ := none
  acquiredAt : ℕ := 0
  updatedAt : ℕ := 0
  deriving DecidableEq

/-- The order hashes are those `seaportOrderHashFromParameters` computes: distinct and without
surrounding blanks. -/
structure OrderBook where
  rows : List Order
  distinct : (rows.map Order.orderHash).Nodup
  hashes : ∀ o ∈ rows, o.orderHash ≠ [] ∧ trim o.orderHash = o.orderHash

structure Ledger where
  orders : OrderBook
  tokens : List RwaToken
  holdings : List PortfolioHolding
  settlements : List SelfVaultSettlement

def Ledger.settlementOf (db : Ledger) (orderHash : JsStr) : Option SelfVaultSettlement :=
  db.settlements.find? (fun s => s.orderHash = orderHash)

def feeRecipient (env : Env) : JsStr := lower (trim (env.platformFeeRecipient.getD []))

/-- The consideration is one ERC-20 line to the platform fee recipient. -/
def isFullPlatformTakeAsk (env : Env) (ask : Order) : Bool :=
  match ask.parameters.consideration with
  | [only] => !(feeRecipient env).isEmpty && only.itemType = 1 &&
      lower (trim only.recipient) = feeRecipient env
  | _ => false

def isPositiveMicros (s : JsStr) : Bool := isDigits s && 0 < toNat s

def resolveGrossMicros (ask : Order) : JsStr :=
  let fromTape := trim (ask.parameters.settlementAmount.getD [])
  let fromRow := trim ask.considerationAmount
  let fromCons := trim ((ask.parameters.consideration.head?.map SeaportItem.startAmount).getD [])
  if isPositiveMicros fromTape then fromTape
  else if isPositiveMicros fromRow then fromRow
  else if isPositiveMicros fromCons then fromCons
  else js "0"

def computeSellerPayoutMicros (env : Env) (grossMicros : JsStr) : JsStr :=
  let gross := toNat grossMicros
  ofNat (gross - gross * env.readSelfVaultPlatformFeeBps / 10000)

structure FilledAsk where
  ask : Order
  buyerWallet : JsStr
  chainId : ℕ
  fulfillTxHash : Option JsStr := none

def FilledAsk.settlement (env : Env) (p : FilledAsk) (id : ℕ) : SelfVaultSettlement where
  id := id
  orderHash := trim p.ask.orderHash
  tokenContract := lower p.ask.tokenContract
  tokenId := trim p.ask.tokenId
  sellerWallet := lower p.ask.offerer
  buyerWallet := lower (trim p.buyerWallet)
  grossUsdc := resolveGrossMicros p.ask
  sellerPayoutUsdc := computeSellerPayoutMicros env (resolveGrossMicros p.ask)
  chainId := p.chainId
  fulfillTxHash := (p.fulfillTxHash.map trim).filter (fun h => !h.isEmpty)

def Ledger.insert (db : Ledger) (row : SelfVaultSettlement) : Ledger :=
  { db with settlements := db.settlements ++ [row] }

/-- The settlement of the ask, found or created, and the ledger after the call. -/
def createFromFulfilledAsk (env : Env) (p : FilledAsk) (db : Ledger) :
    Option SelfVaultSettlement × Ledger :=
  let orderHash := trim p.ask.orderHash
  if orderHash.isEmpty then (none, db)
  else
    match db.settlementOf orderHash with
    | some existing => (some existing, db)
    | none =>
      if !isAddress (lower (trim p.buyerWallet)) then (none, db)
      else if !isPositiveMicros (resolveGrossMicros p.ask) then (none, db)
      else
        let row := p.settlement env db.settlements.length
        (some row, db.insert row)

def FilledAsk.accepted (p : FilledAsk) : Bool :=
  isAddress (lower (trim p.buyerWallet)) && isPositiveMicros (resolveGrossMicros p.ask)

theorem createFromFulfilledAsk_of_settled {env : Env} {p : FilledAsk} {db : Ledger}
    {row : SelfVaultSettlement} (hhash : trim p.ask.orderHash ≠ [])
    (h : db.settlementOf (trim p.ask.orderHash) = some row) :
    createFromFulfilledAsk env p db = (some row, db) := by
  simp [createFromFulfilledAsk, hhash, h]

theorem createFromFulfilledAsk_of_unsettled {env : Env} {p : FilledAsk} {db : Ledger}
    (hhash : trim p.ask.orderHash ≠ []) (h : db.settlementOf (trim p.ask.orderHash) = none) :
    createFromFulfilledAsk env p db =
      if p.accepted then
        (some (p.settlement env db.settlements.length),
          db.insert (p.settlement env db.settlements.length))
      else (none, db) := by
  cases hbuyer : isAddress (lower (trim p.buyerWallet)) <;>
    cases hgross : isPositiveMicros (resolveGrossMicros p.ask) <;>
      simp [createFromFulfilledAsk, FilledAsk.accepted, hhash, h, hbuyer, hgross]

theorem settlementOf_insert (db : Ledger) (row : SelfVaultSettlement) (hash : JsStr) :
    (db.insert row).settlementOf hash =
      (db.settlementOf hash).or (if row.orderHash = hash then some row else none) := by
  simp only [Ledger.settlementOf, Ledger.insert, List.find?_append, List.find?_singleton,
    decide_eq_true_eq]

end Settlement
