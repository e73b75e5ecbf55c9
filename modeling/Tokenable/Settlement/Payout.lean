import Tokenable.Async.Mutex
import Tokenable.Settlement.Ledger

/-!
# Confirming, rejecting and paying settlements

The operations of `SelfVaultSettlementService` on stored settlements. `executePayout` sends the
USDC inside the payout lock of the settlement; the other operations load a row, change it and
save it with no lock.
-/

namespace Settlement
open Js Platform Async

abbrev SettlementTable := Db.Table SelfVaultSettlement ℕ SelfVaultSettlement.id

structure Payout where
  settlementId : ℕ
  to_ : JsStr
  amountMicros : JsStr
  chainId : ℕ
  txHash : JsStr
  deriving DecidableEq

structure PayoutStore where
  settlements : SettlementTable
  payouts : List Payout

inductive PayoutCmd where
  | findOne (id : ℕ)
  | findDue (dueBefore : ℕ)
  | save (row : SelfVaultSettlement)
  | transferUsdc (settlementId : ℕ) (to_ amountMicros : JsStr) (chainId : ℕ)
  | now

abbrev PayoutRes : PayoutCmd → Type
  | .findOne _ => Option SelfVaultSettlement
  | .findDue _ => List SelfVaultSettlement
  | .save _ => Unit
  | .transferUsdc .. => Except HttpError JsStr
  | .now => ℕ

def SettlementStatus.isOpen : SettlementStatus → Bool
  | pendingConfirm | confirmed => true
  | paid | rejected => false

def PayoutStore.save (s : PayoutStore) (row : SelfVaultSettlement) : PayoutStore :=
  { s with settlements := s.settlements.save row }

def PayoutStore.addPayout (s : PayoutStore) (p : Payout) : PayoutStore :=
  { s with payouts := s.payouts ++ [p] }

def cronTake : ℕ := 20

def PayoutStore.due (s : PayoutStore) (dueBefore : ℕ) : List SelfVaultSettlement :=
  ((s.settlements.find fun r => r.status.isOpen && r.createdAt ≤ dueBefore).insertionSort
    fun a b => a.createdAt ≤ b.createdAt).take cronTake

def payoutExec : Handler PayoutStore Oracle PayoutCmd PayoutRes
  | _, s, _, .findOne id => some (s.settlements.get id, s)
  | _, s, _, .findDue dueBefore => some (s.due dueBefore, s)
  | _, s, _, .save row => some ((), s.save row)
  | _, s, x, .transferUsdc settlementId to_ amountMicros chainId =>
    match x.reply with
    | .ok txHash =>
      some (.ok txHash, s.addPayout ⟨settlementId, to_, amountMicros, chainId, txHash⟩)
    | .error e => some (.error e, s)
  | _, s, x, .now => some (x.now, s)

/-- Async code of the service: its lock is keyed by the settlement id. -/
abbrev PayoutM := LProg ℕ PayoutRes HttpError

def payoutPerform (c : PayoutCmd) : PayoutM (PayoutRes c) :=
  .call (.inr c) (fun r => .ret (.ok r))

def findSettlement (id : ℕ) : PayoutM (Option SelfVaultSettlement) := payoutPerform (.findOne id)

def saveSettlement (row : SelfVaultSettlement) : PayoutM SelfVaultSettlement := do
  payoutPerform (.save row)
  pure row

def payoutNow : PayoutM ℕ := payoutPerform .now

def transferPayout (row : SelfVaultSettlement) : PayoutM JsStr := do
  let sent ← (payoutPerform (.transferUsdc row.id row.sellerWallet row.sellerPayoutUsdc row.chainId) :
    PayoutM (Except HttpError JsStr))
  Prog.ret sent

def loadSettlement (id : ℕ) : PayoutM SelfVaultSettlement := do
  let found ← findSettlement id
  Prog.orThrow (.notFound (js "Settlement not found")) found

def alreadyClosed (status : SettlementStatus) : HttpError :=
  .badRequest (js "Settlement is already " ++ status.text)

def confirmRow (row : SelfVaultSettlement) : PayoutM SelfVaultSettlement := do
  let at_ ← payoutNow
  saveSettlement { row with status := .confirmed, confirmedAt := some at_ }

def confirmByBuyer (id : ℕ) (buyerWallet : JsStr) : PayoutM SelfVaultSettlement := do
  let row ← loadSettlement id
  Prog.throwIf (row.buyerWallet ≠ lower (trim buyerWallet))
    (.forbidden (js "Only the buyer can confirm this settlement"))
  Prog.throwIf (!row.status.isOpen) (alreadyClosed row.status)
  if row.status = .confirmed then pure row else confirmRow row

def adminConfirm (id : ℕ) : PayoutM SelfVaultSettlement := do
  let row ← loadSettlement id
  Prog.throwIf (!row.status.isOpen) (alreadyClosed row.status)
  if row.status = .confirmed then saveSettlement row else confirmRow row

def adminReject (id : ℕ) : PayoutM SelfVaultSettlement := do
  let row ← loadSettlement id
  Prog.throwIf (row.status = .paid) (.badRequest (js "Settlement is already paid"))
  saveSettlement { row with status := .rejected }

def markPaid (row : SelfVaultSettlement) (txHash : JsStr) : PayoutM SelfVaultSettlement := do
  let at_ ← payoutNow
  saveSettlement { row with status := .paid, payoutTxHash := some txHash, paidAt := some at_ }

def recordPayout (id : ℕ) (payoutTxHash : JsStr) : PayoutM SelfVaultSettlement := do
  Prog.throwIf (!isTxHash (trim payoutTxHash))
    (.badRequest (js "payoutTxHash must be a 0x-prefixed tx hash"))
  let row ← loadSettlement id
  Prog.throwIf (row.status = .rejected) (.badRequest (js "Settlement was rejected"))
  Prog.throwIf (row.status = .pendingConfirm)
    (.badRequest (js "Settlement must be confirmed before payout"))
  if row.status = .paid then pure row else markPaid row (trim payoutTxHash)

def feeKeyMissing : HttpError := .badRequest (js
  "PLATFORM_FEE_PRIVATE_KEY is not configured — set it in backend .env (must match PLATFORM_FEE_RECIPIENT)")

/-- The transfer of `executePayout` and the save that follows it. -/
def payRow (row : SelfVaultSettlement) : PayoutM SelfVaultSettlement := do
  let txHash ← transferPayout row
  markPaid row txHash

/-- The section of `executePayout` that runs inside the payout lock. -/
def payoutSection (env : Env) (id : ℕ) : PayoutM SelfVaultSettlement := do
  let row ← loadSettlement id
  if row.status = .paid then pure row
  else do
    Prog.throwIf (row.status = .rejected) (.badRequest (js "Settlement was rejected"))
    Prog.throwIf (!env.isConfigured) feeKeyMissing
    let row ← (if row.status = .pendingConfirm then confirmRow row else pure row)
    payRow row

def executePayout (env : Env) (id : ℕ) : PayoutM SelfVaultSettlement :=
  withLock id (payoutSection env id)

/-- The loop of the cron: a failed payout is logged and the next one is tried. -/
def payDue (env : Env) : List SelfVaultSettlement → PayoutM Unit
  | [] => pure ()
  | row :: rows => do
    Prog.swallow (executePayout env row.id)
    payDue env rows

def autoPayoutCron (env : Env) : PayoutM Unit :=
  if env.selfVaultAutoPayoutCron = some (js "0") ∨ !env.isConfigured then pure ()
  else do
    let now ← payoutNow
    let due ← (payoutPerform (.findDue (now - env.autoPayoutDelaySeconds * 1000)) :
      PayoutM (List SelfVaultSettlement))
    payDue env due

inductive PayoutCall where
  | confirmByBuyer (id : ℕ) (buyerWallet : JsStr)
  | adminConfirm (id : ℕ)
  | adminReject (id : ℕ)
  | recordPayout (id : ℕ) (payoutTxHash : JsStr)
  | executePayout (id : ℕ)
  | autoPayoutCron

abbrev PayoutTask := LProg ℕ PayoutRes Empty Unit

def PayoutCall.task (env : Env) : PayoutCall → PayoutTask
  | confirmByBuyer id buyerWallet => (Settlement.confirmByBuyer id buyerWallet).swallow
  | adminConfirm id => (Settlement.adminConfirm id).swallow
  | adminReject id => (Settlement.adminReject id).swallow
  | recordPayout id payoutTxHash => (Settlement.recordPayout id payoutTxHash).swallow
  | executePayout id => (Settlement.executePayout env id).swallow
  | autoPayoutCron => (Settlement.autoPayoutCron env).swallow

end Settlement
