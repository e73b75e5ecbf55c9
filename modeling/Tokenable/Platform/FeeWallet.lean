import Tokenable.Async.Retry
import Tokenable.Platform.Config

/-!
# USDC transfers out of the platform fee wallet

`transferUsdc` of `PlatformFeeWalletService`, with the wallet and the chain that one call meets as an
argument. A call that fails after its transaction was submitted can have moved the USDC.
-/

namespace Platform
open Js Async

/-- What becomes of the transaction that a call submits. -/
inductive Submission where
  /-- It is not submitted, or it reverts. -/
  | refused (e : HttpError)
  /-- It is mined, and the call fails while it waits for the receipt. -/
  | unseen (txHash : JsStr) (e : HttpError)
  | mined (txHash : JsStr)

structure FeeWallet where
  signer : JsStr
  usdcBalance : ℕ
  submission : Submission

/-- The end of a call: only in the last two cases has the USDC moved. -/
inductive Transfer where
  | failed (e : HttpError)
  | skipped (txHash : JsStr)
  | unseen (txHash : JsStr) (e : HttpError)
  | mined (txHash : JsStr)

/-- The transfer itself, from a wallet whose key is the right one. -/
def sendUsdc (env : Env) (w : FeeWallet) (amount chainId : ℕ) : Transfer :=
  match env.getUsdcAddress chainId with
  | .error e => .failed e
  | .ok _ =>
    if w.usdcBalance < amount then
      .failed (.badRequest (js "Platform fee wallet USDC balance too low (have " ++
        ofNat w.usdcBalance ++ js ", need " ++ ofNat amount ++ js ")"))
    else
      match w.submission with
      | .refused e => .failed e
      | .unseen txHash e => .unseen txHash e
      | .mined txHash => .mined txHash

def transferUsdc (env : Env) (w : FeeWallet) (to_ amountMicros : JsStr) (chainId : ℕ) : Transfer :=
  let recipient := lower (trim to_)
  if !isAddress recipient then .failed (.badRequest (js "Invalid payout recipient address"))
  else if !isDigits amountMicros || toNat amountMicros = 0 then
    .failed (.badRequest (js "Invalid USDC payout amount"))
  else
    match env.getConfiguredRecipient with
    | none => .failed (.internal (js "PLATFORM_FEE_RECIPIENT is not configured"))
    | some expected =>
      if !truthy (env.platformFeePrivateKey.map trim) then
        .failed (.internal (js "PLATFORM_FEE_PRIVATE_KEY is not configured"))
      else if w.signer ≠ expected then
        .failed (.internal (js "PLATFORM_FEE_PRIVATE_KEY address (" ++ w.signer ++
          js ") does not match PLATFORM_FEE_RECIPIENT (" ++ expected ++ js ")"))
      else if recipient = w.signer then .skipped (js "skipped-self:" ++ w.signer)
      else sendUsdc env w (toNat amountMicros) chainId

namespace Transfer

def answer : Transfer → Except HttpError JsStr
  | failed e | unseen _ e => .error e
  | skipped txHash | mined txHash => .ok txHash

def moved : Transfer → Option JsStr
  | failed _ | skipped _ => none
  | unseen txHash _ | mined txHash => some txHash

/-- How far an attempt gets that makes `n` more writes, of which the transfer is the first and the
record of it the second. A transfer that is skipped leaves nothing behind. -/
def extent : Transfer → ℕ → Extent
  | failed _, _ | _, 0 => .before
  | skipped _, 1 => .before
  | unseen .., _ + 1 | mined _, 1 => .sent
  | skipped _, n + 2 | mined _, n + 2 => .recorded n

@[simp] theorem extent_zero (t : Transfer) : t.extent 0 = .before := by cases t <;> rfl

/-- A call that has moved nothing never leaves its transfer unrecorded. -/
theorem extent_ne_sent {t : Transfer} (h : t.moved = none) (n : ℕ) : t.extent n ≠ .sent := by
  cases t with
  | failed e => cases n <;> simp [extent]
  | skipped txHash => rcases n with _ | _ | n <;> simp [extent]
  | unseen txHash e => cases h
  | mined txHash => cases h

end Transfer

/-- The fee wallet is not its own creditor. -/
def Env.isFeeWallet (env : Env) (to_ : JsStr) : Bool :=
  env.getConfiguredRecipient = some (lower (trim to_))

theorem sendUsdc_ne_skipped {env : Env} {w : FeeWallet} {amount chainId : ℕ} {txHash : JsStr} :
    sendUsdc env w amount chainId ≠ .skipped txHash := by
  unfold sendUsdc
  cases env.getUsdcAddress chainId with
  | error e => simp
  | ok usdc =>
    dsimp only
    split_ifs with hbalance
    · simp
    · cases w.submission <;> simp

/-- A transfer to the fee wallet itself moves nothing. -/
theorem moved_transferUsdc_self {env : Env} {w : FeeWallet} {to_ amountMicros : JsStr}
    {chainId : ℕ} (h : env.isFeeWallet to_ = true) :
    (transferUsdc env w to_ amountMicros chainId).moved = none := by
  have hexpected : env.getConfiguredRecipient = some (lower (trim to_)) := of_decide_eq_true h
  unfold transferUsdc
  simp only [hexpected]
  split_ifs with haddr hamount hkey hsigner hself
  · rfl
  · rfl
  · rfl
  · rfl
  · rfl
  · exact absurd (not_not.mp hsigner).symm hself

/-- No other transfer is skipped. -/
theorem transferUsdc_ne_skipped {env : Env} {w : FeeWallet} {to_ amountMicros txHash : JsStr}
    {chainId : ℕ} (h : env.isFeeWallet to_ = false) :
    transferUsdc env w to_ amountMicros chainId ≠ .skipped txHash := by
  have hother : env.getConfiguredRecipient ≠ some (lower (trim to_)) := of_decide_eq_false h
  unfold transferUsdc
  cases hexpected : env.getConfiguredRecipient with
  | none => dsimp only; split_ifs <;> simp
  | some expected =>
    dsimp only
    split_ifs with haddr hamount hkey hsigner hself
    · simp
    · simp
    · simp
    · simp
    · rw [hexpected, hself, not_not.mp hsigner] at hother
      exact absurd rfl hother
    · exact sendUsdc_ne_skipped

end Platform
