import Tokenable.Async.Prog
import Tokenable.Platform.Config

/-!
# Thrown values and the rate-limit retry loop

`isRpcRateLimitError` classifies whatever an RPC call threw by its code or its text.
`withRpcRateLimitRetry` runs a closure again, up to `maxRetries` times, while it throws errors of
that kind. The closure is any async function: nothing here knows which of its steps can be
repeated.
-/

namespace Chain
open Js Platform Async

inductive ErrorCode where
  | number (n : Int)
  | text (s : JsStr)
  | other
  deriving DecidableEq

/-- A thrown object. `http` is the exception itself when it is a Nest `HttpException`. -/
structure ErrorObject where
  code : Option ErrorCode := none
  message : Option JsStr := none
  shortMessage : Option JsStr := none
  reason : Option JsStr := none
  infoCode : Option ErrorCode := none
  infoMessage : Option JsStr := none
  http : Option HttpError := none
  deriving DecidableEq

/-- A thrown value: `undefined` or `null`, another primitive with its `String(err)`, or an object. -/
inductive Thrown where
  | nullish (text : JsStr)
  | primitive (text : JsStr)
  | object (e : ErrorObject)
  deriving DecidableEq

def Thrown.ofHttp (e : HttpError) : Thrown := .object { message := some e.message, http := some e }

/-- `/429|rate limit|compute units per second|too many requests/i.test(text)` -/
def rateLimitText (text : JsStr) : Bool :=
  containsCI (js "429") text || containsCI (js "rate limit") text ||
    containsCI (js "compute units per second") text || containsCI (js "too many requests") text

def isRpcRateLimitError : Thrown → Bool
  | .nullish text | .primitive text => rateLimitText text
  | .object e =>
    let code := e.infoCode <|> e.code
    if code = some (.number 429) ∨ code = some (.text (js "429")) then true
    else rateLimitText (e.message.getD [] ++ js " " ++ e.shortMessage.getD [] ++ js " " ++
      e.infoMessage.getD [])

def defaultMaxRetries : ℕ := 6

def waitMs (attempt : ℕ) : ℕ := min 30000 (400 * 2 ^ (attempt - 1))

section Retry
variable {C : Type} {R : C → Type} {α : Type}

/-- Attempt `attempt` of the loop, with `left` attempts in all still to make. -/
def retryFrom (sleep : ℕ → Prog C R Thrown Unit) (fn : Prog C R Thrown α) :
    ℕ → ℕ → Prog C R Thrown α
  | 0, _ => .ret (.error (.nullish (js "undefined")))
  | left + 1, attempt => fn.settle fun
    | .ok a => .ret (.ok a)
    | .error err =>
      if !isRpcRateLimitError err || left = 0 then .ret (.error err)
      else (sleep (waitMs attempt)).settle fun _ => retryFrom sleep fn left (attempt + 1)

def withRpcRateLimitRetry (sleep : ℕ → Prog C R Thrown Unit) (fn : Prog C R Thrown α)
    (maxRetries : ℕ) : Prog C R Thrown α := retryFrom sleep fn maxRetries 1

end Retry

/-- How many of at most `n` attempts act, when attempt `k` acts if `acts k` and is followed by
another one if `again k`. -/
def actsIn : (acts again : ℕ → Bool) → ℕ → ℕ
  | _, _, 0 => 0
  | acts, again, n + 1 =>
    (acts 0).toNat +
      if again 0 then actsIn (fun k => acts (k + 1)) (fun k => again (k + 1)) n else 0

theorem actsIn_eq_zero_iff (acts again : ℕ → Bool) (n : ℕ) :
    actsIn acts again n = 0 ↔ ∀ j < n, (∀ m < j, again m) → ¬ acts j := by
  induction n generalizing acts again with
  | zero => simp [actsIn]
  | succ n ih =>
    simp only [Nat.forall_lt_succ_left']
    cases hagain : again 0 with
    | false => simp [actsIn, hagain]
    | true => simp [actsIn, hagain, ih]

/-- At most one attempt acts if and only if no two of the attempts that are made do. -/
theorem actsIn_le_one_iff (acts again : ℕ → Bool) (n : ℕ) :
    actsIn acts again n ≤ 1 ↔ ∀ j < n, (∀ m < j, again m) → acts j → ∀ i < j, ¬ acts i := by
  induction n generalizing acts again with
  | zero => simp [actsIn]
  | succ n ih =>
    simp only [Nat.forall_lt_succ_left']
    cases hagain : again 0 with
    | false =>
      have hle : (acts 0).toNat ≤ 1 := Bool.toNat_le (acts 0)
      simp [actsIn, hagain, hle]
    | true =>
      cases hacts : acts 0 with
      | false => simp [actsIn, hagain, hacts, ih]
      | true =>
        have hrest : actsIn acts again (n + 1) ≤ 1 ↔
            actsIn (fun k => acts (k + 1)) (fun k => again (k + 1)) n = 0 := by
          simp only [actsIn, hagain, hacts, Bool.toNat_true, if_true]
          omega
        rw [hrest, actsIn_eq_zero_iff]
        simp

end Chain
