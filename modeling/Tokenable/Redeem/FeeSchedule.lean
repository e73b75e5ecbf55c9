import Mathlib.Data.Rat.Floor
import Mathlib.Algebra.BigOperators.Group.List.Lemmas
import Mathlib.Tactic.Linarith
import Mathlib.Tactic.Ring
import Tokenable.Js.OrderedMap
import Tokenable.Redeem.Quote
import Tokenable.Vault.Entities

/-!
# The published fee schedule and the rounding of amounts

Amounts in USD are exact rationals, rounded to cents by `roundUsd`. An amount of whole cents is not
changed by rounding, so sums of such amounts are exact.
-/

namespace Redeem.Fee
open Js Platform Vault

inductive RedeemCountry where
  | us | ca | intl
  deriving DecidableEq

def RedeemCountry.text : RedeemCountry → JsStr
  | us => js "us"
  | ca => js "ca"
  | intl => js "intl"

/-- `Math.round`: halves go up. -/
def mathRound (x : ℚ) : ℤ := ⌊x + 1 / 2⌋

def roundUsd (n : ℚ) : ℚ := mathRound (n * 100) / 100

def usdToUsdcMicros (usd : ℚ) : ℤ := mathRound (roundUsd usd * 1000000)

def WholeCents (x : ℚ) : Prop := ∃ cents : ℤ, x = cents / 100

section Rounding

variable {x y : ℚ}

theorem mathRound_intCast (n : ℤ) : mathRound (n : ℚ) = n := by
  unfold mathRound
  rw [Int.floor_intCast_add]
  norm_num

theorem wholeCents_roundUsd (x : ℚ) : WholeCents (roundUsd x) := ⟨mathRound (x * 100), rfl⟩

theorem WholeCents.roundUsd_eq (h : WholeCents x) : roundUsd x = x := by
  obtain ⟨cents, rfl⟩ := h
  have hcents : (cents : ℚ) / 100 * 100 = cents := by ring
  unfold roundUsd
  rw [hcents, mathRound_intCast]

theorem wholeCents_zero : WholeCents 0 := ⟨0, by norm_num⟩

theorem WholeCents.add (hx : WholeCents x) (hy : WholeCents y) : WholeCents (x + y) := by
  obtain ⟨m, rfl⟩ := hx
  obtain ⟨n, rfl⟩ := hy
  refine ⟨m + n, ?_⟩
  push_cast
  ring

theorem wholeCents_sum {xs : List ℚ} (h : ∀ x ∈ xs, WholeCents x) : WholeCents xs.sum := by
  induction xs with
  | nil => exact wholeCents_zero
  | cons x xs ih =>
      rw [List.sum_cons]
      apply WholeCents.add
      · exact h x List.mem_cons_self
      · exact ih fun y hy => h y (List.mem_cons_of_mem x hy)

/-- A cent is ten thousand micros. -/
theorem WholeCents.usdToUsdcMicros_eq (cents : ℤ) :
    usdToUsdcMicros ((cents : ℚ) / 100) = 10 ^ 4 * cents := by
  have hround : roundUsd ((cents : ℚ) / 100) = cents / 100 := WholeCents.roundUsd_eq ⟨cents, rfl⟩
  have hmicros : (cents : ℚ) / 100 * 1000000 = ((10 ^ 4 * cents : ℤ) : ℚ) := by
    push_cast
    ring
  unfold usdToUsdcMicros
  rw [hround, hmicros, mathRound_intCast]

end Rounding

structure PsaVaultFeeConfig where
  shipping : RedeemCountry → ℚ
  retrievalUsd : ℚ
  earlyUsd : ℚ
  earlyDays : ℕ
  maxItems : ℕ

/-- The variables that override the published schedule, each read by `Number(…)`: `none` when it is
unset, empty or not a finite number. -/
structure PsaVaultFeeEnv where
  withdrawFeeUsd : Option ℚ := none
  retrievalFeeUsd : Option ℚ := none
  shippingUsUsd : Option ℚ := none
  shippingCaUsd : Option ℚ := none
  shippingIntlUsd : Option ℚ := none
  earlyWithdrawalFeeUsd : Option ℚ := none
  earlyWithdrawalDays : Option ℚ := none
  maxItemsPerShipment : Option ℚ := none

def envNum (raw : Option ℚ) (fallback : ℚ) : ℚ :=
  match raw with
  | some n => if 0 ≤ n then n else fallback
  | none => fallback

def defaultShippingUsd : RedeemCountry → ℚ
  | .us => 599 / 100
  | .ca => 2499 / 100
  | .intl => 3199 / 100

def defaultRetrievalFeeUsd : ℚ := 199 / 100

def defaultEarlyFeeUsd : ℚ := 499 / 100

def defaultEarlyDays : ℚ := 90

def defaultMaxItems : ℚ := 50

def retrievalFee (env : PsaVaultFeeEnv) : ℚ :=
  match env.retrievalFeeUsd with
  | some _ => envNum env.retrievalFeeUsd defaultRetrievalFeeUsd
  | none => if env.withdrawFeeUsd = some (199 / 100) then 199 / 100 else defaultRetrievalFeeUsd

def loadPsaVaultFeeConfig (env : PsaVaultFeeEnv) : PsaVaultFeeConfig where
  shipping
    | .us => envNum env.shippingUsUsd (defaultShippingUsd .us)
    | .ca => envNum env.shippingCaUsd (defaultShippingUsd .ca)
    | .intl => envNum env.shippingIntlUsd (defaultShippingUsd .intl)
  retrievalUsd := retrievalFee env
  earlyUsd := envNum env.earlyWithdrawalFeeUsd defaultEarlyFeeUsd
  earlyDays := ⌊envNum env.earlyWithdrawalDays defaultEarlyDays⌋.toNat
  maxItems := ⌊envNum env.maxItemsPerShipment defaultMaxItems⌋.toNat

structure PsaVaultFeeConfig.WholeCents (cfg : PsaVaultFeeConfig) : Prop where
  shipping : ∀ country, Fee.WholeCents (cfg.shipping country)
  retrieval : Fee.WholeCents cfg.retrievalUsd
  early : Fee.WholeCents cfg.earlyUsd

theorem wholeCents_envNum {raw : Option ℚ} {fallback : ℚ} (hraw : ∀ n ∈ raw, WholeCents n)
    (hfallback : WholeCents fallback) : WholeCents (envNum raw fallback) := by
  cases raw with
  | none => exact hfallback
  | some n =>
      by_cases hn : 0 ≤ n
      · simpa [envNum, hn] using hraw n rfl
      · simpa [envNum, hn] using hfallback

/-- Every default is an amount of whole cents, so the configuration is one as soon as the variables
that are set are. -/
theorem wholeCents_loadPsaVaultFeeConfig {env : PsaVaultFeeEnv}
    (h : ∀ raw ∈ [env.retrievalFeeUsd, env.shippingUsUsd, env.shippingCaUsd, env.shippingIntlUsd,
      env.earlyWithdrawalFeeUsd], ∀ n ∈ raw, WholeCents n) :
    (loadPsaVaultFeeConfig env).WholeCents := by
  have hretrieval : WholeCents defaultRetrievalFeeUsd := ⟨199, rfl⟩
  refine ⟨fun country => ?_, ?_, ?_⟩
  · cases country with
    | us => exact wholeCents_envNum (h _ (by simp)) ⟨599, rfl⟩
    | ca => exact wholeCents_envNum (h _ (by simp)) ⟨2499, rfl⟩
    | intl => exact wholeCents_envNum (h _ (by simp)) ⟨3199, rfl⟩
  · change WholeCents (retrievalFee env)
    unfold retrievalFee
    cases hraw : env.retrievalFeeUsd with
    | some n =>
        have hfee := wholeCents_envNum (h env.retrievalFeeUsd (by simp)) hretrieval
        rw [hraw] at hfee
        exact hfee
    | none =>
        change WholeCents (if env.withdrawFeeUsd = some (199 / 100) then 199 / 100 else _)
        split_ifs
        · exact ⟨199, rfl⟩
        · exact hretrieval
  · exact wholeCents_envNum (h _ (by simp)) ⟨499, rfl⟩

/-- A card without a deposit date counts as withdrawn early. -/
def isPsaEarlyWithdrawal (depositedAt : Option ℕ) (earlyDays now : ℕ) : Bool :=
  match depositedAt with
  | none => true
  | some at_ => decide ((now : ℤ) - at_ < earlyDays * 24 * 60 * 60 * 1000)

def psaShippingUsd (cfg : PsaVaultFeeConfig) (country : RedeemCountry) : ℚ := cfg.shipping country

structure PsaCardFees where
  earlyWithdrawal : Bool
  retrievalUsd : ℚ
  earlyWithdrawalUsd : ℚ
  shippingUsd : ℚ
  totalUsd : ℚ

def psaCardFees (cfg : PsaVaultFeeConfig) (country : RedeemCountry) (vaultedAt : Option ℕ)
    (isFirstInShipment : Bool) (now : ℕ) : PsaCardFees :=
  let early := isPsaEarlyWithdrawal vaultedAt cfg.earlyDays now
  let retrievalUsd := cfg.retrievalUsd
  let earlyWithdrawalUsd := if early then cfg.earlyUsd else 0
  let shippingUsd := if isFirstInShipment then psaShippingUsd cfg country else 0
  ⟨early, retrievalUsd, earlyWithdrawalUsd, shippingUsd,
    roundUsd (retrievalUsd + earlyWithdrawalUsd + shippingUsd)⟩

end Redeem.Fee
