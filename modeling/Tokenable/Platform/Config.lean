import Mathlib.Data.Rat.Defs
import Mathlib.Algebra.Order.Ring.Rat
import Tokenable.Js.Text

/-!
# Errors and configuration shared by the backend services

The HTTP exceptions the services throw, the chain selection of `ChainConfigService` and the part
of `PlatformFeeWalletService` that reads the environment.
-/

namespace Platform
open Js

inductive HttpError where
  | badRequest (message : JsStr)
  | forbidden (message : JsStr)
  | notFound (message : JsStr)
  | conflict (message : JsStr)
  | unprocessable (message : JsStr)
  | internal (message : JsStr)
  | badGateway (message : JsStr)
  | unavailable (message : JsStr)
  deriving DecidableEq

def HttpError.message : HttpError → JsStr
  | badRequest m | forbidden m | notFound m | conflict m | unprocessable m | internal m
  | badGateway m | unavailable m => m

/-- What the world outside decides at a step: a sent transaction's hash or error, and the time. -/
structure Oracle where
  reply : Except HttpError JsStr := .ok []
  now : ℕ := 0

def supportedChainIds : List ℕ := [1, 11155111, 137]

/-- The environment variables, read as the services read them: a numeric variable is its
`Number(…)`, `none` when unset or not a number, and `rwaAddresses` has the chains whose RPC and
RWA contract are configured. -/
structure Env where
  defaultChainId : Option ℕ := none
  platformFeePrivateKey : Option JsStr := none
  platformFeeRecipient : Option JsStr := none
  selfVaultPlatformFeeBps : Option ℚ := none
  selfVaultAutoPayoutCron : Option JsStr := none
  selfVaultAutoPayoutDelaySeconds : Option ℚ := none
  rwaAddresses : List (ℕ × JsStr) := []
  usdcAddresses : List (ℕ × JsStr) := []
  maxActiveCollectionBidsPerOfferer : ℕ := 0

def Env.getDefaultChainId (env : Env) : ℕ :=
  match env.defaultChainId with
  | some n => if n ∈ supportedChainIds then n else 1
  | none => 1

/-- A row's chain when it is a supported one, the default chain otherwise. -/
def Env.resolveChainId (env : Env) (chainId : Option ℕ) : ℕ :=
  let n := chainId.getD env.getDefaultChainId
  if n ∈ supportedChainIds then n else env.getDefaultChainId

def Env.getConfiguredRecipient (env : Env) : Option JsStr :=
  let raw := lower (trim (env.platformFeeRecipient.getD []))
  if isAddress raw then some raw else none

def Env.isConfigured (env : Env) : Bool :=
  truthy (env.platformFeePrivateKey.map trim) && env.getConfiguredRecipient.isSome

/-- The address configured for a chain, in lower case. -/
def contractAddress (configured : List (ℕ × JsStr)) (label : JsStr) (chainId : ℕ) :
    Except HttpError JsStr :=
  match (configured.find? (fun c => c.1 = chainId)).map (fun c => lower (trim c.2)) with
  | some addr =>
    if isAddress addr then .ok addr
    else .error (.badRequest (label ++ js " contract not configured for chain " ++ ofNat chainId))
  | none => .error (.badRequest (label ++ js " contract not configured for chain " ++ ofNat chainId))

def Env.getRwaAddress (env : Env) (chainId : ℕ) : Except HttpError JsStr :=
  contractAddress env.rwaAddresses (js "RWA") chainId

def Env.getUsdcAddress (env : Env) (chainId : ℕ) : Except HttpError JsStr :=
  contractAddress env.usdcAddresses (js "USDC") chainId

theorem isAddress_of_contractAddress {configured : List (ℕ × JsStr)} {label addr : JsStr}
    {chainId : ℕ} (h : contractAddress configured label chainId = .ok addr) :
    isAddress addr = true := by
  unfold contractAddress at h
  split at h
  · split_ifs at h with haddr
    exact Except.ok.inj h ▸ haddr
  · cases h

/-- The first configured chain whose RWA contract is `tokenContract`. -/
def Env.resolveChainIdFromRwaAddress (env : Env) (tokenContract : JsStr) : Option ℕ :=
  let addr := lower (trim tokenContract)
  if isAddress addr then
    (supportedChainIds.filterMap fun id =>
      (env.rwaAddresses.find? (fun c => c.1 = id)).filter (fun c => lower (trim c.2) = addr)).head?.map
        Prod.fst
  else none

def selfVaultPlatformFeeBpsDefault : ℕ := 500

def Env.readSelfVaultPlatformFeeBps (env : Env) : ℕ :=
  match env.selfVaultPlatformFeeBps with
  | some raw => if raw < 0 then selfVaultPlatformFeeBpsDefault else min raw.floor.toNat 10000
  | none => selfVaultPlatformFeeBpsDefault

def selfVaultAutoPayoutDelaySecondsDefault : ℕ := 300

def Env.autoPayoutDelaySeconds (env : Env) : ℕ :=
  match env.selfVaultAutoPayoutDelaySeconds with
  | some raw => if raw < 0 then selfVaultAutoPayoutDelaySecondsDefault else raw.floor.toNat
  | none => selfVaultAutoPayoutDelaySecondsDefault

theorem Env.readSelfVaultPlatformFeeBps_le (env : Env) : env.readSelfVaultPlatformFeeBps ≤ 10000 := by
  unfold readSelfVaultPlatformFeeBps
  split
  · split_ifs
    · decide
    · exact Nat.min_le_right _ _
  · decide

end Platform
