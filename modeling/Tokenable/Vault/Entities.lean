import Tokenable.Db.Table
import Tokenable.Js.Text

/-!
# Vault cycles and the token registry

A `VaultCycle` is one deposit-to-redemption lifecycle of a card on one chain. An `RwaToken` is
the registry row of one minted NFT, keyed by contract and token id.
-/

namespace Vault
open Js

inductive CycleStatus where
  | pendingDeposit | depositVerified | minting | minted | redemptionRequested | redeemed | cancelled
  deriving DecidableEq

def CycleStatus.text : CycleStatus → JsStr
  | pendingDeposit => js "pending_deposit"
  | depositVerified => js "deposit_verified"
  | minting => js "minting"
  | minted => js "minted"
  | redemptionRequested => js "redemption_requested"
  | redeemed => js "redeemed"
  | cancelled => js "cancelled"

inductive SettlementPolicy where
  | standard | selfVaultHold
  deriving DecidableEq

inductive DeliveryMode where
  | custody | direct
  deriving DecidableEq

/-- The mint intent stored on the cycle before `mint` is sent. -/
structure MintAttempt where
  tokenURI : JsStr
  certNumber : JsStr
  settlementPolicy : SettlementPolicy
  vaultPartnerId : Option JsStr := none
  ownerWallet : JsStr
  deliveryMode : DeliveryMode
  tokenId : Option JsStr := none
  txHash : Option JsStr := none
  deriving DecidableEq

structure VaultCycle where
  id : JsStr
  vaultAssetId : JsStr
  chainId : ℕ
  cycleNumber : ℕ
  status : CycleStatus := .pendingDeposit
  depositedAt : Option ℕ := none
  redeemedAt : Option ℕ := none
  mintAttempt : Option MintAttempt := none
  createdAt : ℕ := 0
  updatedAt : ℕ := 0
  deriving DecidableEq

structure RwaToken where
  tokenContract : JsStr
  tokenId : JsStr
  certNumber : Option JsStr := none
  tokenUri : Option JsStr := none
  vaultCycleId : Option JsStr := none
  burnedAt : Option ℕ := none
  burnTxHash : Option JsStr := none
  mintTxHash : Option JsStr := none
  settlementPolicy : Option SettlementPolicy := none
  vaultPartnerId : Option JsStr := none
  ownerWallet : Option JsStr := none
  vaultRef : Option JsStr := none
  displayName : Option JsStr := none
  metadataCid : Option JsStr := none
  deriving DecidableEq

def normalizeCert (certNumber : JsStr) : JsStr := upper (trim certNumber)

/-- A physical card, identified by its PSA certificate. -/
structure VaultAsset where
  id : JsStr
  externalCertNumber : JsStr
  vaultRef : JsStr := []
  displayName : Option JsStr := none
  deriving DecidableEq

def RwaToken.key (t : RwaToken) : JsStr × JsStr := (t.tokenContract, t.tokenId)

abbrev CycleTable := Db.Table VaultCycle JsStr VaultCycle.id

abbrev TokenTable := Db.Table RwaToken (JsStr × JsStr) RwaToken.key

end Vault
