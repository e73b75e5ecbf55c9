import Tokenable.Redeem.PaidRows
import Tokenable.Vault.Registry

/-!
# What the check before a payment promises

`assertTokensRedeemable` looks at the tokens before the user pays, and `createPaidRedemptionBatch`
inserts their redemptions after that. The check lets a token pass whose cycle belongs to another card,
as one that can be redeemed; the insertion takes that cycle, and refuses the batch.
-/

namespace Redeem
open Js Platform Async Db Vault Orders Backend
open Cycles (TxTables inTransaction rejectsCycle clash isOpen)

section Claim

def registry (t : Tables) (h : (t.tokens.map RwaToken.key).Nodup) : Registry where
  tokens := ⟨t.tokens, h⟩
  cycles := t.cycles
  assets := t.assets

def Redeems (tokenContract : JsStr) (tokenIds : List JsStr) (params : PaidBatch) : Prop :=
  params.items.map (fun item => (item.tokenContract, item.tokenId)) =
    tokenIds.map fun tokenId => (tokenContract, tokenId)

theorem Redeems.pairwise {tokenContract : JsStr} {tokenIds : List JsStr} {params : PaidBatch}
    (h : Redeems tokenContract tokenIds params) (hset : (tokenIds.map normalizeDecimalTokenId).Nodup) :
    params.items.Pairwise fun a b => ¬ SameToken a b := by
  have hids : params.items.map (fun item => normalizeDecimalTokenId item.tokenId) =
      tokenIds.map normalizeDecimalTokenId := by
    have hmap := congrArg (List.map fun key => normalizeDecimalTokenId key.2) h
    rw [List.map_map, List.map_map] at hmap
    exact hmap
  rw [← hids, List.Nodup, List.pairwise_map] at hset
  exact hset.imp fun hne hsame => hne hsame.2

theorem Redeems.items_eq_nil {tokenContract : JsStr} {tokenIds : List JsStr} {params : PaidBatch}
    (h : Redeems tokenContract tokenIds params) : params.items = [] ↔ tokenIds = [] := by
  rw [← List.map_eq_nil_iff, h, List.map_eq_nil_iff]

def psaToken (cycleId : JsStr) : RwaToken where
  tokenContract := js "0xcc"
  tokenId := js "7"
  certNumber := some (js "111")
  vaultCycleId := some cycleId

/-- A token whose cycle belongs to the card `asset` and has the status. -/
def linkedTables (cert : JsStr) (status : CycleStatus) : Tables where
  orders := Table.empty
  tokens := [psaToken (js "c")]
  holdings := []
  settlements := []
  assets := [{ id := js "a", externalCertNumber := cert, vaultRef := cert }]
  cycles := ⟨[{ id := js "c", vaultAssetId := js "a", chainId := 1, cycleNumber := 1, status := status }],
    List.nodup_singleton _⟩
  claims := Table.empty
  redemptions := Table.empty

def paymentOfSeven : PaidBatch where
  paymentTxHash := js "0x01"
  paymentBatchId := js "b"
  paymentReceivedUsdcMicros := js "5000000"
  chainId := 1
  items := [⟨js "0xcc", js "7", js "0xaa"⟩]

instance (vaultRef : JsStr → JsStr) (s : TxTables) (x : World) (c : BackendCmd) :
    Decidable (Fresh vaultRef s x c) := by
  unfold Fresh
  split <;> infer_instance

/-- The outside of the examples draws the id `r`. -/
def drawsR : World
  | .uuid => js "r"
  | .computeVaultRef cert => cert
  | q => idleWorld q

theorem keys_linkedTables (cert : JsStr) (status : CycleStatus) :
    ((linkedTables cert status).tokens.map RwaToken.key).Nodup := List.nodup_singleton _

theorem indexed_linkedTables (cert : JsStr) (status : CycleStatus) : Indexed id (linkedTables cert status) where
  assetIds := List.nodup_singleton _
  assetRefs a ha := by
    rw [List.mem_singleton.mp ha]
    rfl
  cycles c hc := by
    rw [List.mem_singleton.mp hc]
    simp [rejectsCycle, linkedTables, clash]

theorem freshPayment_linkedTables (cert : JsStr) (status : CycleStatus) :
    FreshPayment (linkedTables cert status) paymentOfSeven where
  hash := by decide
  batch := by decide
  unclaimed := rfl
  unfunded _ hc := nomatch hc

end Claim

end Redeem
