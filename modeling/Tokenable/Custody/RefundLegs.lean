import Mathlib.Data.List.Dedup
import Tokenable.Custody.Intake
import Tokenable.Custody.RefundRuns
import Tokenable.Redeem.RefundWrites

/-!
# The two legs of a refund

A card is refunded in two legs, its USDC and, if its NFT is in custody, its NFT. `AfterLegs` says
what the legs that have been made leave of a row, hashes and times apart, and that it does not
depend on their order. `Legs` says so of the tables and the chain after any refunds of a batch.
-/

namespace Custody
open Js Platform Async Vault Redeem

inductive BatchRefund where
  | refundUsdcBatch
  | returnNft (id : JsStr)
  | refundFullBatch
  deriving DecidableEq

def BatchRefund.task (cfg : Config) (batchId : JsStr) : BatchRefund → M Unit
  | .refundUsdcBatch => (admin (Redeem.refundUsdcBatch cfg.env batchId)).discard
  | .returnNft id => (admin (Redeem.returnNft cfg.env id)).discard
  | .refundFullBatch => (admin (Redeem.refundFullBatch cfg.env batchId)).discard

/-- A call names its batch, or a card of it. -/
def BatchRefund.Concerns (s : Store) (batchId : JsStr) : BatchRefund → Prop
  | .returnNft id => ∃ r ∈ s.db.batch batchId, r.id = id
  | _ => True

instance (s : Store) (batchId : JsStr) (call : BatchRefund) : Decidable (call.Concerns s batchId) := by
  unfold BatchRefund.Concerns
  split <;> infer_instance

/-- A card that is not refunded, its NFT confirmed in custody or not. -/
def Unrefunded (r : VaultRedemption) : Prop :=
  r.refundStatus = .none ∧ r.custodyReturnedAt = none ∧ truthy r.custodyReturnTxHash = false ∧
    (r.status = .inCustody ∨
      r.status = .ownershipVerified ∧ r.custodyAt = none ∧ truthy r.custodyTxHash = false)

instance (r : VaultRedemption) : Decidable (Unrefunded r) := by unfold Unrefunded; infer_instance

def bare (r : VaultRedemption) : VaultRedemption :=
  { r with
    refundTxHash := none, refundedAt := none, custodyReturnTxHash := none, custodyReturnedAt := none }

/-- Both legs of a card have been made; a card that is not in custody has only one. -/
def closedBy (usdc nft : Bool) (r : VaultRedemption) : Bool := usdc && (nft || r.status ≠ .inCustody)

theorem closedBy_false (nft : Bool) (r : VaultRedemption) : closedBy false nft r = false := rfl

def refundStatusAfter (usdc nft : Bool) (r : VaultRedemption) : RefundStatus :=
  if closedBy usdc nft r then .fullyRefunded
  else if usdc then .usdcRefunded
  else if nft then .nftReturned
  else .none

def afterLegs (amountMicros : JsStr) (usdc nft : Bool) (r : VaultRedemption) : VaultRedemption :=
  { bare r with
    refundedUsdcMicros := if usdc then some amountMicros else r.refundedUsdcMicros
    refundStatus := refundStatusAfter usdc nft r
    status := if closedBy usdc nft r then .refunded else r.status }

/-- The row `r'` is the card `r` after some of its legs. -/
structure AfterLegs (amountMicros : JsStr) (usdc nft : Bool) (r r' : VaultRedemption) : Prop where
  bare_eq : bare r' = afterLegs amountMicros usdc nft r
  returnedAt : r'.custodyReturnedAt.isSome = nft
  returnTxHash : truthy r'.custodyReturnTxHash = nft

/-- What no refund changes of a card. -/
structure SameCard (r r' : VaultRedemption) : Prop where
  id : r'.id = r.id
  vaultCycleId : r'.vaultCycleId = r.vaultCycleId
  ownerWalletAddress : r'.ownerWalletAddress = r.ownerWalletAddress
  requestedAt : r'.requestedAt = r.requestedAt
  paymentBatchId : r'.paymentBatchId = r.paymentBatchId
  chainId : r'.chainId = r.chainId
  paymentReceivedUsdcMicros : r'.paymentReceivedUsdcMicros = r.paymentReceivedUsdcMicros

theorem SameCard.refl (r : VaultRedemption) : SameCard r r := ⟨rfl, rfl, rfl, rfl, rfl, rfl, rfl⟩

section Rows
variable {amountMicros txHash : JsStr} {usdc nft : Bool} {at_ : ℕ} {r r' : VaultRedemption}

theorem AfterLegs.start (hr : Unrefunded r) : AfterLegs amountMicros false false r r := by
  obtain ⟨hrefund, hreturned, htx, -⟩ := hr
  refine ⟨?_, by rw [hreturned]; rfl, htx⟩
  simp [bare, afterLegs, refundStatusAfter, closedBy, hrefund]

theorem AfterLegs.sameCard (h : AfterLegs amountMicros usdc nft r r') : SameCard r r' where
  id := (congrArg VaultRedemption.id h.bare_eq :)
  vaultCycleId := (congrArg VaultRedemption.vaultCycleId h.bare_eq :)
  ownerWalletAddress := (congrArg VaultRedemption.ownerWalletAddress h.bare_eq :)
  requestedAt := (congrArg VaultRedemption.requestedAt h.bare_eq :)
  paymentBatchId := (congrArg VaultRedemption.paymentBatchId h.bare_eq :)
  chainId := (congrArg VaultRedemption.chainId h.bare_eq :)
  paymentReceivedUsdcMicros := (congrArg VaultRedemption.paymentReceivedUsdcMicros h.bare_eq :)

theorem AfterLegs.refundStatus (h : AfterLegs amountMicros usdc nft r r') :
    r'.refundStatus = refundStatusAfter usdc nft r := congrArg VaultRedemption.refundStatus h.bare_eq

theorem AfterLegs.status (h : AfterLegs amountMicros usdc nft r r') :
    r'.status = if closedBy usdc nft r then .refunded else r.status :=
  congrArg VaultRedemption.status h.bare_eq

theorem AfterLegs.usdcRefunded (h : AfterLegs amountMicros usdc nft r r') :
    r'.usdcRefunded = usdc := by
  unfold VaultRedemption.usdcRefunded
  rw [h.refundStatus]
  unfold refundStatusAfter closedBy
  cases usdc with
  | false => cases nft <;> rfl
  | true =>
    cases hclosed : (nft || decide (r.status ≠ .inCustody)) <;> rfl

/-- Before the USDC leg, the columns of a row tell whether its NFT has been sent back. -/
theorem AfterLegs.nftReturned (h : AfterLegs amountMicros false nft r r') : r'.nftReturned = nft := by
  unfold VaultRedemption.nftReturned
  rw [h.returnedAt, h.returnTxHash, h.refundStatus]
  cases nft <;> rfl

/-- No refund puts an NFT into custody. -/
theorem AfterLegs.inCustody (hr : Unrefunded r) (h : AfterLegs amountMicros usdc nft r r')
    (hever : r'.wasEverInCustody = true) : r.status = .inCustody := by
  obtain hcustody | ⟨hverified, hnever, htx⟩ := hr.2.2.2
  · exact hcustody
  · have hat : r'.custodyAt = none :=
      (congrArg VaultRedemption.custodyAt h.bare_eq).trans hnever
    have htx' : truthy r'.custodyTxHash = false :=
      (congrArg (fun x => truthy (VaultRedemption.custodyTxHash x)) h.bare_eq).trans htx
    have hstatus : r'.status ≠ .inCustody := by
      rw [h.status]
      split_ifs
      · exact RedemptionStatus.noConfusion
      · rw [hverified]
        exact RedemptionStatus.noConfusion
    unfold VaultRedemption.wasEverInCustody at hever
    rw [hat, htx', decide_eq_false hstatus] at hever
    cases hever

theorem AfterLegs.wasEverInCustody (hr : Unrefunded r) (h : AfterLegs amountMicros false nft r r') :
    r'.wasEverInCustody = decide (r.status = .inCustody) := by
  by_cases hcustody : r.status = .inCustody
  · have hstatus : r'.status = .inCustody := h.status.trans hcustody
    unfold VaultRedemption.wasEverInCustody
    rw [hstatus, hcustody, Bool.or_eq_true_iff.mpr (.inr (decide_eq_true rfl)), decide_eq_true rfl]
  · rw [decide_eq_false hcustody]
    by_contra hever
    exact hcustody (h.inCustody hr (Bool.not_eq_false _ ▸ hever))

theorem AfterLegs.refundUsdc (hr : Unrefunded r) (h : AfterLegs amountMicros false nft r r') :
    AfterLegs amountMicros true nft r (r'.applyUsdcRefundFields txHash amountMicros at_) := by
  have hcloses : (r'.nftReturned || !r'.wasEverInCustody) = closedBy true nft r := by
    rw [h.nftReturned, h.wasEverInCustody hr]
    simp [closedBy]
  have hfields : bare (r'.applyUsdcRefundFields txHash amountMicros at_) =
      if closedBy true nft r then
        { bare r' with
          refundedUsdcMicros := some amountMicros, refundStatus := .fullyRefunded, status := .refunded }
      else
        { bare r' with refundedUsdcMicros := some amountMicros, refundStatus := .usdcRefunded } := by
    rw [← hcloses]
    exact apply_ite bare _ _ _
  refine ⟨?_, ?_, ?_⟩
  · rw [hfields, h.bare_eq]
    cases hclosed : closedBy true nft r <;> simp [afterLegs, refundStatusAfter, hclosed, closedBy_false]
  · rw [← h.returnedAt]
    unfold VaultRedemption.applyUsdcRefundFields
    dsimp only
    split_ifs <;> rfl
  · rw [← h.returnTxHash]
    unfold VaultRedemption.applyUsdcRefundFields
    dsimp only
    split_ifs <;> rfl

theorem AfterLegs.returnNft (hcustody : r.status = .inCustody) (htx : truthy (some txHash) = true)
    (h : AfterLegs amountMicros usdc false r r') :
    AfterLegs amountMicros usdc true r (r'.applyNftReturnFields txHash at_) := by
  have hfields : bare (r'.applyNftReturnFields txHash at_) =
      if usdc then { bare r' with refundStatus := .fullyRefunded, status := .refunded }
      else { bare r' with refundStatus := .nftReturned } := by
    rw [← h.usdcRefunded]
    exact apply_ite bare _ _ _
  refine ⟨?_, ?_, ?_⟩
  · rw [hfields, h.bare_eq]
    cases usdc <;> simp [afterLegs, refundStatusAfter, closedBy, hcustody]
  · unfold VaultRedemption.applyNftReturnFields
    dsimp only
    split_ifs <;> rfl
  · unfold VaultRedemption.applyNftReturnFields
    dsimp only
    split_ifs <;> exact htx

end Rows

def refundMicros (s : Redeem.Store) (batchId : JsStr) : JsStr := trim ((s.receivedMicros batchId).getD [])

/-- The transfer that returns the NFT of a card, without its transaction. -/
def Store.returnOf (cfg : Config) (s : Store) (r : VaultRedemption) : Option CustodyReturn :=
  ((s.returnedToken r).bind toNumber).map fun tokenId =>
    ⟨tokenId, r.ownerWalletAddress, cfg.env.resolveChainId r.chainId, []⟩

def Store.returned (s : Store) : List CustodyReturn :=
  s.db.custodyReturns.map fun c => { c with txHash := [] }

/-- The one transfer that pays a batch back. -/
def Store.usdcLeg (cfg : Config) (s : Store) (batchId : JsStr) : List (JsStr × JsStr × JsStr × ℕ) :=
  (s.db.batch batchId).head?.toList.map fun first =>
    (batchId, first.ownerWalletAddress, refundMicros s.db batchId, cfg.env.resolveChainId first.chainId)

def reopened (c : VaultCycle) : VaultCycle :=
  if c.status = .redemptionRequested then resetTo c else c

/-- The owners of the NFTs after the cards `back` have been returned. Of two cards with one NFT, the
first one returned must have gone to the custody wallet itself. -/
structure OwnersAfter (cfg : Config) (s : Store) (back : List VaultRedemption) (t : Store) : Prop where
  kept : ∀ nft, (∀ r ∈ back, ∀ c ∈ s.returnOf cfg r, (c.chainId, c.tokenId) ≠ nft) →
    t.owner nft = s.owner nft
  handedBack : ∀ r ∈ back, ∀ c ∈ s.returnOf cfg r, lower (trim c.to_) ≠ cfg.custodyWallet c.chainId →
    t.owner (c.chainId, c.tokenId) = some (lower (trim c.to_))
  held : ∀ r ∈ back, ∀ c ∈ s.returnOf cfg r,
    (∀ r' ∈ back, ∀ c' ∈ s.returnOf cfg r', (c'.chainId, c'.tokenId) = (c.chainId, c.tokenId) →
      lower (trim c'.to_) = cfg.custodyWallet c'.chainId) →
    t.owner (c.chainId, c.tokenId) = some (cfg.custodyWallet c.chainId)

/-- The store `t` after refunds of a batch from `s`: `usdc` tells whether the USDC leg has been made,
`back` are the cards whose NFT has been sent back. -/
structure Legs (cfg : Config) (batchId : JsStr) (s : Store) (usdc : Bool) (back : List VaultRedemption)
    (t : Store) : Prop where
  rows : ∃ f, t.db.redemptions.rows = s.db.redemptions.rows.map f ∧
    (∀ r ∈ s.db.redemptions.rows, r.inBatch batchId = false → f r = r) ∧
    ∀ r ∈ s.db.batch batchId,
      AfterLegs (refundMicros s.db batchId) usdc (decide (r ∈ back)) r (f r)
  nodup : back.Nodup
  back_mem : ∀ r ∈ back, r ∈ s.db.batch batchId ∧ r.status = .inCustody
  claims : t.db.claims = s.db.claims
  tokens : t.db.tokens = s.db.tokens
  assets : t.assets = s.assets
  cycles : ∀ id, t.db.cycles.get id = (s.db.cycles.get id).map fun c =>
    if ∃ r ∈ s.db.batch batchId, r.vaultCycleId = id ∧ closedBy usdc (decide (r ∈ back)) r = true
    then reopened c else c
  sent : t.db.sent = s.db.sent ++ if usdc then s.usdcLeg cfg batchId else []
  nonempty : usdc = true → s.db.batch batchId ≠ []
  returned : ∃ L, t.returned = s.returned ++ L ∧ L.map some = back.map (s.returnOf cfg)
  owners : OwnersAfter cfg s back t

section Stores
variable {cfg : Config} {batchId : JsStr} {s t : Store} {usdc : Bool} {back : List VaultRedemption}

theorem Legs.start (hs : ∀ r ∈ s.db.batch batchId, Unrefunded r) : Legs cfg batchId s false [] s where
  rows := by
    refine ⟨id, (List.map_id _).symm, fun _ _ _ => rfl, fun r hr => ?_⟩
    exact AfterLegs.start (hs r hr)
  nodup := List.nodup_nil
  back_mem := fun r hr => by cases hr
  claims := rfl
  tokens := rfl
  assets := rfl
  cycles := fun id => by
    have hnone : ¬ ∃ r ∈ s.db.batch batchId, r.vaultCycleId = id ∧
        closedBy false (decide (r ∈ ([] : List VaultRedemption))) r = true := by
      rintro ⟨r, -, -, hclosed⟩
      cases hclosed
    simp only [if_neg hnone]
    exact (Option.map_id_fun' ▸ rfl)
  sent := (List.append_nil _).symm
  nonempty := fun husdc => by cases husdc
  returned := ⟨[], (List.append_nil _).symm, rfl⟩
  owners := ⟨fun _ _ => rfl, (fun r hr => by cases hr), fun r hr => by cases hr⟩

/-- The rows are the cards that they were, each with the legs that have been made. -/
theorem Legs.cards (h : Legs cfg batchId s usdc back t) :
    ∃ f, t.db.redemptions.rows = s.db.redemptions.rows.map f ∧
      (∀ r ∈ s.db.redemptions.rows, SameCard r (f r)) ∧
      (∀ r ∈ s.db.redemptions.rows, r.inBatch batchId = false → f r = r) ∧
      ∀ r ∈ s.db.batch batchId,
        AfterLegs (refundMicros s.db batchId) usdc (decide (r ∈ back)) r (f r) := by
  obtain ⟨f, hrows, hother, hbatch⟩ := h.rows
  refine ⟨f, hrows, fun r hr => ?_, hother, hbatch⟩
  cases hin : r.inBatch batchId with
  | true => exact (hbatch r (mem_batch.mpr ⟨hr, hin⟩)).sameCard
  | false =>
    rw [hother r hr hin]
    exact SameCard.refl r

/-- The rows of a batch stay in their order. -/
theorem batch_eq_map {s t : Redeem.Store} {f : VaultRedemption → VaultRedemption}
    (hrows : t.redemptions.rows = s.redemptions.rows.map f)
    (hf : ∀ r ∈ s.redemptions.rows, SameCard r (f r)) (batchId : JsStr) :
    t.batch batchId = (s.batch batchId).map f := by
  have hfind : t.redemptions.find (VaultRedemption.inBatch batchId) =
      (s.redemptions.find (VaultRedemption.inBatch batchId)).map f := by
    unfold Db.Table.find
    rw [hrows, List.filter_map]
    congr 1
    refine List.filter_congr fun r hr => ?_
    rw [Function.comp_apply, VaultRedemption.inBatch, VaultRedemption.inBatch, (hf r hr).paymentBatchId]
  unfold Redeem.Store.batch VaultRedemption.oldestFirst
  rw [hfind]
  refine (List.map_insertionSort _ _ _ _ fun a ha b hb => ?_).symm
  rw [(hf a (Db.Table.mem_find.mp ha).1).requestedAt, (hf b (Db.Table.mem_find.mp hb).1).requestedAt]

/-- No refund changes what has been paid. -/
theorem Legs.receivedMicros (h : Legs cfg batchId s usdc back t) (b : JsStr) :
    t.db.receivedMicros b = s.db.receivedMicros b := by
  obtain ⟨f, hrows, hf, -, -⟩ := h.cards
  have hhead : ((t.db.batch (trim b)).head?.bind VaultRedemption.paymentReceivedUsdcMicros) =
      (s.db.batch (trim b)).head?.bind VaultRedemption.paymentReceivedUsdcMicros := by
    rw [batch_eq_map hrows hf, List.head?_map]
    cases hfirst : (s.db.batch (trim b)).head? with
    | none => rfl
    | some r =>
      have hmem : r ∈ s.db.redemptions.rows := (mem_batch.mp (List.mem_of_head? hfirst)).1
      exact (hf r hmem).paymentReceivedUsdcMicros
  unfold Redeem.Store.receivedMicros
  rw [h.claims, hhead]

theorem OwnersAfter.congr {t' : Store} (h : OwnersAfter cfg s back t) (howner : t'.owner = t.owner) :
    OwnersAfter cfg s back t' where
  kept := fun nft hnft => (congrFun howner nft).trans (h.kept nft hnft)
  handedBack := fun r hr c hc hto => (congrFun howner _).trans (h.handedBack r hr c hc hto)
  held := fun r hr c hc hall => (congrFun howner _).trans (h.held r hr c hc hall)

/-- The cycles of the refunded rows are minted again, if they were in redemption. -/
theorem get_reset (v : Logged) (rows : List VaultRedemption) (id : JsStr) :
    (v.reset rows).store.db.cycles.get id = (v.store.db.cycles.get id).map fun c =>
      if ∃ r ∈ rows, r.vaultCycleId = id ∧ r.status = .refunded then reopened c else c := by
  obtain ⟨ids, hids⟩ : ∃ ids, ids =
      ((rows.filter fun r => r.status = .refunded).map VaultRedemption.vaultCycleId).dedup := ⟨_, rfl⟩
  have hmem : id ∈ ids ↔ ∃ r ∈ rows, r.vaultCycleId = id ∧ r.status = .refunded := by
    rw [hids, List.mem_dedup]
    simp only [List.mem_map, List.mem_filter, decide_eq_true_eq]
    constructor
    · rintro ⟨r, ⟨hr, hstatus⟩, hcycle⟩
      exact ⟨r, hr, hcycle, hstatus⟩
    · rintro ⟨r, hr, hcycle, hstatus⟩
      exact ⟨r, ⟨hr, hstatus⟩, hcycle⟩
  have hreset : (v.reset rows).store.db.cycles.get id =
      (((v.store.db.requestedCycles ids).find? fun c => c.id = id).map resetTo).or
        (v.store.db.cycles.get id) := by
    have htake := get_resetAll v.store.db ids (v.store.db.requestedCycles ids).length id
    rw [List.take_length] at htake
    rw [← htake, hids]
    rfl
  rw [hreset]
  cases hfind : (v.store.db.requestedCycles ids).find? fun c => c.id = id with
  | some c =>
    obtain ⟨hfound, hrequested⟩ := List.mem_filter.mp (List.mem_of_find?_eq_some hfind)
    obtain ⟨hrow, hin⟩ := Db.Table.mem_find.mp hfound
    have hid : c.id = id := by simpa using List.find?_some hfind
    have hstored : v.store.db.cycles.get id = some c := hid ▸ Db.Table.get_of_mem hrow
    have hclosed := hmem.mp (hid ▸ of_decide_eq_true hin)
    rw [hstored, Option.map_some, Option.map_some, if_pos hclosed, reopened,
      if_pos (of_decide_eq_true hrequested)]
    rfl
  | none =>
    rw [Option.map_none, Option.none_or]
    cases hstored : v.store.db.cycles.get id with
    | none => rfl
    | some c =>
      rw [Option.map_some]
      by_cases hclosed : ∃ r ∈ rows, r.vaultCycleId = id ∧ r.status = .refunded
      · have hnot : c.status ≠ .redemptionRequested := by
          intro hrequested
          have hid : c.id = id := Db.Table.get_key hstored
          have hfound : c ∈ v.store.db.requestedCycles ids := by
            refine List.mem_filter.mpr ⟨Db.Table.mem_find.mpr ⟨Db.Table.mem_of_get hstored, ?_⟩, ?_⟩
            · exact decide_eq_true (hid.symm ▸ hmem.mpr hclosed)
            · exact decide_eq_true hrequested
          exact List.find?_eq_none.mp hfind c hfound (decide_eq_true hid)
        rw [if_pos hclosed, reopened, if_neg hnot]
      · rw [if_neg hclosed]

/-- A refund closes no card that it leaves open. -/
theorem AfterLegs.status_eq_refunded {amountMicros : JsStr} {nft : Bool} {r r' : VaultRedemption}
    (hr : Unrefunded r) (h : AfterLegs amountMicros usdc nft r r') :
    r'.status = .refunded ↔ closedBy usdc nft r = true := by
  rw [h.status]
  constructor
  · intro hrefunded
    by_contra hopen
    rw [if_neg hopen] at hrefunded
    obtain hcustody | ⟨hverified, -⟩ := hr.2.2.2
    · cases hrefunded.symm.trans hcustody
    · cases hrefunded.symm.trans hverified
  · intro hclosed
    exact if_pos hclosed

variable (hs : ∀ r ∈ s.db.batch batchId, Unrefunded r)
include hs

/-- The USDC leg. -/
theorem Legs.refundUsdc {v w : Store} (txHash : JsStr) (at_ : ℕ) (h : Legs cfg batchId s false back v)
    (hrows : w.db.redemptions = v.db.redemptions.saveAll ((v.db.batch batchId).map fun r =>
      r.applyUsdcRefundFields txHash (refundMicros s.db batchId) at_))
    (hcycles : ∀ id, w.db.cycles.get id = (v.db.cycles.get id).map fun c =>
      if ∃ r ∈ (v.db.batch batchId).map fun r =>
          r.applyUsdcRefundFields txHash (refundMicros s.db batchId) at_,
        r.vaultCycleId = id ∧ r.status = .refunded then reopened c else c)
    (hclaims : w.db.claims = v.db.claims) (htokens : w.db.tokens = v.db.tokens)
    (hassets : w.assets = v.assets) (howner : w.owner = v.owner)
    (hsent : w.db.sent = v.db.sent ++ s.usdcLeg cfg batchId) (hne : s.db.batch batchId ≠ [])
    (hreturned : w.returned = v.returned) :
    Legs cfg batchId s true back w := by
  obtain ⟨f, hf, hsame, hother, hbatch⟩ := h.cards
  obtain ⟨g, hg⟩ : ∃ g : VaultRedemption → VaultRedemption, g = fun r =>
      r.applyUsdcRefundFields txHash (refundMicros s.db batchId) at_ := ⟨_, rfl⟩
  rw [← hg] at hrows hcycles
  have hbatchMap : v.db.batch batchId = (s.db.batch batchId).map f := batch_eq_map hf hsame batchId
  have hafter : ∀ r ∈ s.db.batch batchId,
      AfterLegs (refundMicros s.db batchId) true (decide (r ∈ back)) r (g (f r)) := by
    intro r hr
    rw [hg]
    exact (hbatch r hr).refundUsdc (hs r hr)
  have hin : ∀ r ∈ s.db.redemptions.rows,
      (f r).id ∈ (v.db.batch batchId).map VaultRedemption.id ↔ r.inBatch batchId = true := by
    intro r hr
    constructor
    · intro hmem
      obtain ⟨y, hy, hid⟩ := List.mem_map.mp hmem
      rw [hbatchMap] at hy
      obtain ⟨z, hz, rfl⟩ := List.mem_map.mp hy
      obtain ⟨hzrow, hzin⟩ := mem_batch.mp hz
      have hsameId : z.id = r.id := (hsame z hzrow).id.symm.trans (hid.trans (hsame r hr).id)
      exact Db.Table.key_inj hzrow hr hsameId ▸ hzin
    · intro hrin
      rw [hbatchMap]
      exact List.mem_map_of_mem (List.mem_map_of_mem (mem_batch.mpr ⟨hr, hrin⟩))
  refine ⟨⟨fun r => if r.inBatch batchId then g (f r) else f r, ?_, fun r hr hout => ?_, fun r hr => ?_⟩,
    h.nodup, h.back_mem, hclaims.trans h.claims, htokens.trans h.tokens, hassets.trans h.assets,
    fun id => ?_, ?_, fun _ => hne, ?_, h.owners.congr howner⟩
  · have hgid : ∀ r, (g r).id = r.id := fun r => by
      rw [hg]
      exact VaultRedemption.id_applyUsdcRefundFields r _ _ _
    rw [hrows, Db.Table.rows_saveAll_map hgid (fun r hr => (mem_batch.mp hr).1)
      (batch_distinct v.db batchId), hf, List.map_map]
    refine List.map_congr_left fun r hr => ?_
    rw [Function.comp_apply]
    by_cases hrin : r.inBatch batchId = true
    · rw [if_pos ((hin r hr).mpr hrin), if_pos hrin]
    · rw [if_neg fun hmem => hrin ((hin r hr).mp hmem), if_neg hrin]
  · exact (if_neg (Bool.eq_false_iff.mp hout)).trans (hother r hr hout)
  · dsimp only
    rw [if_pos (mem_batch.mp hr).2]
    exact hafter r hr
  · have hold := h.cycles id
    have hnone : ¬ ∃ r ∈ s.db.batch batchId, r.vaultCycleId = id ∧
        closedBy false (decide (r ∈ back)) r = true := by
      rintro ⟨r, -, -, hclosed⟩
      cases hclosed
    simp only [if_neg hnone, Option.map_id'] at hold
    have hiff : (∃ r ∈ (v.db.batch batchId).map g, r.vaultCycleId = id ∧ r.status = .refunded) ↔
        ∃ r ∈ s.db.batch batchId, r.vaultCycleId = id ∧ closedBy true (decide (r ∈ back)) r = true := by
      rw [hbatchMap, List.map_map]
      constructor
      · rintro ⟨y, hy, hcycle, hstatus⟩
        obtain ⟨r, hr, rfl⟩ := List.mem_map.mp hy
        have hr' := hafter r hr
        exact ⟨r, hr, hr'.sameCard.vaultCycleId.symm.trans hcycle,
          (hr'.status_eq_refunded (hs r hr)).mp hstatus⟩
      · rintro ⟨r, hr, hcycle, hclosed⟩
        have hr' := hafter r hr
        exact ⟨g (f r), List.mem_map_of_mem hr, hr'.sameCard.vaultCycleId.trans hcycle,
          (hr'.status_eq_refunded (hs r hr)).mpr hclosed⟩
    rw [hcycles, hold]
    simp only [hiff]
  · rw [hsent, h.sent, if_neg Bool.false_ne_true, List.append_nil, if_pos rfl]
  · obtain ⟨L, hL, hLback⟩ := h.returned
    exact ⟨L, hreturned.trans hL, hLback⟩

omit hs in
theorem reopened_reopened (c : VaultCycle) : reopened (reopened c) = reopened c := by
  by_cases hrequested : c.status = .redemptionRequested
  · rw [reopened, reopened, if_pos hrequested]
    rfl
  · rw [reopened, reopened, if_neg hrequested, if_neg hrequested]

omit hs in
/-- One more NFT goes back, which custody has owned till then. -/
theorem OwnersAfter.sendBack {v w : Store} {r : VaultRedemption} {c : CustodyReturn}
    (h : OwnersAfter cfg s back v) (hc : s.returnOf cfg r = some c)
    (hheld : v.owner (c.chainId, c.tokenId) = some (cfg.custodyWallet c.chainId))
    (howner : w.owner = Function.update v.owner (c.chainId, c.tokenId) (some (lower (trim c.to_)))) :
    OwnersAfter cfg s (back ++ [r]) w := by
  have hlast : r ∈ back ++ [r] := List.mem_append_right _ (List.mem_singleton_self r)
  refine ⟨fun nft hnft => ?_, fun r' hr' c' hc' hto => ?_, fun r' hr' c' hc' hall => ?_⟩
  · have hne : nft ≠ (c.chainId, c.tokenId) := (hnft r hlast c hc).symm
    rw [howner, Function.update_of_ne hne]
    exact h.kept nft fun r' hr' c' hc' => hnft r' (List.mem_append_left _ hr') c' hc'
  · by_cases hsame : (c'.chainId, c'.tokenId) = (c.chainId, c.tokenId)
    · rcases List.mem_append.mp hr' with hold | hnew
      · have hgone := h.handedBack r' hold c' hc' hto
        rw [hsame, hheld, ← (Prod.mk.inj hsame).1] at hgone
        exact absurd (Option.some.inj hgone).symm hto
      · obtain rfl := List.mem_singleton.mp hnew
        obtain rfl := Option.some.inj (hc.symm.trans hc')
        rw [howner, Function.update_self]
    · rcases List.mem_append.mp hr' with hold | hnew
      · rw [howner, Function.update_of_ne hsame]
        exact h.handedBack r' hold c' hc' hto
      · obtain rfl := List.mem_singleton.mp hnew
        obtain rfl := Option.some.inj (hc.symm.trans hc')
        exact absurd rfl hsame
  · by_cases hsame : (c'.chainId, c'.tokenId) = (c.chainId, c.tokenId)
    · rw [howner, hsame, Function.update_self, hall r hlast c hc hsame.symm, (Prod.mk.inj hsame).1]
    · rcases List.mem_append.mp hr' with hold | hnew
      · rw [howner, Function.update_of_ne hsame]
        exact h.held r' hold c' hc' fun r'' hr'' c'' hc'' => hall r'' (List.mem_append_left _ hr'') c'' hc''
      · obtain rfl := List.mem_singleton.mp hnew
        obtain rfl := Option.some.inj (hc.symm.trans hc')
        exact absurd rfl hsame

/-- The NFT leg of one card. -/
theorem Legs.sendBack {v w : Store} {r row : VaultRedemption} {tokenId : ℕ} {txHash : JsStr} (at_ : ℕ)
    (h : Legs cfg batchId s usdc back v) (hr : r ∈ s.db.batch batchId) (hcustody : r.status = .inCustody)
    (hnew : r ∉ back) (hrow : v.db.redemptions.get r.id = some row)
    (htoken : (v.returnedToken row).bind toNumber = some tokenId)
    (hheld : v.owner (cfg.env.resolveChainId row.chainId, tokenId) =
      some (cfg.custodyWallet (cfg.env.resolveChainId row.chainId)))
    (htx : truthy (some txHash) = true)
    (hrows : w.db.redemptions = v.db.redemptions.saveAll [row.applyNftReturnFields txHash at_])
    (hcycles : ∀ id, w.db.cycles.get id = (v.db.cycles.get id).map fun c =>
      if ∃ r ∈ [row.applyNftReturnFields txHash at_],
        r.vaultCycleId = id ∧ r.status = .refunded then reopened c else c)
    (hclaims : w.db.claims = v.db.claims) (htokens : w.db.tokens = v.db.tokens)
    (hassets : w.assets = v.assets) (hsent : w.db.sent = v.db.sent)
    (hreturned : w.returned = v.returned ++
      [⟨tokenId, row.ownerWalletAddress, cfg.env.resolveChainId row.chainId, []⟩])
    (howner : w.owner = Function.update v.owner (cfg.env.resolveChainId row.chainId, tokenId)
      (some (lower (trim row.ownerWalletAddress)))) :
    Legs cfg batchId s usdc (back ++ [r]) w := by
  obtain ⟨f, hf, hsame, hother, hbatch⟩ := h.cards
  have hmem : r ∈ s.db.redemptions.rows := (mem_batch.mp hr).1
  obtain rfl : row = f r := by
    have hget := Db.Table.get_of_rows_eq_map hf (fun x hx => (hsame x hx).id) r.id
    rw [Db.Table.get_of_mem hmem, hrow] at hget
    exact Option.some.inj hget
  obtain ⟨g, hg⟩ : ∃ g : VaultRedemption → VaultRedemption,
      g = fun x => x.applyNftReturnFields txHash at_ := ⟨_, rfl⟩
  have hgid : ∀ x, (g x).id = x.id := fun x => by
    rw [hg]
    exact VaultRedemption.id_applyNftReturnFields x _ _
  have hbefore : AfterLegs (refundMicros s.db batchId) usdc false r (f r) := by
    have hr' := hbatch r hr
    rwa [decide_eq_false hnew] at hr'
  have hafter : AfterLegs (refundMicros s.db batchId) usdc true r (g (f r)) := by
    rw [hg]
    exact hbefore.returnNft hcustody htx
  have hlast : r ∈ back ++ [r] := List.mem_append_right _ (List.mem_singleton_self r)
  have hmore : ∀ x, x ≠ r → (x ∈ back ++ [r] ↔ x ∈ back) := by
    intro x hx
    rw [List.mem_append, List.mem_singleton]
    exact ⟨fun hor => hor.resolve_right hx, Or.inl⟩
  have hleg : s.returnOf cfg r = some
      ⟨tokenId, (f r).ownerWalletAddress, cfg.env.resolveChainId (f r).chainId, []⟩ := by
    have htoken' : (s.returnedToken r).bind toNumber = some tokenId := by
      rw [← htoken]
      unfold Store.returnedToken
      rw [h.tokens, (hsame r hmem).vaultCycleId]
    unfold Store.returnOf
    rw [htoken', (hsame r hmem).ownerWalletAddress, (hsame r hmem).chainId]
    rfl
  refine ⟨⟨fun x => if x = r then g (f r) else f x, ?_, fun x hx hout => ?_, fun x hx => ?_⟩,
    ?_, fun x hx => ?_, hclaims.trans h.claims, htokens.trans h.tokens, hassets.trans h.assets,
    fun id => ?_, hsent.trans h.sent, h.nonempty, ?_, ?_⟩
  · have hstored : f r ∈ v.db.redemptions.rows := hf ▸ List.mem_map_of_mem hmem
    have hsaved := Db.Table.rows_saveAll_map (t := v.db.redemptions) hgid
      (fun x (hx : x ∈ [f r]) => List.mem_singleton.mp hx ▸ hstored) (List.pairwise_singleton _ (f r))
    rw [List.map_singleton] at hsaved
    rw [hrows]
    rw [hg] at hsaved ⊢
    rw [hsaved, hf, List.map_map]
    refine List.map_congr_left fun x hx => ?_
    rw [Function.comp_apply]
    by_cases hxr : x = r
    · have hid : (f x).id ∈ [f r].map VaultRedemption.id := hxr ▸ List.mem_singleton_self _
      rw [if_pos hid, if_pos hxr, hxr]
    · have hid : (f x).id ∉ [f r].map VaultRedemption.id := by
        intro hid
        have hsameId := List.mem_singleton.mp hid
        rw [(hsame x hx).id, (hsame r hmem).id] at hsameId
        exact hxr (Db.Table.key_inj hx hmem hsameId)
      rw [if_neg hid, if_neg hxr]
  · have hxr : x ≠ r := by
      rintro rfl
      exact Bool.false_ne_true (hout.symm.trans (mem_batch.mp hr).2)
    exact (if_neg hxr).trans (hother x hx hout)
  · dsimp only
    by_cases hxr : x = r
    · rw [hxr, if_pos rfl, decide_eq_true hlast]
      exact hafter
    · rw [if_neg hxr, decide_eq_decide.mpr (hmore x hxr)]
      exact hbatch x hx
  · rw [List.nodup_append]
    refine ⟨h.nodup, List.nodup_singleton r, fun x hx y hy => ?_⟩
    rintro rfl
    exact hnew (List.mem_singleton.mp hy ▸ hx)
  · rcases List.mem_append.mp hx with hold | hlast'
    · exact h.back_mem x hold
    · exact List.mem_singleton.mp hlast' ▸ ⟨hr, hcustody⟩
  · have hnow : (∃ x ∈ [g (f r)], x.vaultCycleId = id ∧ x.status = .refunded) ↔
        r.vaultCycleId = id ∧ closedBy usdc true r = true := by
      rw [← hafter.sameCard.vaultCycleId, ← hafter.status_eq_refunded (hs r hr)]
      constructor
      · rintro ⟨x, hx, hcycle⟩
        exact List.mem_singleton.mp hx ▸ hcycle
      · intro hcycle
        exact ⟨g (f r), List.mem_singleton_self _, hcycle⟩
    have hthen : (∃ x ∈ s.db.batch batchId, x.vaultCycleId = id ∧
          closedBy usdc (decide (x ∈ back ++ [r])) x = true) ↔
        (r.vaultCycleId = id ∧ closedBy usdc true r = true) ∨
          ∃ x ∈ s.db.batch batchId, x.vaultCycleId = id ∧
            closedBy usdc (decide (x ∈ back)) x = true := by
      constructor
      · rintro ⟨x, hx, hcycle, hclosed⟩
        by_cases hxr : x = r
        · rw [hxr, decide_eq_true hlast] at hclosed
          exact .inl ⟨hxr ▸ hcycle, hclosed⟩
        · rw [decide_eq_decide.mpr (hmore x hxr)] at hclosed
          exact .inr ⟨x, hx, hcycle, hclosed⟩
      · rintro (⟨hcycle, hclosed⟩ | ⟨x, hx, hcycle, hclosed⟩)
        · exact ⟨r, hr, hcycle, (decide_eq_true hlast).symm ▸ hclosed⟩
        · refine ⟨x, hx, hcycle, ?_⟩
          by_cases hxr : x = r
          · rw [hxr, decide_eq_false hnew] at hclosed
            rw [hxr, decide_eq_true hlast]
            unfold closedBy at hclosed ⊢
            rw [Bool.and_eq_true] at hclosed ⊢
            exact ⟨hclosed.1, rfl⟩
          · rw [decide_eq_decide.mpr (hmore x hxr)]
            exact hclosed
    have hw : w.db.cycles.get id = (v.db.cycles.get id).map fun c =>
        if ∃ x ∈ [g (f r)], x.vaultCycleId = id ∧ x.status = .refunded then reopened c else c := by
      rw [hg]
      exact hcycles id
    rw [hw, h.cycles id, Option.map_map]
    refine congrArg (fun F => Option.map F (s.db.cycles.get id)) (funext fun c => ?_)
    rw [Function.comp_apply]
    simp only [hnow, hthen]
    by_cases hfirst : r.vaultCycleId = id ∧ closedBy usdc true r = true
    · rw [if_pos hfirst, if_pos (Or.inl hfirst : _ ∨ _)]
      split_ifs
      · exact reopened_reopened c
      · rfl
    · rw [if_neg hfirst]
      exact (if_congr (or_iff_right hfirst) rfl rfl).symm
  · obtain ⟨L, hL, hLback⟩ := h.returned
    refine ⟨L ++ [⟨tokenId, (f r).ownerWalletAddress, cfg.env.resolveChainId (f r).chainId, []⟩], ?_, ?_⟩
    · rw [hreturned, hL, List.append_assoc]
    · rw [List.map_append, List.map_append, hLback, List.map_singleton, List.map_singleton, hleg]
  · exact h.owners.sendBack hleg hheld howner

end Stores

end Custody
