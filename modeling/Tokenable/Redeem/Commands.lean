import Tokenable.Redeem.Request

/-!
# Which statements a redeem request runs

Around its transaction a request asks, reads, and saves orders as closed. Inside it, each card of
the batch locks its token, finds or makes its cycle, and inserts a row of the payment.
-/

namespace Redeem
open Js Platform Async Db Vault Orders Backend

def Around : BackendCmd → Prop
  | .inl (.auto (.countClaims _)) => True
  | .inl (.auto (.activeOrdersOfTokens ..)) => True
  | .inl (.auto (.saveOrders rows)) => ∀ p ∈ rows, p.2.status ≠ .active
  | .inl _ => False
  | .inr _ => True

/-- The statements of the transaction of a payment `hash` about cards whose tokens are `named`. -/
def OfCards (hash : JsStr) (named : JsStr → JsStr → Prop) : BackendCmd → Prop
  | .inl (.inTx (.lockToken contract tokenId)) => named contract tokenId
  | .inl (.inTx (.insertRedemption r)) => r.paymentTxHash = some hash
  | .inl (.inTx (.lockAsset _)) | .inl (.inTx (.insertAsset _)) => True
  | .inl (.inTx (.lockOpenCycle ..)) | .inl (.inTx (.countCycles _)) => True
  | .inl (.inTx (.saveCycle _)) | .inl (.inTx (.lockCycle _)) | .inl (.inTx (.saveToken _)) => True
  | .inl (.inTx (.lockOpenRedemption _)) => True
  | .inl _ => False
  | .inr _ => True

variable {env : Env} {hash : JsStr} {named : JsStr → JsStr → Prop} {α : Type}

theorem issues_rpc {P : BackendCmd → Prop} (q : Rpc) (h : P (.inr q)) : (rpc q).Issues P :=
  ⟨h, fun _ => trivial⟩

theorem issues_orThrowAnswer {P : BackendCmd → Prop} {p : BackendM (Except HttpError α)}
    (hp : p.Issues P) : (orThrowAnswer p).Issues P :=
  Prog.issues_bind hp fun r => Prog.issues_ret r

theorem issues_ask {q : Rpc} : (rpc q).Issues Around := issues_rpc q trivial

theorem issues_db {q : Stmt} (h : Around (.inl (.auto q))) : (db q).Issues Around :=
  ⟨h, fun _ => trivial⟩

theorem issues_tx {q : Stmt} (h : OfCards hash named (.inl (.inTx q))) :
    (tx q).Issues (OfCards hash named) := ⟨h, fun _ => trivial⟩

theorem issues_orQueryFailed {P : BackendCmd → Prop} (saved : Except PgError Unit) :
    (orQueryFailed saved).Issues P := by
  cases saved with
  | ok u => exact Prog.issues_ret _
  | error e => cases e; exact Prog.issues_ret _

theorem findOrCreateAsset_issues (token : RwaToken) (cert : JsStr) :
    (findOrCreateAsset token cert).Issues (OfCards hash named) := by
  refine Prog.issues_bind (issues_tx trivial) fun found => ?_
  cases found with
  | some asset => exact Prog.issues_ret _
  | none =>
    refine Prog.issues_bind (issues_rpc _ trivial) fun vaultRef => ?_
    refine Prog.issues_bind (issues_rpc _ trivial) fun id => ?_
    refine Prog.issues_bind (issues_tx trivial) fun saved => ?_
    exact Prog.issues_bind (issues_orQueryFailed saved) fun _ => Prog.issues_ret _

theorem findOrCreateMintedCycle_issues (assetId : JsStr) (chainId : ℕ) :
    (findOrCreateMintedCycle assetId chainId).Issues (OfCards hash named) := by
  refine Prog.issues_bind (issues_tx trivial) fun found => ?_
  cases found with
  | some openCycle =>
    dsimp only
    split_ifs <;> exact Prog.issues_ret _
  | none =>
    refine Prog.issues_bind (issues_tx trivial) fun count => ?_
    refine Prog.issues_bind (issues_rpc _ trivial) fun id => ?_
    exact Prog.issues_bind (issues_tx trivial) fun _ => Prog.issues_ret _

theorem backfillCycleForToken_issues (token : RwaToken) (chainId : ℕ) :
    (backfillCycleForToken token chainId).Issues (OfCards hash named) := by
  refine Prog.issues_bind (Prog.issues_throwIf _ _) fun _ => ?_
  refine Prog.issues_bind (findOrCreateAsset_issues token _) fun asset => ?_
  refine Prog.issues_bind (findOrCreateMintedCycle_issues asset.id chainId) fun cycle => ?_
  refine Prog.issues_bind (issues_rpc _ trivial) fun vaultRef => ?_
  exact Prog.issues_bind (issues_tx trivial) fun _ => Prog.issues_ret _

theorem lockRedeemableToken_issues {item : PaidItem}
    (hitem : named item.tokenContract item.tokenId) :
    (lockRedeemableToken item).Issues (OfCards hash named) := by
  refine Prog.issues_bind (issues_tx hitem) fun found => ?_
  refine Prog.issues_bind (Prog.issues_orThrow _ found) fun token => ?_
  exact Prog.issues_bind (Prog.issues_throwIf _ _) fun _ => Prog.issues_ret _

theorem lockMintedCycle_issues (token : RwaToken) (chainId : ℕ) :
    (lockMintedCycle token chainId).Issues (OfCards hash named) := by
  have hlink : (cycleIdOf token chainId).Issues (OfCards hash named) := by
    unfold cycleIdOf
    cases token.vaultCycleId with
    | some id => exact Prog.issues_ret _
    | none => exact backfillCycleForToken_issues token chainId
  refine Prog.issues_bind hlink fun cycleId => ?_
  refine Prog.issues_bind (issues_tx trivial) fun found => ?_
  refine Prog.issues_bind (Prog.issues_orThrow _ found) fun cycle => ?_
  exact Prog.issues_bind (Prog.issues_throwIf _ _) fun _ => Prog.issues_ret _

theorem insertPaidRedemptionRow_issues (p : PaidBatch) {item : PaidItem}
    (hitem : named item.tokenContract item.tokenId) :
    (insertPaidRedemptionRow p item).Issues (OfCards p.paymentTxHash named) := by
  refine Prog.issues_bind (lockRedeemableToken_issues hitem) fun token => ?_
  refine Prog.issues_bind (lockMintedCycle_issues token p.chainId) fun cycle => ?_
  refine Prog.issues_bind (issues_tx trivial) fun existingOpen => ?_
  cases existingOpen with
  | some open_ => exact Prog.issues_ret _
  | none =>
    refine Prog.issues_bind (issues_rpc _ trivial) fun id => ?_
    refine Prog.issues_bind (issues_rpc _ trivial) fun at_ => ?_
    have hrow : (p.row item cycle id at_).paymentTxHash = some p.paymentTxHash := rfl
    refine Prog.issues_bind (issues_tx hrow) fun saved => ?_
    refine Prog.issues_bind (issues_orQueryFailed saved) fun _ => ?_
    exact Prog.issues_bind (issues_tx trivial) fun _ => Prog.issues_ret _

theorem insertPaidRedemptionRows_issues (p : PaidBatch) {items : List PaidItem}
    (hitems : ∀ item ∈ items, named item.tokenContract item.tokenId) :
    (insertPaidRedemptionRows p items).Issues (OfCards p.paymentTxHash named) := by
  induction items with
  | nil => exact Prog.issues_ret _
  | cons item items ih =>
    refine Prog.issues_bind (insertPaidRedemptionRow_issues p (hitems item (.head _))) fun row => ?_
    refine Prog.issues_bind (ih fun item hitem => hitems item (.tail _ hitem)) fun rows => ?_
    exact Prog.issues_ret _

/-- The body of the transaction of a batch. -/
theorem paidBatch_inside (p : PaidBatch) :
    (insertPaymentClaimOrConflict p.claim >>= fun _ => insertPaidRedemptionRows p p.items).Issues
      Inside := by
  have hinside : ∀ q : Stmt, (tx q).Issues Inside := fun _ => ⟨trivial, fun _ => trivial⟩
  have hrows : (insertPaidRedemptionRows p p.items).Issues
      (OfCards p.paymentTxHash fun _ _ => True) :=
    insertPaidRedemptionRows_issues p fun _ _ => trivial
  refine Prog.issues_bind ?_ fun _ => Prog.issues_mono (fun c hc => ?_) hrows
  · refine Prog.issues_bind (hinside _) fun existing => ?_
    refine Prog.issues_bind ?_ fun saved => ?_
    · cases existing <;> exact hinside _
    · rcases saved with (_ | _) | _ <;> exact Prog.issues_ret _
  · rcases c with (_ | _ | _ | _) | _
    · exact hc.elim
    · trivial
    · exact hc.elim
    · exact hc.elim
    · trivial

theorem quoteRequest_issues (tokenIds : List ℕ) (shipTo : Option ShipTo) (chainId : ℕ) :
    (quoteRequest tokenIds shipTo chainId).Issues Around := by
  refine Prog.issues_bind (Prog.issues_throwIf _ _) fun _ => ?_
  refine Prog.issues_bind (Prog.issues_orThrow _ shipTo) fun dest => ?_
  refine Prog.issues_bind (Prog.issues_ret _) fun countryIso => ?_
  refine Prog.issues_bind (issues_orThrowAnswer issues_ask) fun _ => ?_
  refine Prog.issues_bind (issues_orThrowAnswer issues_ask) fun fresh => ?_
  exact Prog.issues_bind (Prog.issues_throwIf _ _) fun _ => Prog.issues_ret _

theorem hasPaymentClaim_issues (paymentTxHash : JsStr) :
    (hasPaymentClaim paymentTxHash).Issues Around := by
  unfold hasPaymentClaim
  dsimp only
  split_ifs
  · exact Prog.issues_ret _
  · exact Prog.issues_bind (issues_db trivial) fun _ => Prog.issues_ret _

theorem verifyUsdcPaymentToFeeRecipient_issues (txHash : JsStr) (fromAddresses : List JsStr)
    (expected chainId : ℕ) :
    (verifyUsdcPaymentToFeeRecipient env txHash fromAddresses expected chainId).Issues Around := by
  refine Prog.issues_bind (Prog.issues_orThrow _ _) fun payTo => ?_
  refine Prog.issues_bind (Prog.issues_throwIf _ _) fun _ => ?_
  refine Prog.issues_bind (issues_orThrowAnswer issues_ask) fun found => ?_
  refine Prog.issues_bind (Prog.issues_orThrow _ found) fun receipt => ?_
  refine Prog.issues_bind (Prog.issues_throwIf _ _) fun _ => ?_
  refine Prog.issues_bind (Prog.issues_ret _) fun usdc => ?_
  dsimp only
  split_ifs
  · exact Prog.issues_bind issues_ask fun _ => Prog.issues_ret _
  · exact Prog.issues_ret _

theorem checkPayment_issues (paymentTxHash : JsStr) (wallets : List JsStr) (fresh : RedeemEstimate)
    (pinKey : JsStr) (chainId : ℕ) :
    (checkPayment env paymentTxHash wallets fresh pinKey chainId).Issues Around := by
  refine Prog.issues_bind (hasPaymentClaim_issues paymentTxHash) fun claimed => ?_
  refine Prog.issues_bind (Prog.issues_throwIf _ _) fun _ => ?_
  refine Prog.issues_bind issues_ask fun pinned => ?_
  refine Prog.issues_bind (verifyUsdcPaymentToFeeRecipient_issues _ _ _ _) fun paid => ?_
  exact Prog.issues_ret _

theorem prepareItems_issues (contract : JsStr) (estimate : RedeemEstimate) (wallets : List JsStr)
    (chainId : ℕ) (tokenIds : List ℕ) :
    (prepareItems contract estimate wallets chainId tokenIds).Issues Around := by
  induction tokenIds with
  | nil => exact Prog.issues_ret _
  | cons tokenId tokenIds ih =>
    have hitem : (prepareItem contract estimate wallets chainId tokenId).Issues Around := by
      refine Prog.issues_bind (Prog.issues_throwIf _ _) fun _ => ?_
      refine Prog.issues_bind (issues_orThrowAnswer issues_ask) fun owner => ?_
      exact Prog.issues_bind (Prog.issues_throwIf _ _) fun _ => Prog.issues_ret _
    refine Prog.issues_bind hitem fun item => ?_
    exact Prog.issues_bind ih fun items => Prog.issues_ret _

theorem cancelOrders_issues (orders : List Order) : (cancelOrders orders).Issues Around := by
  induction orders with
  | nil => exact Prog.issues_ret _
  | cons order orders ih =>
    refine Prog.issues_bind issues_ask fun at_ => ?_
    have hclosed : Around (.inl (.auto (.saveOrders
        [(order, { order with status := .cancelled, updatedAt := at_ })]))) := by
      simp [Around]
    exact Prog.issues_bind (issues_db hclosed) fun _ => ih

theorem cancelActiveOrdersForTokens_issues (contract : JsStr) (tokenIds : List ℕ) :
    (cancelActiveOrdersForTokens contract tokenIds).Issues Around := by
  unfold cancelActiveOrdersForTokens
  split_ifs
  · exact Prog.issues_ret _
  · exact Prog.issues_bind (issues_db trivial) fun orders => cancelOrders_issues orders

end Redeem
