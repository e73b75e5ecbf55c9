import Tokenable.Redeem.Refund

/-!
# What the refunds write

`refundUsdcBatch` saves the rows of a batch with their USDC half, `returnNft` saves one row with its
NFT half, and both look at the rows that they loaded first. The other commands of the refunds never
touch the redemption rows.
-/

namespace Redeem
open Js Platform Async Vault

/-- Refunds are refused after a tracking number. -/
theorem untracked_of_assertRefundable {rows : List VaultRedemption} {u : Unit}
    (h : assertRefundable rows = .ok u) : ∀ r ∈ rows, truthy (r.trackingNumber.map trim) = false := by
  intro r hr
  by_contra htracked
  unfold assertRefundable at h
  have hany : rows.any (fun r => truthy (r.trackingNumber.map trim)) = true :=
    List.any_eq_true.mpr ⟨r, hr, Bool.not_eq_false _ ▸ htracked⟩
  split_ifs at h

/-- The refund saves of a condition: rows of a batch, or one row that was found. -/
structure RefundSaves (Ans : (c : LockCmd JsStr ⊕ Cmd) → LockRes JsStr Res c → Prop)
    (P : LockCmd JsStr ⊕ Cmd → Prop) : Prop where
  lock : ∀ l, P (.inl l)
  read : ∀ c : Cmd, (∀ rows, c ≠ .saveRedemptions rows) → P (.inr c)
  usdc : ∀ batchId (rows : List VaultRedemption), Ans (.inr (.findBatch batchId)) rows →
    assertRefundable rows = .ok () → ∀ txHash amountMicros at_,
      P (.inr (.saveRedemptions
        (rows.map fun r => (r, r.applyUsdcRefundFields txHash amountMicros at_))))
  nft : ∀ id (found : Option VaultRedemption), Ans (.inr (.findRedemption id)) found →
    ∀ r ∈ found, assertRefundable [r] = .ok () → ∀ txHash at_,
      P (.inr (.saveRedemptions [(r, r.applyNftReturnFields txHash at_)]))

section
variable {Ans : (c : LockCmd JsStr ⊕ Cmd) → LockRes JsStr Res c → Prop}
  {P : LockCmd JsStr ⊕ Cmd → Prop} {env : Env} {α β : Type}

theorem given_guard {b : Bool} {e : HttpError} {f : Unit → M β} (hf : (f ()).IssuesGiven Ans P) :
    (Prog.throwIf b e >>= f).IssuesGiven Ans P := by
  cases b with
  | true => exact Prog.issuesGiven_ret _
  | false => exact hf

theorem given_found {o : Option α} {e : HttpError} {f : α → M β}
    (hf : ∀ a ∈ o, (f a).IssuesGiven Ans P) : (Prog.orThrow e o >>= f).IssuesGiven Ans P := by
  cases o with
  | none => exact Prog.issuesGiven_ret _
  | some a => exact hf a rfl

variable (h : RefundSaves Ans P)
include h

theorem RefundSaves.withLock {k : JsStr} {body : M α} (hbody : body.IssuesGiven Ans P) :
    (withLock k body).IssuesGiven Ans P := by
  have hlock : ∀ l : LockCmd JsStr, (lockCmd l : M Unit).IssuesGiven Ans P :=
    fun l => ⟨h.lock l, fun _ _ => trivial⟩
  refine Prog.issuesGiven_bind (hlock _) fun _ _ => Prog.issuesGiven_bind (hlock _) fun _ _ => ?_
  refine Prog.issuesGiven_settle hbody fun r _ => ?_
  exact Prog.issuesGiven_settle (hlock _) fun _ _ => Prog.issuesGiven_ret _

theorem RefundSaves.resetCycles (cycles : List VaultCycle) :
    (resetCycles cycles).IssuesGiven Ans P := by
  induction cycles with
  | nil => exact Prog.issuesGiven_ret _
  | cons cycle cycles ih =>
    refine Prog.issuesGiven_bind ?_ fun _ _ => ih
    unfold resetCycle
    split_ifs
    · exact ⟨h.read _ (by rintro rows ⟨⟩), fun _ _ => trivial⟩
    · exact Prog.issuesGiven_ret _

theorem RefundSaves.resetCyclesIfRefunded (rows : List VaultRedemption) :
    (resetCyclesIfRefunded rows).IssuesGiven Ans P := by
  unfold Redeem.resetCyclesIfRefunded
  dsimp only
  split_ifs
  · exact Prog.issuesGiven_ret _
  · exact Prog.issuesGiven_call_bind (h.read _ (by rintro rows ⟨⟩)) fun cycles _ => h.resetCycles cycles

theorem RefundSaves.getPaymentReceivedMicrosForBatch (batchId : JsStr) :
    (getPaymentReceivedMicrosForBatch batchId).IssuesGiven Ans P := by
  unfold Redeem.getPaymentReceivedMicrosForBatch
  split_ifs
  · exact Prog.issuesGiven_ret _
  · refine Prog.issuesGiven_call_bind (h.read _ (by rintro rows ⟨⟩)) fun claim _ => ?_
    split
    · exact Prog.issuesGiven_ret _
    · exact Prog.issuesGiven_call_bind (h.read _ (by rintro rows ⟨⟩)) fun row _ => Prog.issuesGiven_ret _

theorem RefundSaves.recordRefund {batchId : JsStr} {rows : List VaultRedemption}
    (hrows : Ans (.inr (.findBatch batchId)) rows) (hrefundable : assertRefundable rows = .ok ())
    (txHash amountMicros : JsStr) : (recordRefund rows txHash amountMicros).IssuesGiven Ans P := by
  refine Prog.issuesGiven_call_bind (h.read _ (by rintro rows ⟨⟩)) fun at_ _ => ?_
  refine Prog.issuesGiven_call_bind (h.usdc batchId rows hrows hrefundable txHash amountMicros at_) fun _ _ => ?_
  exact Prog.issuesGiven_bind (h.resetCyclesIfRefunded _) fun _ _ => Prog.issuesGiven_ret _

theorem RefundSaves.refundUsdcBatch (batchId : JsStr) :
    (refundUsdcBatch env batchId).IssuesGiven Ans P := by
  refine h.withLock (Prog.issuesGiven_call_bind (h.read _ (by rintro rows ⟨⟩)) fun rows hrows => ?_)
  refine given_found fun first _ => ?_
  refine Prog.issuesGiven_bind (Prog.issuesGiven_ret _) fun u hu => ?_
  split_ifs
  · exact Prog.issuesGiven_ret _
  · refine Prog.issuesGiven_bind (h.getPaymentReceivedMicrosForBatch batchId) fun received _ => ?_
    refine given_guard (given_guard ?_)
    refine Prog.issuesGiven_bind ?_ fun txHash _ => h.recordRefund hrows hu txHash _
    exact Prog.issuesGiven_call_bind (h.read _ (by rintro rows ⟨⟩)) fun sent _ => Prog.issuesGiven_ret _

theorem RefundSaves.returnNft (id : JsStr) : (returnNft env id).IssuesGiven Ans P := by
  refine Prog.issuesGiven_call_bind (h.read _ (by rintro rows ⟨⟩)) fun found hfound => ?_
  refine given_found fun row hrow => ?_
  refine Prog.issuesGiven_bind (Prog.issuesGiven_ret _) fun u hu => ?_
  split_ifs
  · exact Prog.issuesGiven_ret _
  · refine given_guard (Prog.issuesGiven_call_bind (h.read _ (by rintro rows ⟨⟩)) fun token _ => ?_)
    refine given_found fun tokenIdText _ => given_found fun tokenId _ => ?_
    refine Prog.issuesGiven_bind ?_ fun txHash _ => ?_
    · exact Prog.issuesGiven_call_bind (h.read _ (by rintro rows ⟨⟩)) fun sent _ => Prog.issuesGiven_ret _
    · refine Prog.issuesGiven_call_bind (h.read _ (by rintro rows ⟨⟩)) fun at_ _ => ?_
      refine Prog.issuesGiven_call_bind (h.nft id found hfound row hrow hu txHash at_) fun _ _ => ?_
      exact Prog.issuesGiven_bind (h.resetCyclesIfRefunded _) fun _ _ => Prog.issuesGiven_ret _

theorem RefundSaves.returnRows (rows : List VaultRedemption) :
    (returnRows env rows).IssuesGiven Ans P := by
  induction rows with
  | nil => exact Prog.issuesGiven_ret _
  | cons row rows ih =>
    refine Prog.issuesGiven_bind ?_ fun entry _ => ?_
    · unfold returnRow
      split_ifs
      · refine Prog.issuesGiven_settle (h.returnNft row.id) fun r _ => ?_
        cases r <;> exact Prog.issuesGiven_ret _
      · exact Prog.issuesGiven_ret _
      · exact Prog.issuesGiven_ret _
    · exact Prog.issuesGiven_bind ih fun rest _ => Prog.issuesGiven_ret _

theorem RefundSaves.refundFullBatch (batchId : JsStr) :
    (refundFullBatch env batchId).IssuesGiven Ans P := by
  refine Prog.issuesGiven_bind (h.refundUsdcBatch batchId) fun usdc _ => ?_
  refine Prog.issuesGiven_call_bind (h.read _ (by rintro rows ⟨⟩)) fun rows _ => ?_
  exact Prog.issuesGiven_bind (h.returnRows rows) fun nftReturns _ => Prog.issuesGiven_ret _

end

end Redeem
