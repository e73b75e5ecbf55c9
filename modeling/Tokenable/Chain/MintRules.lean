import Tokenable.Async.Triple
import Tokenable.Chain.MintTo

/-!
# `mintTo` among other functions

What a call of `mintTo` has done when it returns, from what each of its steps does.
-/

namespace Chain
open Js Platform Async

variable {σ X C : Type} {R : C → Type} {α : Type} {H : Handler σ X C R} {Ok : Allowed σ C}
  {Γ : Contract σ} {K : σ → Prop}

/-- Each attempt of the loop is one of the closure. -/
theorem triple_retryFrom {F : α → σ → Prop} {sleep : ℕ → Prog C R Thrown Unit}
    {fn : Prog C R Thrown α} (hK : Γ.Persistent K) (hfn : Triple H Ok Γ K fn F)
    (hsleep : ∀ ms, Triple H Ok Γ K (sleep ms) fun _ => K) (left attempt : ℕ) :
    Triple H Ok Γ K (retryFrom sleep fn left attempt) F := by
  induction left generalizing attempt with
  | zero => exact triple_error
  | succ left ih =>
    apply triple_settle hK hfn
    · intro a
      exact triple_ok fun _ h => h
    · intro err
      dsimp only
      split_ifs
      · exact triple_error
      · exact triple_settle hK (hsleep _) (fun _ => ih (attempt + 1)) fun _ => ih (attempt + 1)

section Failures
variable {i : ℕ} {E : σ → Prop} {Q : α → σ → Prop} {s : σ}

/-- Where an attempt that fails leads back to `E`, the loop ends as an attempt does. -/
theorem wp_retryFrom {sleep : ℕ → Prog C R Thrown Unit} {fn : Prog C R Thrown α}
    (hfn : ∀ t, E t → wp H Ok Γ i fn (okOr E Q) t)
    (hsleep : ∀ ms t, E t → wp H Ok Γ i (sleep ms) (fun _ => E) t) (left attempt : ℕ) (hs : E s) :
    wp H Ok Γ i (retryFrom sleep fn left attempt) (okOr E Q) s := by
  induction left generalizing attempt s with
  | zero => exact hs
  | succ left ih =>
    refine wp_settle (wp_mono (fun r t ht => ?_) (hfn s hs))
    cases r with
    | ok a => exact ht
    | error err =>
      dsimp only
      split_ifs
      · exact ht
      · exact wp_settle (wp_mono (fun _ u hu => ih (attempt + 1) hu) (hsleep _ t ht))

theorem wp_mintTo {ops : MintOps C R} {req : MintRequest} {Q : MintResult → σ → Prop}
    (hattempt : ∀ t, E t → wp H Ok Γ i (mintAttempt ops req.recipient) (okOr E Q) t)
    (hsleep : ∀ ms t, E t → wp H Ok Γ i (ops.sleep ms) (fun _ => E) t) (hs : E s) :
    wp H Ok Γ i (mintTo ops req) (okOr E Q) s := by
  unfold mintTo
  split
  · exact hs
  · refine wp_settle (wp_mono (fun r t ht => ?_) (wp_retryFrom hattempt hsleep _ _ hs))
    cases r with
    | ok minted => exact ht
    | error err => exact ht

end Failures

/-- What the steps of a mint do: `broadcast txHash` holds once a transaction is sent, and
`mined txHash receipt` once its receipt is read. -/
structure MintSteps (H : Handler σ X C R) (Ok : Allowed σ C) (Γ : Contract σ) (K : σ → Prop)
    (ops : MintOps C R) (recipient : JsStr) (broadcast : JsStr → σ → Prop)
    (mined : JsStr → Option Receipt → σ → Prop) : Prop where
  start : Γ.Persistent K
  broadcast_persistent : ∀ txHash, Γ.Persistent (broadcast txHash)
  mined_persistent : ∀ txHash receipt, Γ.Persistent (mined txHash receipt)
  mint : Triple H Ok Γ K (ops.mint recipient) broadcast
  onSubmitted : ∀ txHash, Triple H Ok Γ (fun s => broadcast txHash s ∧ K s) (ops.onSubmitted txHash)
    fun _ _ => True
  wait : ∀ txHash, Triple H Ok Γ (broadcast txHash) (ops.wait txHash) (mined txHash)
  recordOwner : ∀ tokenId, Triple H Ok Γ (fun _ => True) (ops.recordOwner tokenId recipient)
    fun _ _ => True
  sleep : ∀ ms, Triple H Ok Γ K (ops.sleep ms) fun _ => K

variable {ops : MintOps C R} {broadcast : JsStr → σ → Prop}
  {mined : JsStr → Option Receipt → σ → Prop}

theorem readReceipt_eq_ok {receipt : Option Receipt} {minted : MintResult}
    (h : readReceipt receipt = .ok minted) : ∃ r, receipt = some r ∧ r.hash = some minted.txHash ∧
      minted.txHash ≠ [] ∧ (parseMintedTokenIds r.logs).head? = some minted.tokenId := by
  unfold readReceipt at h
  cases receipt with
  | none => cases h
  | some r =>
    rw [Option.bind_some] at h
    cases hhash : r.hash with
    | none =>
      rw [hhash] at h
      cases h
    | some hash =>
      rw [hhash] at h
      dsimp only at h
      split_ifs at h with hempty
      rw [Option.map_some, Option.getD_some] at h
      cases hids : parseMintedTokenIds r.logs with
      | nil =>
        rw [hids] at h
        cases h
      | cons tokenId ids =>
        rw [hids] at h
        obtain rfl := Except.ok.inj h
        refine ⟨r, rfl, hhash, fun hnil => hempty (List.isEmpty_iff.mpr hnil), ?_⟩
        rw [hids]
        rfl

/-- A transaction that was sent, and what its receipt says was minted. -/
def MintedBy (broadcast : JsStr → σ → Prop) (mined : JsStr → Option Receipt → σ → Prop)
    (minted : MintResult) (s : σ) : Prop :=
  ∃ txHash receipt, broadcast txHash s ∧ mined txHash receipt s ∧ readReceipt receipt = .ok minted

theorem triple_mintAttempt {recipient : JsStr}
    (h : MintSteps H Ok Γ K ops recipient broadcast mined) :
    Triple H Ok Γ K (mintAttempt ops recipient) (MintedBy broadcast mined) := by
  apply triple_seq h.start h.mint
  intro txHash
  apply triple_seq (persistent_and (h.broadcast_persistent txHash) h.start) (h.onSubmitted txHash)
  intro _
  refine triple_conseq (K := broadcast txHash) ?_ (fun _ hs => hs.2.1) fun _ _ hF => hF
  apply triple_seq (h.broadcast_persistent txHash) (h.wait txHash)
  intro receipt
  have hboth : Γ.Persistent fun s => mined txHash receipt s ∧ broadcast txHash s :=
    persistent_and (h.mined_persistent txHash receipt) (h.broadcast_persistent txHash)
  apply triple_bind (F := fun minted s => readReceipt receipt = .ok minted ∧
    mined txHash receipt s ∧ broadcast txHash s)
  · exact triple_ret fun minted hminted s hs => ⟨hminted, hs⟩
  intro minted
  have hpers := persistent_and (Γ := Γ) (persistent_const (readReceipt receipt = .ok minted)) hboth
  apply triple_seq hpers
  · exact triple_conseq (h.recordOwner minted.tokenId) (fun _ _ => trivial) fun _ _ _ => trivial
  intro _
  exact triple_ok fun s hs => ⟨txHash, receipt, hs.2.2.2, hs.2.2.1, hs.2.1⟩

theorem triple_mintTo {req : MintRequest}
    (h : MintSteps H Ok Γ K ops req.recipient broadcast mined) :
    Triple H Ok Γ K (mintTo ops req) (MintedBy broadcast mined) := by
  unfold mintTo
  split
  · exact triple_error
  · refine triple_settle h.start ?_ (fun _ => triple_ok fun _ hs => hs) fun _ => triple_error
    exact triple_retryFrom h.start (triple_mintAttempt h) h.sleep _ _

end Chain
