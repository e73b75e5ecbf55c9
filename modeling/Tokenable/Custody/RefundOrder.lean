import Tokenable.Custody.RefundLegs
import Tokenable.Custody.RefundedNft
import Tokenable.Custody.Tracking

/-!
# The order of the refunds of a batch

One refund call after the other, in any order and with repetitions. Each call makes the legs that it
finds missing, and a call that succeeds leaves its leg made (`Legs.refundUsdcBatch`,
`Legs.returnNft`). So a run in which every leg has succeeded once ends as `refundFullBatch` does.
-/

namespace Custody
open Js Platform Async Vault Redeem

/-- The caller of a transfer learns what has become of it, and something has. -/
def seen : Transfer → Bool
  | .failed _ | .mined _ => true
  | .skipped _ | .unseen .. => false

/-- No transfer is mined without the call seeing it, and no refund is owed to the fee wallet. -/
def SeesTransfers (cfg : Config) : AllowedStep Logged Answer (LockCmd JsStr ⊕ Cmd)
  | _, x, .inr (.redeem (.transferUsdc _ to_ amountMicros chainId)) =>
    seen (Platform.transferUsdc cfg.env x.wallet to_ amountMicros chainId) = true
  | s, x, .inr (.redeem (.safeTransferFromCustody tokenId to_ chainId)) =>
    seen (transferFromCustody cfg s.store x.submission tokenId to_ chainId) = true
  | _, _, _ => True

def sawTransfer (cfg : Config) : Logged → Answer → LockCmd JsStr ⊕ Cmd → Bool
  | _, x, .inr (.redeem (.transferUsdc _ to_ amountMicros chainId)) =>
    seen (Platform.transferUsdc cfg.env x.wallet to_ amountMicros chainId)
  | s, x, .inr (.redeem (.safeTransferFromCustody tokenId to_ chainId)) =>
    seen (transferFromCustody cfg s.store x.submission tokenId to_ chainId)
  | _, _, _ => true

theorem sawTransfer_iff {cfg : Config} {s : Logged} {x : Answer} {c : LockCmd JsStr ⊕ Cmd} :
    sawTransfer cfg s x c = true ↔ SeesTransfers cfg s x c := by
  unfold sawTransfer SeesTransfers
  split <;> simp

instance (cfg : Config) (s : Logged) (x : Answer) (c : LockCmd JsStr ⊕ Cmd) :
    Decidable (SeesTransfers cfg s x c) :=
  decidable_of_iff (sawTransfer cfg s x c = true) sawTransfer_iff

theorem moved_of_error {T : Transfer} {e : HttpError} (hseen : seen T = true)
    (h : T.answer = .error e) : T.moved = none := by
  cases T with
  | failed e => rfl
  | skipped txHash => cases h
  | unseen txHash e => cases hseen
  | mined txHash => cases h

theorem moved_of_ok {T : Transfer} {txHash : JsStr} (hseen : seen T = true)
    (h : T.answer = .ok txHash) : T.moved = some txHash := by
  cases T with
  | failed e => cases h
  | skipped txHash => cases hseen
  | unseen txHash e => cases hseen
  | mined txHash' => exact congrArg some (Except.ok.inj h)

/-- What a refund that is owed has found. -/
theorem refundDue_owed {env : Env} {s : Redeem.Store} {batchId amountMicros : JsStr}
    {first : VaultRedemption} (h : refundDue env s batchId = .owed first amountMicros) :
    (s.batch batchId).head? = some first ∧ amountMicros = refundMicros s batchId ∧
      (s.batch batchId).all VaultRedemption.usdcRefunded = false := by
  unfold refundDue at h
  cases hhead : (s.batch batchId).head? with
  | none =>
    rw [hhead] at h
    cases h
  | some first' =>
    rw [hhead] at h
    dsimp only at h
    cases hrefundable : assertRefundable (s.batch batchId) with
    | error e =>
      rw [hrefundable] at h
      cases h
    | ok u =>
      rw [hrefundable] at h
      dsimp only at h
      split_ifs at h with hall hamount hconfigured
      obtain ⟨rfl, rfl⟩ := RefundDue.owed.inj h
      exact ⟨rfl, rfl, Bool.not_eq_true _ ▸ hall⟩

section Calls
variable {cfg : Config} {batchId : JsStr} {s : Store} {usdc : Bool} {back : List VaultRedemption}
  {v w : Logged}

structure Further (usdc usdc' : Bool) (back back' : List VaultRedemption) : Prop where
  usdc : usdc = true → usdc' = true
  back : back ⊆ back'

theorem Further.refl (usdc : Bool) (back : List VaultRedemption) : Further usdc usdc back back :=
  ⟨id, List.Subset.refl _⟩

theorem Further.trans {a b c : Bool} {l m n : List VaultRedemption} (h : Further a b l m)
    (h' : Further b c m n) : Further a c l n := ⟨h'.usdc ∘ h.usdc, List.Subset.trans h.back h'.back⟩

variable (hs : ∀ r ∈ s.db.batch batchId, Unrefunded r)
include hs

theorem Legs.refundUsdcBatch {o : Except HttpError RefundUsdcResult}
    (h : Legs cfg batchId s usdc back v.store)
    (hrun : (admin (Redeem.refundUsdcBatch cfg.env batchId)).Runs (alone cfg) (SeesTransfers cfg) v o w) :
    ∃ usdc', Legs cfg batchId s usdc' back w.store ∧ Further usdc usdc' back back ∧
      ∀ r, o = .ok r → usdc' = true := by
  obtain ⟨f, hf, hsame, -, hbatch⟩ := h.cards
  have hbatchMap : v.store.db.batch batchId = (s.db.batch batchId).map f :=
    batch_eq_map hf hsame batchId
  have hall : (v.store.db.batch batchId).all VaultRedemption.usdcRefunded = true →
      v.store.db.batch batchId ≠ [] → usdc = true := by
    intro hall hne
    obtain ⟨y, hy⟩ := List.exists_mem_of_ne_nil _ hne
    have hrefunded := List.all_eq_true.mp hall y hy
    rw [hbatchMap] at hy
    obtain ⟨r, hr, rfl⟩ := List.mem_map.mp hy
    exact (hbatch r hr).usdcRefunded.symm.trans hrefunded
  obtain ⟨rfl, hok⟩ | ⟨first, amountMicros, x, hdue, hseen, hend⟩ := runs_refundUsdcBatch hrun
  · refine ⟨usdc, h, Further.refl usdc back, fun r hr => ?_⟩
    obtain ⟨hne, hrefunded⟩ := hok r hr
    exact hall hrefunded hne
  · obtain ⟨hhead, rfl, hnot⟩ := refundDue_owed hdue
    obtain rfl : usdc = false := by
      by_contra husdc
      rw [Bool.not_eq_false] at husdc
      have hrefunded : (v.store.db.batch batchId).all VaultRedemption.usdcRefunded = true := by
        rw [List.all_eq_true, hbatchMap]
        intro y hy
        obtain ⟨r, hr, rfl⟩ := List.mem_map.mp hy
        exact (hbatch r hr).usdcRefunded.trans husdc
      exact Bool.false_ne_true (hnot.symm.trans hrefunded)
    cases hend with
    | failed e he =>
      refine ⟨false, ?_, Further.refl false back, fun r hr => by cases hr⟩
      unfold Logged.paid
      rw [moved_of_error hseen he]
      exact h
    | recorded txHash at_ hanswer =>
      refine ⟨true, ?_, ⟨fun _ => rfl, List.Subset.refl _⟩, fun _ _ => rfl⟩
      have hmicros : refundMicros v.store.db batchId = refundMicros s.db batchId := by
        unfold refundMicros
        rw [h.receivedMicros]
      unfold Logged.paid
      rw [moved_of_ok hseen hanswer, hmicros]
      have hpairs : (refundPairs (v.store.db.batch batchId) txHash (refundMicros s.db batchId) at_).map
          Prod.snd = (v.store.db.batch batchId).map fun r =>
            r.applyUsdcRefundFields txHash (refundMicros s.db batchId) at_ := by
        unfold refundPairs
        rw [List.map_map]
        rfl
      have hne : s.db.batch batchId ≠ [] := by
        intro hempty
        rw [hbatchMap, hempty] at hhead
        cases hhead
      refine h.refundUsdc hs txHash at_ ?_ (fun id => ?_) rfl rfl rfl rfl ?_ hne rfl
      · unfold Logged.reset Logged.save
        rw [hpairs]
        rfl
      · rw [get_reset, hpairs]
        rfl
      · have hfirst : s.usdcLeg cfg batchId = [(batchId, first.ownerWalletAddress,
            refundMicros s.db batchId, cfg.env.resolveChainId first.chainId)] := by
          rw [hbatchMap, List.head?_map] at hhead
          obtain ⟨r, hr, rfl⟩ := Option.map_eq_some_iff.mp hhead
          have hcard := hsame r (mem_batch.mp (List.mem_of_head? hr)).1
          unfold Store.usdcLeg
          rw [hr, hcard.ownerWalletAddress, hcard.chainId]
          rfl
        rw [hfirst]
        exact List.map_append

theorem Legs.returnNft {r : VaultRedemption} {o : Except HttpError ReturnNftResult}
    (hr : r ∈ s.db.batch batchId) (h : Legs cfg batchId s usdc back v.store)
    (hrun : (admin (Redeem.returnNft cfg.env r.id)).Runs (alone cfg) (SeesTransfers cfg) v o w) :
    ∃ back', Legs cfg batchId s usdc back' w.store ∧ back ⊆ back' ∧ ∀ x, o = .ok x → r ∈ back' := by
  obtain ⟨f, hf, hsame, -, hbatch⟩ := h.cards
  have hafter := hbatch r hr
  have hget : v.store.db.redemptions.get r.id = some (f r) := by
    rw [Db.Table.get_of_rows_eq_map hf (fun x hx => (hsame x hx).id) r.id,
      Db.Table.get_of_mem (mem_batch.mp hr).1]
    rfl
  obtain ⟨rfl, hok⟩ | ⟨row, tokenId, x, y, hdue, -, hseen, hend⟩ := runs_returnNft hrun
  · refine ⟨back, h, List.Subset.refl _, fun z hz => ?_⟩
    obtain ⟨row, hrow, hreturned, -⟩ := hok z hz
    obtain rfl := Option.some.inj (hget.symm.trans hrow)
    exact of_decide_eq_true (hafter.returnedAt.symm.trans hreturned)
  · obtain rfl := Option.some.inj (hget.symm.trans hdue.found)
    have hnew : r ∉ back := by
      intro hmem
      have hreturned := hdue.notReturned
      rw [hafter.returnedAt, hafter.returnTxHash, decide_eq_true hmem] at hreturned
      cases hreturned
    cases hend with
    | failed e he =>
      refine ⟨back, ?_, List.Subset.refl _, fun z hz => by cases hz⟩
      unfold Logged.moved
      rw [moved_of_error hseen he]
      exact h
    | recorded txHash at_ hanswer =>
      obtain ⟨hmined, howner, htx⟩ := transferFromCustody_ok hanswer
      refine ⟨back ++ [r], ?_, List.subset_append_left _ _, fun _ _ =>
        List.mem_append_right _ (List.mem_singleton_self r)⟩
      rw [hmined]
      refine h.sendBack hs at_ hr (hafter.inCustody (hs r hr) hdue.custody) hnew hget hdue.token howner
        htx rfl (fun id => ?_) rfl rfl rfl rfl ?_ rfl
      · rw [get_reset]
        rfl
      · exact List.map_append

theorem Legs.returnRow {y : VaultRedemption} {o : Except HttpError NftReturn}
    (hy : ∃ r ∈ s.db.batch batchId, y.id = r.id ∧ (y.custodyReturnedAt.isSome = true → r ∈ back))
    (h : Legs cfg batchId s usdc back v.store)
    (hrun : (admin (Redeem.returnRow cfg.env y)).Runs (alone cfg) (SeesTransfers cfg) v o w) :
    ∃ back', Legs cfg batchId s usdc back' w.store ∧ back ⊆ back' ∧
      ∀ e, o = .ok e → e.skipped = none →
        ∀ r ∈ s.db.batch batchId, r.id = e.redemptionId → r ∈ back' := by
  obtain ⟨r, hr, hid, hreturned⟩ := hy
  have honly : ∀ r' ∈ s.db.batch batchId, r'.id = y.id → r' = r := fun r' hr' hid' =>
    Db.Table.key_inj (mem_batch.mp hr').1 (mem_batch.mp hr).1 (hid'.trans hid)
  have hidle : ∀ skipped : Option JsStr, (skipped = none → y.custodyReturnedAt.isSome = true) →
      o = .ok ⟨y.id, y.custodyReturnTxHash, y.custodyReturnedAt.isSome, skipped⟩ → v = w →
      ∃ back', Legs cfg batchId s usdc back' w.store ∧ back ⊆ back' ∧
        ∀ e, o = .ok e → e.skipped = none →
          ∀ r ∈ s.db.batch batchId, r.id = e.redemptionId → r ∈ back' := by
    rintro skipped hskipped rfl rfl
    refine ⟨back, h, List.Subset.refl _, fun e he hnone r' hr' hid' => ?_⟩
    obtain rfl := Except.ok.inj he
    obtain rfl := honly r' hr' hid'
    exact hreturned (hskipped hnone)
  unfold Redeem.returnRow at hrun
  split_ifs at hrun with hdue hever
  · rw [admin_settle, hid] at hrun
    obtain ⟨z, u, hz, hlast⟩ := Prog.runs_settle.mp hrun
    obtain ⟨back', hback', hmore, hdone⟩ := h.returnNft hs hr hz
    cases z with
    | ok result =>
      obtain ⟨rfl, rfl⟩ := hlast
      refine ⟨back', hback', hmore, fun e he _ r' hr' hid' => ?_⟩
      obtain rfl := Except.ok.inj he
      obtain rfl := honly r' hr' (hid'.trans hid.symm)
      exact hdone result rfl
    | error err =>
      obtain ⟨rfl, rfl⟩ := hlast
      refine ⟨back', hback', hmore, fun e he hnone => ?_⟩
      obtain rfl := Except.ok.inj he
      cases hnone
  · refine hidle none (fun _ => ?_) hrun.1.symm hrun.2
    rw [hever, Bool.and_true, ← Option.not_isSome, Bool.not_eq_true', Bool.not_eq_false] at hdue
    exact hdue
  · exact hidle (some _) (fun hnone => by cases hnone) hrun.1.symm hrun.2

theorem Legs.returnRows {rows : List VaultRedemption} {o : Except HttpError (List NftReturn)}
    (hrows : ∀ y ∈ rows, ∃ r ∈ s.db.batch batchId,
      y.id = r.id ∧ (y.custodyReturnedAt.isSome = true → r ∈ back))
    (h : Legs cfg batchId s usdc back v.store)
    (hrun : (admin (Redeem.returnRows cfg.env rows)).Runs (alone cfg) (SeesTransfers cfg) v o w) :
    ∃ back', Legs cfg batchId s usdc back' w.store ∧ back ⊆ back' ∧
      ∀ es, o = .ok es → ∀ e ∈ es, e.skipped = none →
        ∀ r ∈ s.db.batch batchId, r.id = e.redemptionId → r ∈ back' := by
  induction rows generalizing v o back w with
  | nil =>
    obtain ⟨rfl, rfl⟩ := hrun
    refine ⟨back, h, List.Subset.refl _, fun es hes e he => ?_⟩
    obtain rfl := Except.ok.inj hes
    cases he
  | cons y rows ih =>
    have hfirst := hrows y List.mem_cons_self
    obtain ⟨entry, u, hentry, hrest⟩ | ⟨e, herror, rfl⟩ := runs_admin_bind.mp hrun
    · obtain ⟨back₁, hback₁, hmore₁, hdone₁⟩ := h.returnRow hs hfirst hentry
      have hrows₁ : ∀ y ∈ rows, ∃ r ∈ s.db.batch batchId,
          y.id = r.id ∧ (y.custodyReturnedAt.isSome = true → r ∈ back₁) := by
        intro y' hy'
        obtain ⟨r, hr, hid, hreturned⟩ := hrows y' (List.mem_cons_of_mem _ hy')
        exact ⟨r, hr, hid, fun hsome => hmore₁ (hreturned hsome)⟩
      obtain ⟨rest, z, hz, hlast⟩ | ⟨e, herror, rfl⟩ := runs_admin_bind.mp hrest
      · obtain ⟨rfl, rfl⟩ := hlast
        obtain ⟨back₂, hback₂, hmore₂, hdone₂⟩ := ih hrows₁ hback₁ hz
        refine ⟨back₂, hback₂, List.Subset.trans hmore₁ hmore₂, fun es hes e he hnone r hr hid => ?_⟩
        obtain rfl := Except.ok.inj hes
        rcases List.mem_cons.mp he with rfl | hin
        · exact hmore₂ (hdone₁ e rfl hnone r hr hid)
        · exact hdone₂ rest rfl e hin hnone r hr hid
      · obtain ⟨back₂, hback₂, hmore₂, -⟩ := ih hrows₁ hback₁ herror
        exact ⟨back₂, hback₂, List.Subset.trans hmore₁ hmore₂, fun es hes => by cases hes⟩
    · obtain ⟨back₁, hback₁, hmore₁, -⟩ := h.returnRow hs hfirst herror
      exact ⟨back₁, hback₁, hmore₁, fun es hes => by cases hes⟩

theorem Legs.refundFullBatch {o : Except HttpError RefundFullResult}
    (h : Legs cfg batchId s usdc back v.store)
    (hrun : (admin (Redeem.refundFullBatch cfg.env batchId)).Runs (alone cfg) (SeesTransfers cfg) v o w) :
    ∃ usdc' back', Legs cfg batchId s usdc' back' w.store ∧ Further usdc usdc' back back' ∧
      ∀ result, o = .ok result → usdc' = true ∧ ∀ e ∈ result.nftReturns, e.skipped = none →
        ∀ r ∈ s.db.batch batchId, r.id = e.redemptionId → r ∈ back' := by
  obtain ⟨paid, u, hpaid, hrest⟩ | ⟨e, herror, rfl⟩ := runs_admin_bind.mp hrun
  · obtain ⟨usdc', hu, hfurther, hdone⟩ := h.refundUsdcBatch hs hpaid
    have hreturns := runs_read (fun _ => rfl) rfl hrest
    have hrows : ∀ y ∈ u.store.db.batch batchId, ∃ r ∈ s.db.batch batchId,
        y.id = r.id ∧ (y.custodyReturnedAt.isSome = true → r ∈ back) := by
      obtain ⟨f, hf, hsame, -, hbatch⟩ := hu.cards
      intro y hy
      rw [batch_eq_map hf hsame batchId] at hy
      obtain ⟨r, hr, rfl⟩ := List.mem_map.mp hy
      refine ⟨r, hr, (hsame r (mem_batch.mp hr).1).id, fun hsome => ?_⟩
      exact of_decide_eq_true ((hbatch r hr).returnedAt.symm.trans hsome)
    obtain ⟨returns, z, hz, hlast⟩ | ⟨e, herror, rfl⟩ := runs_admin_bind.mp hreturns
    · obtain ⟨rfl, rfl⟩ := hlast
      obtain ⟨back', hback', hmore, hall⟩ := hu.returnRows hs hrows hz
      refine ⟨usdc', back', hback', ⟨hfurther.usdc, hmore⟩, fun result hresult => ?_⟩
      obtain rfl := Except.ok.inj hresult
      exact ⟨hdone paid rfl, hall returns rfl⟩
    · obtain ⟨back', hback', hmore, -⟩ := hu.returnRows hs hrows herror
      exact ⟨usdc', back', hback', ⟨hfurther.usdc, hmore⟩, fun result hresult => by cases hresult⟩
  · obtain ⟨usdc', hu, hfurther, -⟩ := h.refundUsdcBatch hs herror
    exact ⟨usdc', back, hu, hfurther, fun result hresult => by cases hresult⟩

/-- What a run of refunds leaves behind, and which legs its successes stand for. -/
theorem Legs.calls {calls : List (BatchRefund × Except HttpError Unit)}
    (hcalls : ∀ c ∈ calls, c.1.Concerns s batchId)
    (h : Legs cfg batchId s usdc back v.store)
    (hrun : Calls (alone cfg) (SeesTransfers cfg) (BatchRefund.task cfg batchId) calls v w) :
    ∃ usdc' back', Legs cfg batchId s usdc' back' w.store ∧ Further usdc usdc' back back' ∧
      ((BatchRefund.refundUsdcBatch, .ok ()) ∈ calls → usdc' = true) ∧
      ∀ r ∈ s.db.batch batchId, (BatchRefund.returnNft r.id, .ok ()) ∈ calls → r ∈ back' := by
  induction calls generalizing v usdc back with
  | nil =>
    obtain rfl := hrun
    exact ⟨usdc, back, h, Further.refl usdc back, (fun hmem => by cases hmem),
      fun r _ hmem => by cases hmem⟩
  | cons c calls ih =>
    obtain ⟨call, o⟩ := c
    obtain ⟨u, hcall, hrest⟩ := hrun
    have hstep : ∃ usdc' back', Legs cfg batchId s usdc' back' u.store ∧ Further usdc usdc' back back' ∧
        (call = .refundUsdcBatch → o = .ok () → usdc' = true) ∧
        ∀ r ∈ s.db.batch batchId, call = .returnNft r.id → o = .ok () → r ∈ back' := by
      cases call with
      | refundUsdcBatch =>
        obtain ⟨z, hz, hmap⟩ := Prog.runs_discard.mp hcall
        obtain ⟨usdc', hu, hfurther, hdone⟩ := h.refundUsdcBatch hs hz
        refine ⟨usdc', back, hu, hfurther, fun _ ho => ?_, fun r _ hcall' => by cases hcall'⟩
        cases z with
        | ok result => exact hdone result rfl
        | error e => cases hmap.trans ho
      | returnNft id =>
        obtain ⟨z, hz, hmap⟩ := Prog.runs_discard.mp hcall
        obtain ⟨r, hr, rfl⟩ := hcalls _ List.mem_cons_self
        obtain ⟨back', hu, hmore, hdone⟩ := h.returnNft hs hr hz
        refine ⟨usdc, back', hu, ⟨fun husdc => husdc, hmore⟩, (fun hcall' => by cases hcall'),
          fun r' hr' hid ho => ?_⟩
        obtain rfl := Db.Table.key_inj (mem_batch.mp hr').1 (mem_batch.mp hr).1
          (BatchRefund.returnNft.inj hid).symm
        cases z with
        | ok result => exact hdone result rfl
        | error e => cases hmap.trans ho
      | refundFullBatch =>
        obtain ⟨z, hz, -⟩ := Prog.runs_discard.mp hcall
        obtain ⟨usdc', back', hu, hfurther, -⟩ := h.refundFullBatch hs hz
        exact ⟨usdc', back', hu, hfurther, (fun hcall' => by cases hcall'),
          fun r _ hcall' => by cases hcall'⟩
    obtain ⟨usdc₁, back₁, hu, hfurther₁, husdc₁, hback₁⟩ := hstep
    obtain ⟨usdc₂, back₂, hw, hfurther₂, husdc₂, hback₂⟩ :=
      ih (fun c hc => hcalls c (List.mem_cons_of_mem _ hc)) hu hrest
    refine ⟨usdc₂, back₂, hw, hfurther₁.trans hfurther₂, fun hmem => ?_, fun r hr hmem => ?_⟩
    · rcases List.mem_cons.mp hmem with heq | hin
      · obtain ⟨rfl, rfl⟩ := Prod.mk.inj heq
        exact hfurther₂.usdc (husdc₁ rfl rfl)
      · exact husdc₂ hin
    · rcases List.mem_cons.mp hmem with heq | hin
      · obtain ⟨rfl, rfl⟩ := Prod.mk.inj heq
        exact hfurther₂.back (hback₁ r hr rfl rfl)
      · exact hback₂ r hr hin

end Calls

/-- Every card of the batch is refunded with one transfer for each of its legs. -/
structure RefundedInFull (cfg : Config) (batchId : JsStr) (s t : Store) : Prop where
  rows : (t.db.batch batchId).map VaultRedemption.id = (s.db.batch batchId).map VaultRedemption.id ∧
    ∀ r ∈ t.db.batch batchId, r.status = .refunded ∧ r.refundStatus = .fullyRefunded
  cycles : ∀ r ∈ s.db.batch batchId,
    (t.db.cycles.get r.vaultCycleId).map VaultCycle.status = some .minted
  usdc : ∃ first, (s.db.batch batchId).head? = some first ∧ t.db.sent = s.db.sent ++
    [(batchId, first.ownerWalletAddress, refundMicros s.db batchId, cfg.env.resolveChainId first.chainId)]
  nfts : ∃ L, t.returned = s.returned ++ L ∧ (L.map some).Perm
    (((s.db.batch batchId).filter fun r => r.status = .inCustody).map (s.returnOf cfg))

/-- The same tables and the same chain, hashes and times of refunds apart. -/
structure SameButStamps (t u : Store) : Prop where
  rows : ∀ id, (t.db.redemptions.get id).map bare = (u.db.redemptions.get id).map bare
  cycles : ∀ id, t.db.cycles.get id = u.db.cycles.get id
  claims : t.db.claims = u.db.claims
  tokens : t.db.tokens = u.db.tokens
  assets : t.assets = u.assets
  sent : t.db.sent = u.db.sent
  returned : t.returned.Perm u.returned
  owner : t.owner = u.owner

section Ends
variable {cfg : Config} {batchId : JsStr} {s t u : Store} {back back' : List VaultRedemption}

/-- Which owner an NFT has does not depend on the order in which the cards were returned. -/
theorem OwnersAfter.ext (ht : OwnersAfter cfg s back t) (hu : OwnersAfter cfg s back' u)
    (hback : ∀ r, r ∈ back ↔ r ∈ back') : t.owner = u.owner := by
  funext nft
  by_cases hsent : ∃ r ∈ back, ∃ c ∈ s.returnOf cfg r, (c.chainId, c.tokenId) = nft
  · obtain ⟨r, hr, c, hc, rfl⟩ := hsent
    by_cases hall : ∀ r' ∈ back, ∀ c' ∈ s.returnOf cfg r',
        (c'.chainId, c'.tokenId) = (c.chainId, c.tokenId) →
          lower (trim c'.to_) = cfg.custodyWallet c'.chainId
    · rw [ht.held r hr c hc hall]
      exact (hu.held r ((hback r).mp hr) c hc fun r' hr' => hall r' ((hback r').mpr hr')).symm
    · push Not at hall
      obtain ⟨r', hr', c', hc', hsame, hto⟩ := hall
      rw [← hsame, ht.handedBack r' hr' c' hc' hto]
      exact (hu.handedBack r' ((hback r').mp hr') c' hc' hto).symm
  · have hnot : ∀ r ∈ back, ∀ c ∈ s.returnOf cfg r, (c.chainId, c.tokenId) ≠ nft :=
      fun r hr c hc hsame => hsent ⟨r, hr, c, hc, hsame⟩
    rw [ht.kept nft hnot]
    exact (hu.kept nft fun r hr => hnot r ((hback r).mpr hr)).symm

theorem Legs.sameButStamps (ht : Legs cfg batchId s true back t) (hu : Legs cfg batchId s true back' u)
    (hback : ∀ r, r ∈ back ↔ r ∈ back') : SameButStamps t u := by
  obtain ⟨f, hf, hsame, hother, hbatch⟩ := ht.cards
  obtain ⟨g, hg, hsame', hother', hbatch'⟩ := hu.cards
  refine ⟨fun id => ?_, fun id => ?_, ht.claims.trans hu.claims.symm, ht.tokens.trans hu.tokens.symm,
    ht.assets.trans hu.assets.symm, ht.sent.trans hu.sent.symm, ?_, ht.owners.ext hu.owners hback⟩
  · rw [Db.Table.get_of_rows_eq_map hf (fun r hr => (hsame r hr).id),
      Db.Table.get_of_rows_eq_map hg (fun r hr => (hsame' r hr).id)]
    cases hget : s.db.redemptions.get id with
    | none => rfl
    | some r =>
      have hmem := Db.Table.mem_of_get hget
      rw [Option.map_some, Option.map_some, Option.map_some, Option.map_some]
      cases hin : r.inBatch batchId with
      | true =>
        have hr := mem_batch.mpr ⟨hmem, hin⟩
        rw [(hbatch r hr).bare_eq, (hbatch' r hr).bare_eq, decide_eq_decide.mpr (hback r)]
      | false => rw [hother r hmem hin, hother' r hmem hin]
  · rw [ht.cycles, hu.cycles]
    simp only [hback]
  · obtain ⟨L, hL, hLback⟩ := ht.returned
    obtain ⟨L', hL', hLback'⟩ := hu.returned
    have hperm : back.Perm back' := (List.perm_ext_iff_of_nodup ht.nodup hu.nodup).mpr hback
    have hmaps : (L.map some).Perm (L'.map some) := by
      rw [hLback, hLback']
      exact hperm.map _
    have hlists : L.Perm L' := by
      have hfilter := hmaps.filterMap id
      rwa [List.filterMap_map, List.filterMap_map, Function.id_comp, List.filterMap_some,
        List.filterMap_some] at hfilter
    rw [hL, hL']
    exact hlists.append_left _

theorem Legs.refundedInFull (hs : ∀ r ∈ s.db.batch batchId, Unrefunded r)
    (hcycles : ∀ r ∈ s.db.batch batchId,
      (s.db.cycles.get r.vaultCycleId).map VaultCycle.status = some .redemptionRequested)
    (h : Legs cfg batchId s true back t)
    (hback : ∀ r ∈ s.db.batch batchId, r.status = .inCustody → r ∈ back) :
    RefundedInFull cfg batchId s t := by
  obtain ⟨f, hf, hsame, -, hbatch⟩ := h.cards
  have hbatchMap : t.db.batch batchId = (s.db.batch batchId).map f := batch_eq_map hf hsame batchId
  have hclosed : ∀ r ∈ s.db.batch batchId, closedBy true (decide (r ∈ back)) r = true := by
    intro r hr
    by_cases hcustody : r.status = .inCustody
    · rw [decide_eq_true (hback r hr hcustody)]
      rfl
    · simp [closedBy, hcustody]
  refine ⟨⟨?_, fun y hy => ?_⟩, fun r hr => ?_, ?_, ?_⟩
  · rw [hbatchMap, List.map_map]
    exact List.map_congr_left fun r hr => (hsame r (mem_batch.mp hr).1).id
  · rw [hbatchMap] at hy
    obtain ⟨r, hr, rfl⟩ := List.mem_map.mp hy
    refine ⟨((hbatch r hr).status_eq_refunded (hs r hr)).mpr (hclosed r hr), ?_⟩
    rw [(hbatch r hr).refundStatus, refundStatusAfter, if_pos (hclosed r hr)]
  · obtain ⟨c, hc, hrequested⟩ := Option.map_eq_some_iff.mp (hcycles r hr)
    have hreset : ∃ r' ∈ s.db.batch batchId, r'.vaultCycleId = r.vaultCycleId ∧
        closedBy true (decide (r' ∈ back)) r' = true := ⟨r, hr, rfl, hclosed r hr⟩
    rw [h.cycles, hc, Option.map_some, Option.map_some, if_pos hreset, reopened, if_pos hrequested]
    rfl
  · obtain ⟨first, rest, hcons⟩ := List.exists_cons_of_ne_nil (h.nonempty rfl)
    have hhead : (s.db.batch batchId).head? = some first := by rw [hcons]; rfl
    refine ⟨first, hhead, ?_⟩
    rw [h.sent, if_pos rfl, Store.usdcLeg, hhead]
    rfl
  · obtain ⟨L, hL, hLback⟩ := h.returned
    refine ⟨L, hL, ?_⟩
    have hnodup : ((s.db.batch batchId).filter fun r => r.status = .inCustody).Nodup := by
      have hdistinct : (s.db.batch batchId).Nodup :=
        (batch_distinct s.db batchId).imp fun hne heq => hne (congrArg VaultRedemption.id heq)
      exact hdistinct.filter _
    have hperm : back.Perm ((s.db.batch batchId).filter fun r => r.status = .inCustody) := by
      refine (List.perm_ext_iff_of_nodup h.nodup hnodup).mpr fun r => ?_
      rw [List.mem_filter, decide_eq_true_eq]
      exact ⟨h.back_mem r, fun hr => hback r hr.1 hr.2⟩
    rw [hLback]
    exact hperm.map _

end Ends

def Settled (r : VaultRedemption) : Prop := r.status = .refunded ↔ r.refundStatus = .fullyRefunded

instance (r : VaultRedemption) : Decidable (Settled r) := by unfold Settled; infer_instance

theorem settled_applyUsdcRefundFields {r : VaultRedemption} (hr : Settled r) (h m : JsStr) (a : ℕ) :
    Settled (r.applyUsdcRefundFields h m a) := by
  unfold Settled
  rw [VaultRedemption.status_applyUsdcRefundFields, VaultRedemption.refundStatus_applyUsdcRefundFields]
  split_ifs with hcloses
  · exact iff_of_true rfl rfl
  · refine iff_of_false (fun hstatus => hcloses ?_) not_false
    have hfully : r.refundStatus = .fullyRefunded := hr.mp hstatus
    simp [VaultRedemption.nftReturned, hfully]

theorem settled_applyNftReturnFields {r : VaultRedemption} (hr : Settled r) (h : JsStr) (a : ℕ) :
    Settled (r.applyNftReturnFields h a) := by
  by_cases hopen : r.usdcRefunded = true
  · have hrow : r.applyNftReturnFields h a =
        { r with
          custodyReturnTxHash := some h, custodyReturnedAt := some a
          refundStatus := .fullyRefunded, status := .refunded } := if_pos hopen
    rw [hrow]
    exact iff_of_true rfl rfl
  · have hrow : r.applyNftReturnFields h a =
        { r with
          custodyReturnTxHash := some h, custodyReturnedAt := some a, refundStatus := .nftReturned } :=
      if_neg hopen
    rw [hrow]
    refine iff_of_false (fun hstatus => hopen ?_) RefundStatus.noConfusion
    have hfully : r.refundStatus = .fullyRefunded := hr.mp hstatus
    simp [VaultRedemption.usdcRefunded, hfully]

section Status
variable {cfg : Config} {batchId : JsStr}

/-- The rows of the batch that a read answers with agree in their columns. -/
def AnswersSettled (batchId : JsStr) : (c : LockCmd JsStr ⊕ Cmd) → LockRes JsStr Res c → Prop
  | .inr (.redeem (.findBatch _)), (rows : List VaultRedemption) =>
    ∀ r ∈ rows, r.inBatch batchId = true → Settled r
  | .inr (.redeem (.findRedemption _)), (found : Option VaultRedemption) =>
    ∀ r ∈ found, r.inBatch batchId = true → Settled r
  | _, _ => True

def SavesSettled (batchId : JsStr) : LockCmd JsStr ⊕ Cmd → Prop
  | .inr (.redeem (.saveRedemptions rows)) => ∀ p ∈ rows, p.2.inBatch batchId = true → Settled p.2
  | _ => True

theorem refundSaves_settled :
    RefundSaves (adminAns (AnswersSettled batchId)) (adminCmd (SavesSettled batchId)) where
  lock _ := trivial
  read c hc := by
    cases c with
    | saveRedemptions rows => exact absurd rfl (hc rows)
    | _ => trivial
  usdc b rows hrows _ txHash amountMicros at_ := by
    intro p hp hin
    obtain ⟨r, hr, rfl⟩ := List.mem_map.mp hp
    rw [VaultRedemption.inBatch, VaultRedemption.paymentBatchId_applyUsdcRefundFields] at hin
    exact settled_applyUsdcRefundFields (hrows r hr hin) _ _ _
  nft id found hfound r hr _ txHash at_ := by
    intro p hp hin
    obtain rfl := List.mem_singleton.mp hp
    rw [VaultRedemption.inBatch, VaultRedemption.paymentBatchId_applyNftReturnFields] at hin
    exact settled_applyNftReturnFields (hfound r hr hin) _ _

theorem issues_task (call : BatchRefund) :
    (call.task cfg batchId).IssuesGiven (AnswersSettled batchId) (SavesSettled batchId) := by
  cases call with
  | refundUsdcBatch => exact given_discard (issuesGiven_admin (refundSaves_settled.refundUsdcBatch batchId))
  | returnNft id => exact given_discard (issuesGiven_admin (refundSaves_settled.returnNft id))
  | refundFullBatch => exact given_discard (issuesGiven_admin (refundSaves_settled.refundFullBatch batchId))

def AllSettled (batchId : JsStr) (v : Logged) : Prop :=
  ∀ r ∈ v.store.db.redemptions.rows, r.inBatch batchId = true → Settled r

theorem allSettled_step {c : LockCmd JsStr ⊕ Cmd} (hc : SavesSettled batchId c) (v : Logged) (x : Answer)
    (hv : AllSettled batchId v) :
    AnswersSettled batchId c (alone cfg v x c).1 ∧ AllSettled batchId (alone cfg v x c).2 := by
  rcases c with l | c
  · exact ⟨trivial, hv⟩
  · refine ⟨?_, fun r hr hin => ?_⟩
    · rcases c with c | _ | _ | _ | _ | _ | _ | _ | _
      · cases c with
        | findBatch b => exact fun r hr => hv r (mem_batch.mp hr).1
        | findRedemption id => exact fun r hr => hv r (Db.Table.mem_of_get hr)
        | _ => trivial
      all_goals trivial
    · have hrow : r ∈ (exec cfg v.store x c).2.db.redemptions.rows := hr
      rw [redemptions_exec] at hrow
      split at hrow
      · rename_i rows
        rcases Db.Table.mem_saveAll hrow with hnew | ⟨hold, -⟩
        · obtain ⟨p, hp, rfl⟩ := List.mem_map.mp hnew
          exact hc p hp hin
        · exact hv r hold hin
      · exact hv r hrow hin

end Status

/-- A sequence of refunds of a batch, in any order and with repetitions, in which every leg succeeds
once and no transfer is lost from sight, refunds every card with one transfer for each leg, ends as
any complete `refundFullBatch` does, and never sets one of the two columns without the other. -/
theorem refunds_in_any_order {cfg : Config} {batchId : JsStr} {s : Store} {t : Logged}
    {calls : List (BatchRefund × Except HttpError Unit)} {states : List Logged}
    (hs : ∀ r ∈ s.db.batch batchId, Unrefunded r)
    (hcycles : ∀ r ∈ s.db.batch batchId,
      (s.db.cycles.get r.vaultCycleId).map VaultCycle.status = some .redemptionRequested)
    (hrun : Calls (recorded (alone cfg)) (AllowedStep.recorded (SeesTransfers cfg))
      (BatchRefund.task cfg batchId) calls (⟨s, []⟩, [⟨s, []⟩]) (t, states))
    (hcalls : ∀ c ∈ calls, c.1.Concerns s batchId)
    (husdc : (BatchRefund.refundUsdcBatch, .ok ()) ∈ calls)
    (hnfts : ∀ r ∈ s.db.batch batchId, r.status = .inCustody →
      (BatchRefund.returnNft r.id, .ok ()) ∈ calls) :
    RefundedInFull cfg batchId s t.store ∧
      (∀ result u, (admin (Redeem.refundFullBatch cfg.env batchId)).Runs (alone cfg) (SeesTransfers cfg)
          ⟨s, []⟩ (.ok result) u →
        (∀ r ∈ s.db.batch batchId, r.status = .inCustody →
          ∃ e ∈ result.nftReturns, e.redemptionId = r.id ∧ e.skipped = none) →
        SameButStamps t.store u.store) ∧
      ∀ v ∈ states, ∀ r ∈ v.store.db.batch batchId, r.status = .refunded ↔ r.refundStatus = .fullyRefunded := by
  have hstart : Legs cfg batchId s false [] (⟨s, []⟩ : Logged).store := Legs.start hs
  obtain ⟨usdc, back, ht, -, hpaid, hback⟩ := hstart.calls hs hcalls (calls_recorded hrun)
  obtain rfl := hpaid husdc
  have hall : ∀ r ∈ s.db.batch batchId, r.status = .inCustody → r ∈ back :=
    fun r hr hcustody => hback r hr (hnfts r hr hcustody)
  refine ⟨ht.refundedInFull hs hcycles hall, fun result u hfull hreturns => ?_, fun v hv r hr => ?_⟩
  · obtain ⟨usdc', back', hu, -, hdone⟩ := hstart.refundFullBatch hs hfull
    obtain ⟨rfl, hentries⟩ := hdone result rfl
    have hall' : ∀ r ∈ s.db.batch batchId, r.status = .inCustody → r ∈ back' := by
      intro r hr hcustody
      obtain ⟨e, he, hid, hnone⟩ := hreturns r hr hcustody
      exact hentries e he hnone r hr hid.symm
    refine ht.sameButStamps hu fun r => ⟨fun hr => ?_, fun hr => ?_⟩
    · obtain ⟨hmem, hcustody⟩ := ht.back_mem r hr
      exact hall' r hmem hcustody
    · obtain ⟨hmem, hcustody⟩ := hu.back_mem r hr
      exact hall r hmem hcustody
  · have hfirst : AllSettled batchId ⟨s, []⟩ := by
      intro r hr hin
      have hfresh := hs r (mem_batch.mpr ⟨hr, hin⟩)
      refine iff_of_false (fun hstatus => ?_) (fun hrefund => ?_)
      · obtain hcustody | ⟨hverified, -⟩ := hfresh.2.2.2
        · cases hstatus.symm.trans hcustody
        · cases hstatus.symm.trans hverified
      · cases hrefund.symm.trans hfresh.1
    have hsettled := calls_recorded_keep (fun c hc u x _ hu => allSettled_step hc u x hu)
      (fun c _ => issues_task c.1) hrun hfirst (fun u hu => List.mem_singleton.mp hu ▸ hfirst)
    obtain ⟨hmem, hin⟩ := mem_batch.mp hr
    exact hsettled v hv r hmem hin

section Runs

/-- The NFT first, and every call twice. -/
def returnThenRefund : List (BatchRefund × Answer) :=
  [(.returnNft (js "r1"), minedAs "0x01"), (.refundUsdcBatch, minedAs "0x02"),
    (.refundUsdcBatch, minedAs "0x03"), (.returnNft (js "r1"), minedAs "0x04")]

theorem refunds_in_any_order_returnThenRefund : ∃ calls t states,
    Calls (recorded (alone sepolia)) (AllowedStep.recorded (SeesTransfers sepolia))
      (BatchRefund.task sepolia (js "b")) calls
        (⟨twoCards custodyCard, []⟩, [⟨twoCards custodyCard, []⟩]) (t, states) ∧
      calls = (returnThenRefund.map fun w => (w.1, .ok ())) ∧
      RefundedInFull sepolia (js "b") (twoCards custodyCard) t.store ∧
      ∃ result u, (admin (Redeem.refundFullBatch sepolia.env (js "b"))).Runs (alone sepolia)
        (SeesTransfers sepolia) ⟨twoCards custodyCard, []⟩ (.ok result) u ∧
          SameButStamps t.store u.store := by
  obtain ⟨calls, ⟨t, states⟩, hrun, hcalls⟩ : ∃ calls q,
      Calls (recorded (alone sepolia)) (AllowedStep.recorded (SeesTransfers sepolia))
        (BatchRefund.task sepolia (js "b")) calls
          (⟨twoCards custodyCard, []⟩, [⟨twoCards custodyCard, []⟩]) q ∧
        calls = returnThenRefund.map fun w => (w.1, .ok ()) :=
    exists_calls_of_played returnThenRefund (fun calls _ => calls) (by decide +kernel)
  obtain ⟨full, hfull, houtcome⟩ := Option.map_eq_some_iff.mp
    (show ((admin (Redeem.refundFullBatch sepolia.env (js "b"))).tryPlay (alone sepolia)
        (SeesTransfers sepolia) (minedAs "0x09") ⟨twoCards custodyCard, []⟩).map Prod.fst = some (.ok
          ⟨⟨some (js "0x09"), false⟩, [⟨js "r1", some (js "0x09"), false, none⟩,
            ⟨js "r2", none, false, some (js "never_in_custody")⟩]⟩) by decide +kernel)
  have hfullRun := Prog.runs_of_tryPlay hfull
  rw [houtcome] at hfullRun
  obtain ⟨hall, hsame, -⟩ := refunds_in_any_order (by decide) (by decide) hrun
    (by rw [hcalls]; decide) (by rw [hcalls]; decide) (by rw [hcalls]; decide)
  exact ⟨calls, t, states, hrun, hcalls, hall, _, full.2, hfullRun, hsame _ _ hfullRun (by decide)⟩

/-- The transfer of the first refund is mined, but the call fails while it waits for the receipt. -/
def unseenThenSeen : List (BatchRefund × Answer) :=
  [(.refundUsdcBatch, { minedAs "0x01" with
      wallet := ⟨feeAddress, 1000, .unseen (js "0x01") (.internal (js "timeout"))⟩ }),
    (.refundUsdcBatch, minedAs "0x02")]

theorem refunded_card_paid_twice :
    (∀ r ∈ (oneCard verifiedCard ownerAddress).db.batch (js "b"),
      Unrefunded r ∧ r.status ≠ .inCustody ∧ ((oneCard verifiedCard ownerAddress).db.cycles.get
        r.vaultCycleId).map VaultCycle.status = some .redemptionRequested) ∧
    ∃ calls q, Calls (recorded (alone sepolia)) (AllowedStep.recorded anyAnswer)
      (BatchRefund.task sepolia (js "b")) calls
      (⟨oneCard verifiedCard ownerAddress, []⟩, [⟨oneCard verifiedCard ownerAddress, []⟩]) q ∧
      (calls, q.1.store.db.usdcRefunds) =
        ([(.refundUsdcBatch, .error (.internal (js "timeout"))), (.refundUsdcBatch, .ok ())],
          [⟨js "b", ownerAddress, js "100", redeemV1ChainId, js "0x01"⟩,
            ⟨js "b", ownerAddress, js "100", redeemV1ChainId, js "0x02"⟩]) :=
  ⟨by decide, exists_calls_of_played unseenThenSeen (fun calls (q : Logged × List Logged) =>
    (calls, q.1.store.db.usdcRefunds))
    (by decide +kernel)⟩

end Runs

end Custody
