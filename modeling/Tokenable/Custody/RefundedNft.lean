import Tokenable.Custody.Intake
import Tokenable.Custody.RefundRuns

/-!
# Where the NFT is when a redemption is refunded

The refunds infer from the columns of a row whether its NFT is in custody, and an NFT can have
arrived without a confirmation. No row is set to `refunded` while custody owns its NFT, in any
sequence of transfers of the users, confirmations and refunds in which the two branches that close a
row are taken only for NFTs that are out of custody, or that the return sends out of it.
-/

namespace Custody
open Js Platform Async Vault Redeem

inductive RefundEvent where
  | userTransfer (nft : Nft) (to_ : JsStr)
  | confirmCustodyTransfers (batchId : JsStr) (transfers : List (ℕ × JsStr)) (chainId : ℕ)
  | refundUsdcBatch (batchId : JsStr)
  | returnNft (id : JsStr)
  | refundFullBatch (batchId : JsStr)

def RefundEvent.task (cfg : Config) : RefundEvent → M Unit
  | .userTransfer nft to_ => perform (.userTransfer nft to_)
  | .confirmCustodyTransfers batchId transfers chainId =>
    Custody.confirmCustodyTransfers cfg batchId transfers chainId
  | .refundUsdcBatch batchId => (admin (Redeem.refundUsdcBatch cfg.env batchId)).discard
  | .returnNft id => (admin (Redeem.returnNft cfg.env id)).discard
  | .refundFullBatch batchId => (admin (Redeem.refundFullBatch cfg.env batchId)).discard

/-- A refund of USDC closes the row. -/
def closedByUsdc (r : VaultRedemption) : Bool := r.nftReturned || !r.wasEverInCustody

/-- When a refund of USDC is sent, custody owns the NFT of no row that it closes; and when the NFT of
a row whose USDC has been refunded is returned while custody owns it, it is the token on the cycle
of the row, and it does not go to the custody wallet. -/
def ClosesOutOfCustody (cfg : Config) : AllowedStep Logged Answer (LockCmd JsStr ⊕ Cmd)
  | s, _, .inr (.redeem (.transferUsdc batchId ..)) =>
    ∀ r ∈ s.store.db.batch batchId, r.status ≠ .refunded → closedByUsdc r = true →
      ¬ s.store.Held cfg r
  | s, _, .inr (.redeem (.findRedemption id)) =>
    ∀ r ∈ s.store.db.redemptions.get id, r.usdcRefunded = true → s.store.Held cfg r →
      s.store.returnedToken r = s.store.tokenIdForRedemption r.id ∧
        lower (trim r.ownerWalletAddress) ≠ cfg.custodyWallet (cfg.env.resolveChainId r.chainId)
  | _, _, _ => True

instance (cfg : Config) (s : Logged) (x : Answer) (c : LockCmd JsStr ⊕ Cmd) :
    Decidable (ClosesOutOfCustody cfg s x c) := by
  unfold ClosesOutOfCustody
  split <;> infer_instance

/-- Custody owned the NFT of no row when it was set to `refunded`. -/
def ClosedInHand (s : Logged) : Prop := ∀ e ∈ s.closings, e.heldByCustody = false

instance (s : Logged) : Decidable (ClosedInHand s) := by unfold ClosedInHand; infer_instance

section Held
variable {cfg : Config} {s t : Store} {r r' : VaultRedemption}

/-- Which NFT is handed over for a row depends on the tables only. -/
theorem nftOf_congr (hrows : t.db.redemptions = s.db.redemptions) (hcycles : t.db.cycles = s.db.cycles)
    (htokens : t.db.tokens = s.db.tokens) (hassets : t.assets = s.assets) (hid : r'.id = r.id)
    (hchain : r'.chainId = r.chainId) : t.nftOf cfg r' = s.nftOf cfg r := by
  unfold Store.nftOf Store.tokenIdForRedemption
  rw [hrows, hcycles, htokens, hassets, hid, hchain]

theorem chainId_applyUsdcRefundFields (r : VaultRedemption) (h m : JsStr) (a : ℕ) :
    (r.applyUsdcRefundFields h m a).chainId = r.chainId := by
  unfold VaultRedemption.applyUsdcRefundFields
  dsimp only
  split_ifs <;> rfl

theorem chainId_applyNftReturnFields (r : VaultRedemption) (h : JsStr) (a : ℕ) :
    (r.applyNftReturnFields h a).chainId = r.chainId := by
  unfold VaultRedemption.applyNftReturnFields
  dsimp only
  split_ifs <;> rfl

/-- A return closes a row whose USDC has been refunded. -/
theorem usdcRefunded_of_status {r : VaultRedemption} {h : JsStr} {a : ℕ}
    (hstatus : (r.applyNftReturnFields h a).status = .refunded) (hopen : r.status ≠ .refunded) :
    r.usdcRefunded = true := by
  by_contra hnot
  have hsame : (r.applyNftReturnFields h a).status = r.status := by
    unfold VaultRedemption.applyNftReturnFields
    dsimp only
    split_ifs with hcopy
    · exact absurd hcopy hnot
    · rfl
  exact hopen (hsame ▸ hstatus)

end Held

section Steps
variable {cfg : Config} {s t : Logged}

theorem paid_store (s : Logged) (batchId to_ amountMicros : JsStr) (chainId : ℕ) (T : Transfer) :
    (s.paid batchId to_ amountMicros chainId T).store.db.redemptions = s.store.db.redemptions ∧
      (s.paid batchId to_ amountMicros chainId T).store.db.cycles = s.store.db.cycles ∧
      (s.paid batchId to_ amountMicros chainId T).store.db.tokens = s.store.db.tokens ∧
      (s.paid batchId to_ amountMicros chainId T).store.assets = s.store.assets ∧
      (s.paid batchId to_ amountMicros chainId T).store.owner = s.store.owner := by
  unfold Logged.paid
  cases T.moved <;> exact ⟨rfl, rfl, rfl, rfl, rfl⟩

theorem closings_save {rows : List (VaultRedemption × VaultRedemption)} {e : Closing}
    (he : e ∈ (s.save cfg rows).closings) : e ∈ s.closings ∨ ∃ p ∈ rows, p.2.status = .refunded ∧
      (s.store.db.redemptions.get p.2.id).map VaultRedemption.status ≠ some .refunded ∧
        e.heldByCustody = decide (s.store.Held cfg p.2) := by
  rcases List.mem_append.mp he with hold | hnew
  · exact .inl hold
  · obtain ⟨r, hr, rfl⟩ := List.mem_map.mp hnew
    obtain ⟨hr, hclosed⟩ := List.mem_filter.mp hr
    obtain ⟨p, hp, rfl⟩ := List.mem_map.mp hr
    obtain ⟨hstatus, hopen⟩ := of_decide_eq_true hclosed
    exact .inr ⟨p, hp, hstatus, hopen, rfl⟩

theorem closedInHand_refundUsdcBatch {batchId : JsStr} {o : Except HttpError RefundUsdcResult}
    (hs : ClosedInHand s)
    (h : (admin (Redeem.refundUsdcBatch cfg.env batchId)).Runs (alone cfg) (ClosesOutOfCustody cfg)
      s o t) : ClosedInHand t := by
  obtain ⟨rfl, -⟩ | ⟨first, amountMicros, x, -, hok, hend⟩ := runs_refundUsdcBatch h
  · exact hs
  · cases hend with
    | failed e he => exact hs
    | recorded txHash at_ hanswer =>
      intro e he
      obtain hold | ⟨p, hp, hstatus, hopen, hheld⟩ := closings_save he
      · exact hs e hold
      · obtain ⟨r, hr, rfl⟩ := List.mem_map.mp hp
        obtain ⟨hrows, hcycles, htokens, hassets, howner⟩ := paid_store s batchId
          first.ownerWalletAddress amountMicros (cfg.env.resolveChainId first.chainId)
          (Platform.transferUsdc cfg.env x.wallet first.ownerWalletAddress amountMicros
            (cfg.env.resolveChainId first.chainId))
        have hstored : s.store.db.redemptions.get r.id = some r :=
          Db.Table.get_of_mem (mem_batch.mp hr).1
        have hnotYet : r.status ≠ .refunded := by
          intro hrefunded
          refine hopen ?_
          rw [hrows, VaultRedemption.id_applyUsdcRefundFields, hstored, Option.map_some, hrefunded]
        have hcloses : closedByUsdc r = true := by
          dsimp only at hstatus
          rw [VaultRedemption.status_applyUsdcRefundFields] at hstatus
          by_contra hnot
          exact hnotYet ((if_neg hnot).symm.trans hstatus)
        have hout := hok r hr hnotYet hcloses
        rw [hheld, decide_eq_false_iff_not]
        unfold Store.Held at hout ⊢
        rw [nftOf_congr hrows hcycles htokens hassets (VaultRedemption.id_applyUsdcRefundFields r _ _ _)
          (chainId_applyUsdcRefundFields r _ _ _), howner]
        exact hout

/-- After its NFT has been sent back, custody does not own the NFT of a row that is closed so. -/
theorem not_held_moved {row row' : VaultRedemption} {tokenId : ℕ} {txHash : JsStr}
    (hid : row'.id = row.id) (hchain : row'.chainId = row.chainId)
    (htoken : (s.store.returnedToken row).bind toNumber = some tokenId)
    (howner : s.store.owner (cfg.env.resolveChainId row.chainId, tokenId) =
      some (cfg.custodyWallet (cfg.env.resolveChainId row.chainId)))
    (hheld : s.store.Held cfg row →
      s.store.returnedToken row = s.store.tokenIdForRedemption row.id ∧
        lower (trim row.ownerWalletAddress) ≠ cfg.custodyWallet (cfg.env.resolveChainId row.chainId)) :
    ¬ (s.moved tokenId row.ownerWalletAddress (cfg.env.resolveChainId row.chainId)
      (.mined txHash)).store.Held cfg row' := by
  rintro ⟨nft, hnft, hcustody⟩
  have hnft : nft ∈ s.store.nftOf cfg row := by
    rwa [nftOf_congr (t := (s.moved tokenId row.ownerWalletAddress
      (cfg.env.resolveChainId row.chainId) (.mined txHash)).store) rfl rfl rfl rfl hid hchain] at hnft
  have hupdated : Function.update s.store.owner (cfg.env.resolveChainId row.chainId, tokenId)
      (some (lower (trim row.ownerWalletAddress))) nft = some (cfg.custodyWallet nft.1) := hcustody
  by_cases hsame : nft = (cfg.env.resolveChainId row.chainId, tokenId)
  · obtain ⟨-, hother⟩ := hheld ⟨nft, hnft, by rw [hsame]; exact howner⟩
    rw [hsame, Function.update_self] at hupdated
    exact hother (Option.some.inj hupdated)
  · rw [Function.update_of_ne hsame] at hupdated
    obtain ⟨htokens, -⟩ := hheld ⟨nft, hnft, hupdated⟩
    have hreturned : s.store.nftOf cfg row = some (cfg.env.resolveChainId row.chainId, tokenId) := by
      unfold Store.nftOf
      rw [← htokens, htoken, Option.map_some]
    rw [hreturned] at hnft
    exact hsame (Option.some.inj hnft).symm

theorem closedInHand_returnNft {id : JsStr} {o : Except HttpError ReturnNftResult}
    (hs : ClosedInHand s)
    (h : (admin (Redeem.returnNft cfg.env id)).Runs (alone cfg) (ClosesOutOfCustody cfg) s o t) :
    ClosedInHand t := by
  obtain ⟨rfl, -⟩ | ⟨row, tokenId, x, y, hdue, hok, -, hend⟩ := runs_returnNft h
  · exact hs
  · cases hend with
    | failed e he => exact hs
    | recorded txHash at_ hanswer =>
      obtain ⟨hmined, howner, -⟩ := transferFromCustody_ok hanswer
      rw [hmined]
      intro e he
      obtain hold | ⟨p, hp, hstatus, hopen, hheld⟩ := closings_save he
      · exact hs e hold
      · obtain rfl := List.mem_singleton.mp hp
        have hnotYet : row.status ≠ .refunded := by
          intro hrefunded
          refine hopen ?_
          have hstored : s.store.db.redemptions.get row.id = some row :=
            (Db.Table.get_key hdue.found).symm ▸ hdue.found
          rw [VaultRedemption.id_applyNftReturnFields]
          exact (congrArg (Option.map VaultRedemption.status) hstored).trans (congrArg some hrefunded)
        have husdc : row.usdcRefunded = true := usdcRefunded_of_status hstatus hnotYet
        rw [hheld, decide_eq_false_iff_not]
        exact not_held_moved (VaultRedemption.id_applyNftReturnFields row _ _)
          (chainId_applyNftReturnFields row _ _) hdue.token howner (hok row hdue.found husdc)

theorem closedInHand_returnRows {rows : List VaultRedemption} {o : Except HttpError (List NftReturn)}
    (hs : ClosedInHand s)
    (h : (admin (returnRows cfg.env rows)).Runs (alone cfg) (ClosesOutOfCustody cfg) s o t) :
    ClosedInHand t := by
  induction rows generalizing s o t with
  | nil => exact h.2 ▸ hs
  | cons row rows ih =>
    have hrow : ∀ {r u}, (admin (returnRow cfg.env row)).Runs (alone cfg) (ClosesOutOfCustody cfg)
        s r u → ClosedInHand u := by
      intro r u hru
      unfold returnRow at hru
      split_ifs at hru
      · rw [admin_settle] at hru
        obtain ⟨r', v, hreturn, hlast⟩ := Prog.runs_settle.mp hru
        have hv : ClosedInHand v := closedInHand_returnNft hs hreturn
        cases r' with
        | ok result => exact hlast.2 ▸ hv
        | error e => exact hlast.2 ▸ hv
      · exact hru.2 ▸ hs
      · exact hru.2 ▸ hs
    obtain ⟨entry, u, hentry, hrest⟩ | ⟨e, herror, -⟩ := runs_admin_bind.mp h
    · obtain ⟨rest, v, hrows, hlast⟩ | ⟨e, herror, -⟩ := runs_admin_bind.mp hrest
      · have hv : ClosedInHand v := ih (hrow hentry) hrows
        exact hlast.2 ▸ hv
      · exact ih (hrow hentry) herror
    · exact hrow herror

theorem closedInHand_refundFullBatch {batchId : JsStr} {o : Except HttpError RefundFullResult}
    (hs : ClosedInHand s)
    (h : (admin (Redeem.refundFullBatch cfg.env batchId)).Runs (alone cfg) (ClosesOutOfCustody cfg)
      s o t) : ClosedInHand t := by
  obtain ⟨usdc, u, husdc, hrest⟩ | ⟨e, herror, -⟩ := runs_admin_bind.mp h
  · have hu : ClosedInHand u := closedInHand_refundUsdcBatch hs husdc
    obtain ⟨returned, v, hreturns, hlast⟩ | ⟨e, herror, -⟩ :=
      runs_admin_bind.mp (runs_read (fun _ => rfl) rfl hrest)
    · have hv : ClosedInHand v := closedInHand_returnRows hu hreturns
      exact hlast.2 ▸ hv
    · exact closedInHand_returnRows hu herror
  · exact closedInHand_refundUsdcBatch hs herror

/-- A call closes nothing that saves no refunded row. -/
def SavesOpen : LockCmd JsStr ⊕ Cmd → Prop
  | .inr (.redeem (.saveRedemptions rows)) => ∀ p ∈ rows, p.2.status ≠ .refunded
  | _ => True

theorem closingsOf_of_savesOpen {u : Store} {c : Cmd} (hc : SavesOpen (.inr c)) :
    u.closingsOf cfg c = [] := by
  unfold Store.closingsOf
  split
  · rename_i rows
    rw [List.map_eq_nil_iff, List.filter_eq_nil_iff]
    intro r hr hclosed
    obtain ⟨p, hp, rfl⟩ := List.mem_map.mp hr
    exact hc p hp (of_decide_eq_true hclosed).1
  · rfl

theorem closedInHand_of_savesOpen {α : Type} {p : M α} {o : Except HttpError α}
    (hp : p.IssuesGiven (fun _ _ => True) SavesOpen) (hs : ClosedInHand s)
    (h : p.Runs (alone cfg) (ClosesOutOfCustody cfg) s o t) : ClosedInHand t := by
  refine Prog.runs_keeps_given (fun c hc u x _ hu => ⟨trivial, ?_⟩) hp h hs
  rcases c with l | c
  · exact hu
  · intro e he
    have hlog : e ∈ u.closings ++ u.store.closingsOf cfg c := he
    rw [closingsOf_of_savesOpen hc, List.append_nil] at hlog
    exact hu e hlog

theorem savesOpen_confirmCustodyTransfers (batchId : JsStr) (transfers : List (ℕ × JsStr))
    (chainId : ℕ) : (confirmCustodyTransfers cfg batchId transfers chainId).IssuesGiven
      (fun _ _ => True) SavesOpen := by
  refine given_confirmCustodyTransfers (fun c hc => ?_) (fun id found _ r hr _ txHash at_ => ?_) _ _ _
  · rcases c with c | _ | _ | _ | _ | _ | _ | _ | _
    · cases c with
      | saveRedemptions rows => exact absurd rfl (hc rows)
      | _ => trivial
    all_goals trivial
  · intro p hp
    obtain rfl := List.mem_singleton.mp hp
    exact RedemptionStatus.noConfusion

theorem closedInHand_task {event : RefundEvent} {o : Except HttpError Unit} (hs : ClosedInHand s)
    (h : (event.task cfg).Runs (alone cfg) (ClosesOutOfCustody cfg) s o t) : ClosedInHand t := by
  cases event with
  | userTransfer nft to_ =>
    have hissues : (perform (.userTransfer nft to_)).IssuesGiven (fun _ _ => True) SavesOpen :=
      ⟨trivial, fun _ _ => trivial⟩
    exact closedInHand_of_savesOpen hissues hs h
  | confirmCustodyTransfers batchId transfers chainId =>
    exact closedInHand_of_savesOpen (savesOpen_confirmCustodyTransfers batchId transfers chainId) hs h
  | refundUsdcBatch batchId =>
    obtain ⟨r, hr, -⟩ := Prog.runs_discard.mp h
    exact closedInHand_refundUsdcBatch hs hr
  | returnNft id =>
    obtain ⟨r, hr, -⟩ := Prog.runs_discard.mp h
    exact closedInHand_returnNft hs hr
  | refundFullBatch batchId =>
    obtain ⟨r, hr, -⟩ := Prog.runs_discard.mp h
    exact closedInHand_refundFullBatch hs hr

end Steps

/-- In every sequence of transfers of the users, confirmations and refunds in which what the refunds
infer from the columns is so on the chain, custody owns the NFT of no row that is set to `refunded`. -/
theorem refunded_out_of_custody {cfg : Config} {s : Store} {t : Logged}
    {calls : List (RefundEvent × Except HttpError Unit)}
    (hrun : Calls (alone cfg) (ClosesOutOfCustody cfg) (RefundEvent.task cfg) calls ⟨s, []⟩ t) :
    ∀ e ∈ t.closings, e.heldByCustody = false := by
  have hstart : ClosedInHand ⟨s, []⟩ := fun e he => by cases he
  refine calls_keep (K := ClosedInHand) (fun c _ u v huv hu => ?_) hrun hstart
  exact closedInHand_task hu huv

section Runs

def refundThenReturn : List (RefundEvent × Answer) :=
  [(.refundUsdcBatch (js "b"), minedAs "0x01"), (.returnNft (js "r1"), minedAs "0x02")]

def shownClosings (t : Logged) : List Closing × List RedemptionStatus × Option JsStr :=
  (t.closings, t.store.db.redemptions.rows.map VaultRedemption.status,
    t.store.owner (redeemV1ChainId, 7))

theorem refunded_out_of_custody_refundThenReturn : ∃ calls t,
    Calls (alone sepolia) (ClosesOutOfCustody sepolia) (RefundEvent.task sepolia) calls
      ⟨oneCard custodyCard custodyAddress, []⟩ t ∧
      shownClosings t = ([⟨js "r1", false⟩], [.refunded], some ownerAddress) ∧
      ∀ e ∈ t.closings, e.heldByCustody = false := by
  obtain ⟨calls, t, hrun, hshown⟩ : ∃ calls t,
      Calls (alone sepolia) (ClosesOutOfCustody sepolia) (RefundEvent.task sepolia) calls
        ⟨oneCard custodyCard custodyAddress, []⟩ t ∧
        shownClosings t = ([⟨js "r1", false⟩], [.refunded], some ownerAddress) :=
    exists_calls_of_tryCalls refundThenReturn shownClosings (by decide +kernel)
  exact ⟨calls, t, hrun, hshown, refunded_out_of_custody hrun⟩

/-- The owner hands the NFT over, and the batch is refunded before that is confirmed. -/
def handOverThenRefund : List (RefundEvent × Answer) :=
  [(.userTransfer (redeemV1ChainId, 7) custodyAddress, minedAs "0x00"),
    (.refundUsdcBatch (js "b"), minedAs "0x01")]

theorem refunded_with_nft_in_custody : ∃ calls t,
    Calls (alone sepolia) anyAnswer (RefundEvent.task sepolia) calls
      ⟨oneCard verifiedCard ownerAddress, []⟩ t ∧
      shownClosings t = ([⟨js "r1", true⟩], [.refunded], some custodyAddress) :=
  exists_calls_of_tryCalls handOverThenRefund shownClosings (by decide +kernel)

end Runs

end Custody
