import Tokenable.Custody.Service
import Tokenable.Redeem.RefundRetry

/-!
# What one refund call does to the tables and the chain

Calls that run one after the other. `refundDue` decides what `refundUsdcBatch` does, and
`runs_refundUsdcBatch` says how it ends; `runs_returnNft` does so for `returnNft`. A `Closing`
records who owned the NFT of a redemption row when the row was set to `refunded`.
-/

namespace Custody
open Js Platform Async Vault Redeem

variable (cfg : Config)

def Store.nftOf (s : Store) (r : VaultRedemption) : Option Nft :=
  ((s.tokenIdForRedemption r.id).bind toNumber).map fun tokenId =>
    (cfg.env.resolveChainId r.chainId, tokenId)

/-- The custody wallet owns the NFT of the row. -/
def Store.Held (s : Store) (r : VaultRedemption) : Prop :=
  ∃ nft ∈ s.nftOf cfg r, s.owner nft = some (cfg.custodyWallet nft.1)

instance (s : Store) (r : VaultRedemption) : Decidable (s.Held cfg r) := by
  unfold Store.Held
  infer_instance

structure Closing where
  redemptionId : JsStr
  heldByCustody : Bool
  deriving DecidableEq

/-- The rows that a command sets to `refunded`. -/
def Store.closingsOf (s : Store) : Cmd → List Closing
  | .redeem (.saveRedemptions rows) =>
    ((rows.map Prod.snd).filter fun r => r.status = .refunded ∧
      (s.db.redemptions.get r.id).map VaultRedemption.status ≠ some .refunded).map fun r =>
        ⟨r.id, decide (s.Held cfg r)⟩
  | _ => []

structure Logged where
  store : Store
  closings : List Closing

def alone : SerialHandler Logged Answer (LockCmd JsStr ⊕ Cmd) (LockRes JsStr Res)
  | s, _, .inl _ => ((), s)
  | s, x, .inr c => ((exec cfg s.store x c).1,
      ⟨(exec cfg s.store x c).2, s.closings ++ s.store.closingsOf cfg c⟩)

variable {cfg} {Ok : AllowedStep Logged Answer (LockCmd JsStr ⊕ Cmd)} {s t : Logged} {α β : Type}

theorem admin_settle {γ : Type} (p : Redeem.M α) (k : Except HttpError α → Redeem.M γ) :
    admin (p.settle k) = (admin p).settle fun r => admin (k r) := by
  induction p with
  | ret r => rfl
  | call c next ih =>
    rcases c with l | c
    · exact congrArg (Prog.call (Sum.inl l)) (funext ih)
    · exact congrArg (Prog.call (Sum.inr (Cmd.redeem c))) (funext ih)

theorem admin_bind (p : Redeem.M α) (f : α → Redeem.M β) :
    admin (p >>= f) = admin p >>= fun a => admin (f a) := by
  rw [Prog.bind_eq_settle, admin_settle, Prog.bind_eq_settle]
  refine congrArg _ (funext fun r => ?_)
  cases r <;> rfl

theorem runs_admin_bind {p : Redeem.M α} {f : α → Redeem.M β} {o : Except HttpError β} :
    (admin (p >>= f)).Runs (alone cfg) Ok s o t ↔
      (∃ a u, (admin p).Runs (alone cfg) Ok s (.ok a) u ∧ (admin (f a)).Runs (alone cfg) Ok u o t) ∨
        ∃ e, (admin p).Runs (alone cfg) Ok s (.error e) t ∧ o = .error e := by
  rw [admin_bind]
  exact Prog.runs_bind

/-- A command of the refunds, and what follows it. -/
theorem runs_command {c : Redeem.Cmd} {f : Redeem.Res c → Redeem.M β} {o : Except HttpError β} :
    (admin (Redeem.perform c >>= f)).Runs (alone cfg) Ok s o t ↔
      ∃ x, Ok s x (.inr (.redeem c)) ∧
        (admin (f (execRedeem cfg s.store x c).1)).Runs (alone cfg) Ok
          ⟨(execRedeem cfg s.store x c).2, s.closings ++ s.store.closingsOf cfg (.redeem c)⟩ o t :=
  Iff.rfl

/-- Reading leaves the state, and its answer depends on nothing else. -/
theorem runs_read {c : Redeem.Cmd} {f : Redeem.Res c → Redeem.M β} {o : Except HttpError β}
    {a : Redeem.Res c} (hread : ∀ x, execRedeem cfg s.store x c = (a, s.store))
    (hlog : s.store.closingsOf cfg (.redeem c) = [])
    (h : (admin (Redeem.perform c >>= f)).Runs (alone cfg) Ok s o t) :
    (admin (f a)).Runs (alone cfg) Ok s o t := by
  obtain ⟨x, -, h⟩ := runs_command.mp h
  rw [hread x, hlog, List.append_nil] at h
  exact h

theorem runs_guard {b : Bool} {e : HttpError} {f : Unit → Redeem.M β} {o : Except HttpError β}
    (h : (admin (Prog.throwIf b e >>= f)).Runs (alone cfg) Ok s o t) :
    (b = true ∧ o = .error e ∧ t = s) ∨
      (b = false ∧ (admin (f ())).Runs (alone cfg) Ok s o t) := by
  cases b with
  | true => exact .inl ⟨rfl, h.1.symm, h.2.symm⟩
  | false => exact .inr ⟨rfl, h⟩

theorem runs_withLock {k : JsStr} {body : Redeem.M α} {o : Except HttpError α}
    (h : (admin (withLock k body)).Runs (alone cfg) Ok s o t) :
    (admin body).Runs (alone cfg) Ok s o t := by
  obtain ⟨x, -, y, -, h⟩ := h
  change (admin (Prog.finallyDo body (lockCmd (.release k)))).Runs (alone cfg) Ok s o t at h
  rw [Prog.finallyDo, admin_settle] at h
  obtain ⟨r, u, hr, z, -, ho, rfl⟩ := Prog.runs_settle.mp h
  exact ho ▸ hr

theorem runs_getPaymentReceivedMicrosForBatch {batchId : JsStr} {o : Except HttpError (Option JsStr)}
    (h : (admin (getPaymentReceivedMicrosForBatch batchId)).Runs (alone cfg) Ok s o t) :
    o = .ok (s.store.db.receivedMicros batchId) ∧ t = s := by
  unfold getPaymentReceivedMicrosForBatch at h
  unfold Redeem.Store.receivedMicros
  split_ifs at h ⊢ with hblank
  · exact ⟨h.1.symm, h.2.symm⟩
  · have hclaim := runs_read (fun _ => rfl) rfl h
    cases hfrom : trimmedDigits ((s.store.db.claims.rows.find? fun c =>
        c.paymentBatchId = trim batchId).bind PaymentClaim.paymentReceivedUsdcMicros) with
    | some fromClaim =>
      rw [hfrom] at hclaim
      exact ⟨hclaim.1.symm, hclaim.2.symm⟩
    | none =>
      rw [hfrom] at hclaim
      have hrow := runs_read (fun _ => rfl) rfl hclaim
      exact ⟨hrow.1.symm, hrow.2.symm⟩

def Logged.save (cfg : Config) (s : Logged) (rows : List (VaultRedemption × VaultRedemption)) :
    Logged :=
  ⟨{ s.store with db := s.store.db.saveRedemptions (rows.map Prod.snd) },
    s.closings ++ s.store.closingsOf cfg (.redeem (.saveRedemptions rows))⟩

/-- The cycles in redemption of the refunded ones among some rows are minted again. -/
def Logged.reset (s : Logged) (rows : List VaultRedemption) : Logged :=
  { s with store := { s.store with
      db := s.store.db.resetAll (s.store.db.requestedCycles
        ((rows.filter fun r => r.status = .refunded).map VaultRedemption.vaultCycleId).dedup) } }

theorem runs_resetCycles {cycles : List VaultCycle} {o : Except HttpError Unit}
    (h : (admin (resetCycles cycles)).Runs (alone cfg) Ok s o t) :
    o = .ok () ∧ t = { s with store := { s.store with
      db := s.store.db.resetAll (cycles.filter fun c => c.status = .redemptionRequested) } } := by
  induction cycles generalizing s with
  | nil => exact ⟨h.1.symm, h.2.symm⟩
  | cons cycle cycles ih =>
    have hcons : resetCycles (cycle :: cycles) = resetCycle cycle >>= fun _ => resetCycles cycles := rfl
    rw [hcons] at h
    by_cases hrequested : cycle.status = .redemptionRequested
    · have hreset : resetCycle cycle = saveCycle (resetTo cycle) := if_pos hrequested
      rw [hreset] at h
      obtain ⟨x, -, h⟩ := runs_command.mp h
      obtain ⟨ho, ht⟩ := ih h
      refine ⟨ho, ht.trans ?_⟩
      rw [List.filter_cons_of_pos (by simpa using hrequested)]
      simp [execRedeem, Store.closingsOf, Redeem.Store.resetAll, Db.Table.saveAll]
    · have hreset : resetCycle cycle = pure () := if_neg hrequested
      rw [hreset] at h
      rw [List.filter_cons_of_neg (by simpa using hrequested)]
      exact ih h

theorem runs_resetCyclesIfRefunded {rows : List VaultRedemption} {o : Except HttpError Unit}
    (h : (admin (resetCyclesIfRefunded rows)).Runs (alone cfg) Ok s o t) :
    o = .ok () ∧ t = s.reset rows := by
  unfold resetCyclesIfRefunded at h
  dsimp only at h
  unfold Logged.reset
  generalize ((rows.filter fun r => r.status = .refunded).map VaultRedemption.vaultCycleId).dedup =
    ids at h ⊢
  split_ifs at h with hempty
  · obtain rfl : ids = [] := List.isEmpty_iff.mp hempty
    obtain ⟨ho, rfl⟩ := Prog.runs_pure.mp h
    refine ⟨ho.symm, ?_⟩
    simp [Redeem.Store.requestedCycles, Db.Table.find, Redeem.Store.resetAll, Db.Table.saveAll]
  · exact runs_resetCycles (runs_read (fun _ => rfl) rfl h)

theorem runs_saveRedemptions {rows : List (VaultRedemption × VaultRedemption)}
    {f : Unit → Redeem.M β} {o : Except HttpError β}
    (h : (admin (saveRedemptions rows >>= f)).Runs (alone cfg) Ok s o t) :
    (admin (f ())).Runs (alone cfg) Ok (s.save cfg rows) o t := by
  obtain ⟨x, -, h⟩ := runs_command.mp h
  exact h

theorem runs_now {f : ℕ → Redeem.M β} {o : Except HttpError β}
    (h : (admin (now >>= f)).Runs (alone cfg) Ok s o t) :
    ∃ at_, (admin (f at_)).Runs (alone cfg) Ok s o t := by
  obtain ⟨x, -, h⟩ := runs_command.mp h
  refine ⟨x.now, ?_⟩
  simpa [execRedeem, Store.closingsOf] using h

/-- The rows of a refund, each with the copy it started from. -/
def refundPairs (rows : List VaultRedemption) (txHash amountMicros : JsStr) (at_ : ℕ) :
    List (VaultRedemption × VaultRedemption) :=
  rows.map fun r => (r, r.applyUsdcRefundFields txHash amountMicros at_)

theorem runs_recordRefund {rows : List VaultRedemption} {txHash amountMicros : JsStr}
    {o : Except HttpError RefundUsdcResult}
    (h : (admin (recordRefund rows txHash amountMicros)).Runs (alone cfg) Ok s o t) :
    o = .ok ⟨some txHash, false⟩ ∧ ∃ at_, t = (s.save cfg (refundPairs rows txHash amountMicros at_)).reset
      ((refundPairs rows txHash amountMicros at_).map Prod.snd) := by
  obtain ⟨at_, h⟩ := runs_now h
  have hsaved := runs_saveRedemptions h
  obtain ⟨u, v, hreset, hlast⟩ | ⟨e, herror, -⟩ := runs_admin_bind.mp hsaved
  · obtain ⟨-, rfl⟩ := runs_resetCyclesIfRefunded hreset
    exact ⟨hlast.1.symm, at_, hlast.2.symm⟩
  · cases (runs_resetCyclesIfRefunded herror).1

/-- The USDC of a transfer has moved, if it has. -/
def Logged.paid (s : Logged) (batchId to_ amountMicros : JsStr) (chainId : ℕ) (transfer : Transfer) :
    Logged :=
  { s with store := transfer.moved.elim s.store fun txHash =>
      { s.store with
        db := s.store.db.addUsdcRefund ⟨batchId, to_, amountMicros, chainId, txHash⟩ } }

/-- How a refund that is owed ends: with the error of its transfer, or recorded. -/
inductive RefundEnd (cfg : Config) (batchId : JsStr) (s : Logged) (first : VaultRedemption)
    (amountMicros : JsStr) (transfer : Transfer) : Except HttpError RefundUsdcResult → Logged → Prop where
  | failed (e : HttpError) (h : transfer.answer = .error e) :
      RefundEnd cfg batchId s first amountMicros transfer (.error e)
        (s.paid batchId first.ownerWalletAddress amountMicros (cfg.env.resolveChainId first.chainId)
          transfer)
  | recorded (txHash : JsStr) (at_ : ℕ) (h : transfer.answer = .ok txHash) :
      RefundEnd cfg batchId s first amountMicros transfer (.ok ⟨some txHash, false⟩)
        (((s.paid batchId first.ownerWalletAddress amountMicros
          (cfg.env.resolveChainId first.chainId) transfer).save cfg
            (refundPairs (s.store.db.batch batchId) txHash amountMicros at_)).reset
              ((refundPairs (s.store.db.batch batchId) txHash amountMicros at_).map Prod.snd))

theorem runs_sendAndRecord {batchId amountMicros : JsStr} {first : VaultRedemption}
    {o : Except HttpError RefundUsdcResult}
    (h : (admin (sendAndRecord cfg.env batchId (s.store.db.batch batchId) first amountMicros)).Runs
      (alone cfg) Ok s o t) :
    ∃ x, Ok s x (.inr (.redeem (.transferUsdc batchId first.ownerWalletAddress amountMicros
        (cfg.env.resolveChainId first.chainId)))) ∧
      RefundEnd cfg batchId s first amountMicros (Platform.transferUsdc cfg.env x.wallet
        first.ownerWalletAddress amountMicros (cfg.env.resolveChainId first.chainId)) o t := by
  obtain ⟨x, hok, hsent⟩ := runs_command.mp h
  refine ⟨x, hok, ?_⟩
  dsimp only [execRedeem, Store.closingsOf] at hsent
  rw [List.append_nil] at hsent
  cases hanswer : (Platform.transferUsdc cfg.env x.wallet first.ownerWalletAddress amountMicros
      (cfg.env.resolveChainId first.chainId)).answer with
  | error e =>
    rw [hanswer] at hsent
    obtain ⟨ho, rfl⟩ := hsent
    exact ho ▸ .failed e hanswer
  | ok txHash =>
    rw [hanswer] at hsent
    obtain ⟨rfl, at_, rfl⟩ := runs_recordRefund hsent
    exact .recorded txHash at_ hanswer

theorem runs_refundUsdcBatch {batchId : JsStr} {o : Except HttpError RefundUsdcResult}
    (h : (admin (Redeem.refundUsdcBatch cfg.env batchId)).Runs (alone cfg) Ok s o t) :
    (t = s ∧ ∀ r, o = .ok r → s.store.db.batch batchId ≠ [] ∧
      (s.store.db.batch batchId).all VaultRedemption.usdcRefunded = true) ∨
      ∃ first amountMicros x, refundDue cfg.env s.store.db batchId = .owed first amountMicros ∧
        Ok s x (.inr (.redeem (.transferUsdc batchId first.ownerWalletAddress amountMicros
          (cfg.env.resolveChainId first.chainId)))) ∧
        RefundEnd cfg batchId s first amountMicros (Platform.transferUsdc cfg.env x.wallet
          first.ownerWalletAddress amountMicros (cfg.env.resolveChainId first.chainId)) o t := by
  have hsection := runs_read (fun _ => rfl) rfl (runs_withLock h)
  unfold refundDue
  cases hhead : (s.store.db.batch batchId).head? with
  | none =>
    rw [hhead] at hsection
    exact .inl ⟨hsection.2.symm, fun r hr => by rw [← hsection.1] at hr; cases hr⟩
  | some first =>
    rw [hhead] at hsection
    cases hrefundable : assertRefundable (s.store.db.batch batchId) with
    | error e =>
      rw [hrefundable] at hsection
      exact .inl ⟨hsection.2.symm, fun r hr => by rw [← hsection.1] at hr; cases hr⟩
    | ok u =>
      rw [hrefundable] at hsection
      dsimp only
      change (admin (if (s.store.db.batch batchId).all VaultRedemption.usdcRefunded then _ else _ :
        Redeem.M RefundUsdcResult)).Runs (alone cfg) Ok s o t at hsection
      by_cases hall : (s.store.db.batch batchId).all VaultRedemption.usdcRefunded = true
      · rw [if_pos hall] at hsection
        refine .inl ⟨hsection.2.symm, fun _ _ => ⟨fun hempty => ?_, hall⟩⟩
        rw [hempty] at hhead
        cases hhead
      · rw [if_neg hall] at hsection
        obtain ⟨received, v, hreceived, hrest⟩ | ⟨e, herror, -⟩ := runs_admin_bind.mp hsection
        · obtain ⟨hsame, rfl⟩ := runs_getPaymentReceivedMicrosForBatch hreceived
          obtain rfl := Except.ok.inj hsame
          obtain ⟨-, rfl, rfl⟩ | ⟨hamount, hpaid⟩ := runs_guard hrest
          · exact .inl ⟨rfl, fun r hr => by cases hr⟩
          · obtain ⟨-, rfl, rfl⟩ | ⟨hconfigured, hsend⟩ := runs_guard hpaid
            · exact .inl ⟨rfl, fun r hr => by cases hr⟩
            · obtain ⟨x, hok, hend⟩ := runs_sendAndRecord hsend
              refine .inr ⟨first, _, x, ?_, hok, hend⟩
              rw [if_neg hall, if_neg (Bool.not_eq_true _ ▸ hamount),
                if_neg (Bool.not_eq_true _ ▸ hconfigured)]
        · cases (runs_getPaymentReceivedMicrosForBatch herror).1

/-- The token id that `returnNft` finds for a row: of the first token on its cycle. -/
def Store.returnedToken (s : Store) (r : VaultRedemption) : Option JsStr :=
  ((s.db.tokens.rows.find? fun t => t.vaultCycleId = some r.vaultCycleId).map
    RwaToken.tokenId).filter fun t => !t.isEmpty

/-- What `returnNft` has checked when it sends the NFT back. -/
structure ReturnDue (s : Store) (id : JsStr) (row : VaultRedemption) (tokenId : ℕ) : Prop where
  found : s.db.redemptions.get id = some row
  refundable : assertRefundable [row] = .ok ()
  notReturned : (row.custodyReturnedAt.isSome && truthy row.custodyReturnTxHash) = false
  custody : row.wasEverInCustody = true
  token : (s.returnedToken row).bind toNumber = some tokenId

/-- A transfer out of custody that is answered with a hash has been mined, and custody owned the
NFT. -/
theorem transferFromCustody_ok {s : Store} {submission : Submission} {tokenId chainId : ℕ}
    {to_ txHash : JsStr}
    (h : (transferFromCustody cfg s submission tokenId to_ chainId).answer = .ok txHash) :
    transferFromCustody cfg s submission tokenId to_ chainId = .mined txHash ∧
      s.owner (chainId, tokenId) = some (cfg.custodyWallet chainId) ∧ truthy (some txHash) = true := by
  unfold transferFromCustody at h ⊢
  split_ifs at h ⊢ with haddress
  · cases h
  · cases howner : s.owner (chainId, tokenId) with
    | none =>
      rw [howner] at h
      cases h
    | some owner =>
      rw [howner] at h
      dsimp only at h ⊢
      split_ifs at h ⊢ with hcustody
      · cases h
      · rw [not_not.mp hcustody]
        cases submission with
        | refused e => cases h
        | unseen hash e => cases h
        | mined hash =>
          dsimp only at h ⊢
          split_ifs at h ⊢ with hempty
          · cases h
          · obtain rfl := Except.ok.inj h
            exact ⟨rfl, rfl, by simpa [truthy] using hempty⟩

/-- The NFT of a transfer has moved, if it has. -/
def Logged.moved (s : Logged) (tokenId : ℕ) (to_ : JsStr) (chainId : ℕ) (transfer : Transfer) : Logged :=
  { s with store := transfer.moved.elim s.store fun txHash =>
      { s.store.setOwner (chainId, tokenId) (some (lower (trim to_))) with
        db := { s.store.db with
          custodyReturns := s.store.db.custodyReturns ++ [⟨tokenId, to_, chainId, txHash⟩] } } }

/-- How a return ends: with the error of its transfer, or recorded. -/
inductive ReturnEnd (cfg : Config) (s : Logged) (row : VaultRedemption) (tokenId : ℕ)
    (transfer : Transfer) : Except HttpError ReturnNftResult → Logged → Prop where
  | failed (e : HttpError) (h : transfer.answer = .error e) :
      ReturnEnd cfg s row tokenId transfer (.error e)
        (s.moved tokenId row.ownerWalletAddress (cfg.env.resolveChainId row.chainId) transfer)
  | recorded (txHash : JsStr) (at_ : ℕ) (h : transfer.answer = .ok txHash) :
      ReturnEnd cfg s row tokenId transfer (.ok ⟨false, some txHash⟩)
        (((s.moved tokenId row.ownerWalletAddress (cfg.env.resolveChainId row.chainId) transfer).save
          cfg [(row, row.applyNftReturnFields txHash at_)]).reset [row.applyNftReturnFields txHash at_])

theorem runs_orThrow {v : Option α} {e : HttpError} {f : α → Redeem.M β} {o : Except HttpError β}
    (h : (admin (Prog.orThrow e v >>= f)).Runs (alone cfg) Ok s o t) :
    (o = .error e ∧ t = s) ∨ ∃ a, v = some a ∧ (admin (f a)).Runs (alone cfg) Ok s o t := by
  cases v with
  | none => exact .inl ⟨h.1.symm, h.2.symm⟩
  | some a => exact .inr ⟨a, rfl, h⟩

theorem runs_sendBack {row : VaultRedemption} {tokenId : ℕ} {o : Except HttpError ReturnNftResult}
    (h : (admin (safeTransferFromCustody tokenId row.ownerWalletAddress
      (cfg.env.resolveChainId row.chainId) >>= fun txHash => now >>= recordReturn row txHash)).Runs
        (alone cfg) Ok s o t) :
    ∃ x, Ok s x (.inr (.redeem (.safeTransferFromCustody tokenId row.ownerWalletAddress
        (cfg.env.resolveChainId row.chainId)))) ∧
      ReturnEnd cfg s row tokenId (transferFromCustody cfg s.store x.submission tokenId
        row.ownerWalletAddress (cfg.env.resolveChainId row.chainId)) o t := by
  obtain ⟨x, hok, hsent⟩ := runs_command.mp h
  refine ⟨x, hok, ?_⟩
  dsimp only [execRedeem, Store.closingsOf] at hsent
  rw [List.append_nil] at hsent
  cases hanswer : (transferFromCustody cfg s.store x.submission tokenId row.ownerWalletAddress
      (cfg.env.resolveChainId row.chainId)).answer with
  | error e =>
    rw [hanswer] at hsent
    obtain ⟨ho, rfl⟩ := hsent
    exact ho ▸ .failed e hanswer
  | ok txHash =>
    rw [hanswer] at hsent
    obtain ⟨at_, hrecord⟩ := runs_now hsent
    have hsaved := runs_saveRedemptions hrecord
    obtain ⟨u, v, hreset, hlast⟩ | ⟨e, herror, -⟩ := runs_admin_bind.mp hsaved
    · obtain ⟨-, rfl⟩ := runs_resetCyclesIfRefunded hreset
      obtain ⟨ho, rfl⟩ := hlast
      exact ho ▸ .recorded txHash at_ hanswer
    · cases (runs_resetCyclesIfRefunded herror).1

theorem runs_returnNft {id : JsStr} {o : Except HttpError ReturnNftResult}
    (h : (admin (Redeem.returnNft cfg.env id)).Runs (alone cfg) Ok s o t) :
    (t = s ∧ ∀ r, o = .ok r → ∃ row, s.store.db.redemptions.get id = some row ∧
      row.custodyReturnedAt.isSome = true ∧ truthy row.custodyReturnTxHash = true) ∨
      ∃ row tokenId x y, ReturnDue s.store id row tokenId ∧
        Ok s x (.inr (.redeem (.findRedemption id))) ∧
        Ok s y (.inr (.redeem (.safeTransferFromCustody tokenId row.ownerWalletAddress
          (cfg.env.resolveChainId row.chainId)))) ∧
        ReturnEnd cfg s row tokenId (transferFromCustody cfg s.store y.submission tokenId
          row.ownerWalletAddress (cfg.env.resolveChainId row.chainId)) o t := by
  obtain ⟨x, hx, hfound⟩ := runs_command.mp h
  dsimp only [execRedeem, Store.closingsOf] at hfound
  rw [List.append_nil] at hfound
  obtain ⟨rfl, rfl⟩ | ⟨row, hrow, hloaded⟩ := runs_orThrow hfound
  · exact .inl ⟨rfl, fun r hr => by cases hr⟩
  · unfold returnLoaded at hloaded
    cases hrefundable : assertRefundable [row] with
    | error e =>
      rw [hrefundable] at hloaded
      exact .inl ⟨hloaded.2.symm, fun r hr => by rw [← hloaded.1] at hr; cases hr⟩
    | ok u =>
      rw [hrefundable] at hloaded
      change (admin (if (row.custodyReturnedAt.isSome && truthy row.custodyReturnTxHash) = true then _
        else _ : Redeem.M ReturnNftResult)).Runs (alone cfg) Ok s o t at hloaded
      by_cases hreturned : (row.custodyReturnedAt.isSome && truthy row.custodyReturnTxHash) = true
      · rw [if_pos hreturned] at hloaded
        exact .inl ⟨hloaded.2.symm, fun _ _ => ⟨row, hrow, Bool.and_eq_true_iff.mp hreturned⟩⟩
      · rw [if_neg hreturned] at hloaded
        obtain ⟨-, rfl, rfl⟩ | ⟨hcustody, hopen⟩ := runs_guard hloaded
        · exact .inl ⟨rfl, fun r hr => by cases hr⟩
        · have htoken := runs_read (fun _ => rfl) rfl hopen
          obtain ⟨rfl, rfl⟩ | ⟨text, htext, hnumber⟩ := runs_orThrow htoken
          · exact .inl ⟨rfl, fun r hr => by cases hr⟩
          · obtain ⟨rfl, rfl⟩ | ⟨tokenId, hid, hsend⟩ := runs_orThrow hnumber
            · exact .inl ⟨rfl, fun r hr => by cases hr⟩
            · obtain ⟨y, hy, hend⟩ := runs_sendBack hsend
              refine .inr ⟨row, tokenId, x, y, ⟨hrow, hrefundable, Bool.not_eq_true _ ▸ hreturned, ?_, ?_⟩,
                hx, hy, hend⟩
              · simpa using hcustody
              · rw [Store.returnedToken, htext]
                exact hid

end Custody
