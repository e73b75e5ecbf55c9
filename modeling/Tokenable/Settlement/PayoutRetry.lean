import Tokenable.Redeem.RefundRetry
import Tokenable.Settlement.Payout

/-!
# Payouts that fail and are repeated

One call of `executePayout` after the other, each of them stopped after any number of its writes: the
confirmation of a settlement that is still pending, the transfer, and the save of the paid row.
-/

namespace Settlement
open Js Platform Async

structure PayoutWorld where
  wallet : FeeWallet
  now : ℕ

/-- One call at a time. -/
def payoutSolo (env : Env) (w : PayoutWorld) (s : PayoutStore) :
    (c : LockCmd ℕ ⊕ PayoutCmd) → LockRes ℕ PayoutRes c × PayoutStore
  | .inl _ => ((), s)
  | .inr (.findOne id) => (s.settlements.get id, s)
  | .inr (.findDue dueBefore) => (s.due dueBefore, s)
  | .inr (.save row) => ((), s.save row)
  | .inr (.transferUsdc settlementId to_ amountMicros chainId) =>
    let transfer := Platform.transferUsdc env w.wallet to_ amountMicros chainId
    (transfer.answer,
      transfer.moved.elim s fun txHash =>
        s.addPayout ⟨settlementId, to_, amountMicros, chainId, txHash⟩)
  | .inr .now => (w.now, s)

def isPayoutWrite : LockCmd ℕ ⊕ PayoutCmd → Bool
  | .inr (.save _) | .inr (.transferUsdc ..) => true
  | _ => false

def payoutOnce (env : Env) (id : ℕ) (w : PayoutWorld) (s : PayoutStore) :
    Except HttpError SelfVaultSettlement × PayoutStore :=
  (executePayout env id).play (payoutSolo env w) s

structure PayoutAttempt where
  world : PayoutWorld
  writes : ℕ

def payoutAttempts (env : Env) (id : ℕ) (as : List PayoutAttempt) (s : PayoutStore) : PayoutStore :=
  as.foldl (fun t a =>
    ((executePayout env id).playFor (payoutSolo env a.world) isPayoutWrite a.writes t).2) s

inductive PayoutDue where
  | refused (e : HttpError)
  | paid (row : SelfVaultSettlement)
  | owed (row : SelfVaultSettlement)

def payoutDue (env : Env) (s : PayoutStore) (id : ℕ) : PayoutDue :=
  match s.settlements.get id with
  | none => .refused (.notFound (js "Settlement not found"))
  | some row =>
    if row.status = .paid then .paid row
    else if row.status = .rejected then .refused (.badRequest (js "Settlement was rejected"))
    else if !env.isConfigured then .refused feeKeyMissing
    else .owed row

/-- The writes of `executePayout` on an open row. -/
def confirmAndPay (row : SelfVaultSettlement) : PayoutM SelfVaultSettlement := do
  let row ← (if row.status = .pendingConfirm then confirmRow row else pure row)
  payRow row

def payoutTransfer (env : Env) (w : PayoutWorld) (row : SelfVaultSettlement) : Transfer :=
  Platform.transferUsdc env w.wallet row.sellerWallet row.sellerPayoutUsdc row.chainId

def PayoutStore.transferred (T : Transfer) (row : SelfVaultSettlement) (s : PayoutStore) :
    PayoutStore :=
  T.moved.elim s fun txHash =>
    s.addPayout ⟨row.id, row.sellerWallet, row.sellerPayoutUsdc, row.chainId, txHash⟩

section Calls
variable {env : Env} {w : PayoutWorld} {n : ℕ} {s : PayoutStore} {id : ℕ}
  {row : SelfVaultSettlement} {α : Type}

theorem playFor_payoutThrowIf (b : Bool) (e : HttpError) (f : Unit → PayoutM α) :
    (Prog.throwIf b e >>= f).playFor (payoutSolo env w) isPayoutWrite n s =
      if b then (some (.error e), s) else (f ()).playFor (payoutSolo env w) isPayoutWrite n s := by
  cases b <;> rfl

theorem playFor_executePayout :
    (executePayout env id).playFor (payoutSolo env w) isPayoutWrite n s =
      match payoutDue env s id with
      | .refused e => (some (.error e), s)
      | .paid row => (some (.ok row), s)
      | .owed row => (confirmAndPay row).playFor (payoutSolo env w) isPayoutWrite n s := by
  have hsection : (executePayout env id).playFor (payoutSolo env w) isPayoutWrite n s =
      (payoutSection env id).playFor (payoutSolo env w) isPayoutWrite n s := by
    refine (Prog.playFor_read rfl).trans ((Prog.playFor_read rfl).trans ?_)
    exact Prog.playFor_settle_of_idle fun r m t => rfl
  rw [hsection]
  refine (Prog.playFor_read rfl).trans ?_
  dsimp only [payoutSolo]
  unfold payoutDue
  cases s.settlements.get id with
  | none => rfl
  | some row =>
    simp only [Prog.settle_ret, Prog.onOk, Prog.orThrow_some]
    by_cases hpaid : row.status = .paid
    · rw [if_pos hpaid, if_pos hpaid]
      rfl
    · rw [if_neg hpaid, if_neg hpaid, playFor_payoutThrowIf]
      by_cases hrejected : row.status = .rejected
      · rw [if_pos (decide_eq_true hrejected), if_pos hrejected]
      · rw [if_neg (by simpa using hrejected), if_neg hrejected, playFor_payoutThrowIf]
        by_cases hconfigured : (!env.isConfigured) = true
        · rw [if_pos hconfigured, if_pos hconfigured]
        · rw [if_neg hconfigured, if_neg hconfigured]
          rfl

/-- The transfer and the save of the paid row. -/
theorem playFor_payRow :
    (payRow row).playFor (payoutSolo env w) isPayoutWrite n s =
      let T := payoutTransfer env w row
      match n with
      | 0 => (none, s)
      | n + 1 =>
        match T.answer with
        | .error e => (some (.error e), s.transferred T row)
        | .ok txHash =>
          (markPaid row txHash).playFor (payoutSolo env w) isPayoutWrite n (s.transferred T row) := by
  cases n with
  | zero => exact Prog.playFor_write_zero rfl
  | succ n =>
    refine (Prog.playFor_write_succ rfl).trans ?_
    change Prog.playFor (payoutSolo env w) isPayoutWrite ((Prog.ret (payoutTransfer env w row).answer :
      PayoutM JsStr).settle (Prog.onOk fun txHash => markPaid row txHash)) n
        (s.transferred (payoutTransfer env w row) row) = _
    dsimp only
    cases (payoutTransfer env w row).answer <;> rfl

end Calls

/-- The transfers out of the fee wallet, without their transactions. -/
def PayoutStore.sent (s : PayoutStore) : List (ℕ × JsStr × JsStr × ℕ) :=
  s.payouts.map fun p => (p.settlementId, p.to_, p.amountMicros, p.chainId)

/-- What one payout of the settlement sends: nothing, when the fee wallet is the seller. -/
def payoutOf (env : Env) (row : SelfVaultSettlement) : List (ℕ × JsStr × JsStr × ℕ) :=
  if env.isFeeWallet row.sellerWallet then []
  else [(row.id, row.sellerWallet, row.sellerPayoutUsdc, row.chainId)]

/-- The store `t` after attempts on the open settlement `row` of `s` that have made this progress. -/
structure PaidSoFar (env : Env) (s : PayoutStore) (row : SelfVaultSettlement)
    (status : SettlementStatus) (p : Progress) (t : PayoutStore) : Prop where
  others : ∀ id, id ≠ row.id → t.settlements.get id = s.settlements.get id
  sent : t.sent = s.sent ++ (List.replicate p.sends (payoutOf env row)).flatten
  unrecorded : p.written = none →
    ∃ confirmedAt, t.settlements.get row.id = some { row with status, confirmedAt }
  recorded : ∀ j, p.written = some j → ∃ row', t.settlements.get row.id = some row' ∧
    row'.status = .paid

/-- An attempt confirms a pending settlement with its first write. -/
def statusAfter (status : SettlementStatus) (writes : ℕ) : SettlementStatus :=
  if status = .pendingConfirm ∧ writes = 0 then .pendingConfirm else .confirmed

def writesToPay (status : SettlementStatus) (writes : ℕ) : ℕ :=
  if status = .pendingConfirm then writes - 1 else writes

def payoutExtents (env : Env) (row : SelfVaultSettlement) :
    SettlementStatus → List PayoutAttempt → List Extent
  | _, [] => []
  | status, a :: as => (payoutTransfer env a.world row).extent (writesToPay status a.writes) ::
      payoutExtents env row (statusAfter status a.writes) as

section Progress
variable {env : Env} {s t : PayoutStore} {row : SelfVaultSettlement} {status : SettlementStatus}
  {p : Progress} {k n : ℕ} {w : PayoutWorld}

theorem PayoutStore.get_save_of_ne {t : PayoutStore} {row : SelfVaultSettlement} {id : ℕ}
    (h : id ≠ row.id) : (t.save row).settlements.get id = t.settlements.get id :=
  Db.Table.get_save_of_ne h

theorem PaidSoFar.save_confirmed (h : PaidSoFar env s row status ⟨k, none⟩ t) (at_ : ℕ) :
    PaidSoFar env s row .confirmed ⟨k, none⟩
      (t.save { row with status := .confirmed, confirmedAt := some at_ }) where
  others id hid := Eq.trans (PayoutStore.get_save_of_ne hid) (h.others id hid)
  sent := h.sent
  unrecorded _ := ⟨some at_, Db.Table.get_save_self _ _⟩
  recorded := nofun

/-- Each transfer that moves USDC is one more of the same. -/
theorem PaidSoFar.transferred (h : PaidSoFar env s row status ⟨k, none⟩ t) {txHash : JsStr}
    {T : Transfer} (hself : env.isFeeWallet row.sellerWallet = true → T.moved = none)
    (hmoved : T.moved = some txHash) :
    PaidSoFar env s row status ⟨k + 1, none⟩ (t.transferred T row) := by
  have hother : env.isFeeWallet row.sellerWallet = false := by
    by_contra hfee
    rw [hself (Bool.not_eq_false _ ▸ hfee)] at hmoved
    cases hmoved
  have hstore : t.transferred T row = t.addPayout
      ⟨row.id, row.sellerWallet, row.sellerPayoutUsdc, row.chainId, txHash⟩ := by
    rw [PayoutStore.transferred, hmoved]
    rfl
  rw [hstore]
  refine ⟨h.others, ?_, h.unrecorded, nofun⟩
  have hsent := h.sent
  simp only [PayoutStore.sent] at hsent
  simp [PayoutStore.sent, PayoutStore.addPayout, hsent, payoutOf, hother, List.replicate_succ']

/-- A transfer that is skipped sends as much as any number of them. -/
theorem PaidSoFar.skipped (h : PaidSoFar env s row status ⟨k, none⟩ t)
    (hself : env.isFeeWallet row.sellerWallet = true) :
    PaidSoFar env s row status ⟨k + 1, none⟩ t := by
  have hsent := h.sent
  refine ⟨h.others, ?_, h.unrecorded, nofun⟩
  simp only [payoutOf, hself, if_true, List.flatten_replicate_nil] at hsent ⊢
  exact hsent

theorem PaidSoFar.record (h : PaidSoFar env s row status ⟨k, none⟩ t) {row' : SelfVaultSettlement}
    (hid : row'.id = row.id) (txHash : JsStr) :
    PaidSoFar env s row status ⟨k, some (min n 0)⟩
      ((markPaid row' txHash).playFor (payoutSolo env w) isPayoutWrite (n + 1) t).2 where
  others id hne := Eq.trans (PayoutStore.get_save_of_ne (hid ▸ hne)) (h.others id hne)
  sent := h.sent
  unrecorded := nofun
  recorded _ _ := ⟨{ row' with status := .paid, payoutTxHash := some txHash, paidAt := some w.now },
    hid ▸ Db.Table.get_save_self _ _, rfl⟩

/-- What an attempt does once the settlement is confirmed. -/
theorem PaidSoFar.pay (h : PaidSoFar env s row status ⟨k, none⟩ t) {row' : SelfVaultSettlement}
    (hrow : row' = { row with status := row'.status, confirmedAt := row'.confirmedAt }) :
    PaidSoFar env s row status (Progress.attempt 0 ⟨k, none⟩ ((payoutTransfer env w row).extent n))
      ((payRow row').playFor (payoutSolo env w) isPayoutWrite n t).2 := by
  have hT : payoutTransfer env w row' = payoutTransfer env w row := by rw [hrow]; rfl
  have hid : row'.id = row.id := by rw [hrow]
  have hstore : ∀ T : Transfer, t.transferred T row' = t.transferred T row := by
    intro T
    rw [hrow]
    rfl
  rw [playFor_payRow, hT]
  cases n with
  | zero => rw [Transfer.extent_zero]; exact h
  | succ n =>
    have hmoved : ∀ txHash, (payoutTransfer env w row).moved = some txHash →
        PaidSoFar env s row status ⟨k + 1, none⟩ (t.transferred (payoutTransfer env w row) row) :=
      fun _ h' => h.transferred moved_transferUsdc_self h'
    have hskipped : ∀ txHash, payoutTransfer env w row = .skipped txHash →
        PaidSoFar env s row status ⟨k + 1, none⟩ t := by
      intro txHash hskip
      refine h.skipped ?_
      by_contra hother
      exact transferUsdc_ne_skipped (Bool.not_eq_true _ ▸ hother) hskip
    dsimp only
    rw [hstore]
    generalize payoutTransfer env w row = T at hmoved hskipped
    cases T with
    | failed e => exact h
    | unseen txHash e => exact hmoved txHash rfl
    | skipped txHash =>
      cases n with
      | zero => exact h
      | succ n => exact (hskipped txHash rfl).record hid txHash
    | mined txHash =>
      cases n with
      | zero => exact hmoved txHash rfl
      | succ n => exact (hmoved txHash rfl).record hid txHash

theorem payoutDue_owed_iff {id : ℕ} :
    payoutDue env s id = .owed row ↔
      s.settlements.get id = some row ∧ row.status.isOpen = true ∧ env.isConfigured = true := by
  unfold payoutDue
  cases hget : s.settlements.get id with
  | none => simp
  | some row' =>
    dsimp only
    by_cases hpaid : row'.status = .paid
    · rw [if_pos hpaid]
      constructor
      · intro h
        cases h
      · rintro ⟨h, hopen, -⟩
        obtain rfl := Option.some.inj h
        rw [hpaid] at hopen
        cases hopen
    · rw [if_neg hpaid]
      by_cases hrejected : row'.status = .rejected
      · rw [if_pos hrejected]
        constructor
        · intro h
          cases h
        · rintro ⟨h, hopen, -⟩
          obtain rfl := Option.some.inj h
          rw [hrejected] at hopen
          cases hopen
      · have hopen : row'.status.isOpen = true := by
          cases hstatus : row'.status with
          | pendingConfirm => rfl
          | confirmed => rfl
          | paid => exact absurd hstatus hpaid
          | rejected => exact absurd hstatus hrejected
        rw [if_neg hrejected]
        cases hconfigured : env.isConfigured with
        | false => simp
        | true =>
          constructor
          · intro h
            obtain rfl := PayoutDue.owed.inj h
            exact ⟨rfl, hopen, rfl⟩
          · rintro ⟨h, -, -⟩
            obtain rfl := Option.some.inj h
            rfl

/-- A call that finds nothing owed leaves the store as it is. -/
theorem playFor_executePayout_of_not_owed {id : ℕ} (h : ∀ row, payoutDue env t id ≠ .owed row) :
    ((executePayout env id).playFor (payoutSolo env w) isPayoutWrite n t).2 = t := by
  rw [playFor_executePayout]
  cases hdue : payoutDue env t id with
  | refused e => rfl
  | paid row => rfl
  | owed row => exact absurd hdue (h row)

theorem PaidSoFar.attempt (hconfigured : env.isConfigured = true) (hopen : status.isOpen = true)
    (h : PaidSoFar env s row status p t) :
    PaidSoFar env s row (statusAfter status n)
      (p.attempt 0 ((payoutTransfer env w row).extent (writesToPay status n)))
      ((executePayout env row.id).playFor (payoutSolo env w) isPayoutWrite n t).2 := by
  obtain ⟨k, written⟩ := p
  cases written with
  | some j =>
    obtain ⟨row', hrow', hpaid⟩ := h.recorded j rfl
    have hnot : ∀ row'', payoutDue env t row.id ≠ .owed row'' := by
      intro row'' hdue
      obtain ⟨hget, hopen', -⟩ := payoutDue_owed_iff.mp hdue
      obtain rfl := Option.some.inj (hrow'.symm.trans hget)
      rw [hpaid] at hopen'
      cases hopen'
    rw [playFor_executePayout_of_not_owed hnot]
    exact ⟨h.others, h.sent, nofun, h.recorded⟩
  | none =>
    obtain ⟨confirmedAt, hget⟩ := h.unrecorded rfl
    have hdue : payoutDue env t row.id = .owed { row with status, confirmedAt } :=
      payoutDue_owed_iff.mpr ⟨hget, hopen, hconfigured⟩
    rw [playFor_executePayout, hdue]
    dsimp only
    by_cases hpending : status = .pendingConfirm
    · subst hpending
      cases n with
      | zero =>
        have hstop : (confirmAndPay { row with status := .pendingConfirm, confirmedAt }).playFor
            (payoutSolo env w) isPayoutWrite 0 t = (none, t) :=
          (Prog.playFor_read rfl).trans (Prog.playFor_write_zero rfl)
        rw [hstop, writesToPay, if_pos rfl, Transfer.extent_zero]
        exact h
      | succ n => exact (h.save_confirmed w.now).pay rfl
    · have hconfirmed : status = .confirmed := by
        cases status with
        | pendingConfirm => exact absurd rfl hpending
        | confirmed => rfl
        | paid => cases hopen
        | rejected => cases hopen
      subst hconfirmed
      exact h.pay rfl

theorem isOpen_statusAfter (status : SettlementStatus) (n : ℕ) :
    (statusAfter status n).isOpen = true := by
  unfold statusAfter
  split_ifs <;> rfl

theorem PaidSoFar.attempts (hconfigured : env.isConfigured = true) (hopen : status.isOpen = true)
    (h : PaidSoFar env s row status p t) (as : List PayoutAttempt) :
    ∃ status', status'.isOpen = true ∧ PaidSoFar env s row status'
      (p.attempts 0 (payoutExtents env row status as)) (payoutAttempts env row.id as t) := by
  induction as generalizing p t status with
  | nil => exact ⟨status, hopen, h⟩
  | cons a as ih =>
    exact ih (isOpen_statusAfter status a.writes) (h.attempt hconfigured hopen)

theorem extent_of_payRow {row' : SelfVaultSettlement} {r : SelfVaultSettlement}
    (h : ((payRow row').playFor (payoutSolo env w) isPayoutWrite (n + 2) t).1 = some (.ok r)) :
    (payoutTransfer env w row').extent (n + 2) = .recorded n := by
  rw [playFor_payRow] at h
  cases hT : payoutTransfer env w row' with
  | failed e => simp [hT, Transfer.answer] at h
  | unseen txHash e => simp [hT, Transfer.answer] at h
  | skipped txHash => rfl
  | mined txHash => rfl

/-- A call that succeeds has gone as far as one can. -/
theorem PaidSoFar.once (hconfigured : env.isConfigured = true) (hopen : status.isOpen = true)
    (h : PaidSoFar env s row status p t) {r : SelfVaultSettlement} {u : PayoutStore}
    (hu : payoutOnce env row.id w t = (.ok r, u)) :
    ∃ status', PaidSoFar env s row status' (p.attempt 0 (.recorded 0)) u := by
  obtain ⟨N, hN⟩ := Prog.exists_playFor_eq_play (payoutSolo env w) isPayoutWrite
    (executePayout env row.id) t
  have hplay := hN (N + 3) (by omega)
  rw [payoutOnce] at hu
  rw [hu] at hplay
  have hstore := h.attempt (w := w) (n := N + 3) hconfigured hopen
  rw [hplay] at hstore
  refine ⟨statusAfter status (N + 3), ?_⟩
  obtain ⟨k, written⟩ := p
  cases written with
  | some j => exact hstore
  | none =>
    obtain ⟨confirmedAt, hget⟩ := h.unrecorded rfl
    have hdue : payoutDue env t row.id = .owed { row with status, confirmedAt } :=
      payoutDue_owed_iff.mpr ⟨hget, hopen, hconfigured⟩
    have hresult : ((confirmAndPay { row with status, confirmedAt }).playFor (payoutSolo env w)
        isPayoutWrite (N + 3) t).1 = some (.ok r) := by
      rw [playFor_executePayout, hdue] at hplay
      exact congrArg Prod.fst hplay
    have hrecorded : ∃ j, (payoutTransfer env w row).extent (writesToPay status (N + 3)) =
        .recorded j := by
      by_cases hpending : status = .pendingConfirm
      · subst hpending
        have hpay : ((payRow { row with status := .confirmed, confirmedAt := some w.now }).playFor
            (payoutSolo env w) isPayoutWrite (N + 2)
              (t.save { row with status := .confirmed, confirmedAt := some w.now })).1 =
                some (.ok r) := hresult
        have hextent := extent_of_payRow hpay
        exact ⟨N, hextent⟩
      · have hpay : confirmAndPay { row with status, confirmedAt } =
            payRow { row with status, confirmedAt } := by
          rw [confirmAndPay, if_neg hpending]
          rfl
        rw [hpay] at hresult
        rw [writesToPay, if_neg hpending]
        have hextent := extent_of_payRow (n := N + 1) hresult
        exact ⟨N + 1, hextent⟩
    obtain ⟨j, hj⟩ := hrecorded
    rw [hj] at hstore
    simpa [Progress.attempt] using hstore

structure SamePayoutEnd (t u : PayoutStore) : Prop where
  sent : t.sent = u.sent
  statuses : ∀ id, (t.settlements.get id).map SelfVaultSettlement.status =
    (u.settlements.get id).map SelfVaultSettlement.status

/-- The first attempt that sends the payout also saves the paid row, unless nothing is owed. -/
def PayoutResumes (env : Env) (id : ℕ) (s : PayoutStore) (as : List PayoutAttempt) : Prop :=
  ∀ row, payoutDue env s id = .owed row →
    Progress.FirstSendCompletes 0 (payoutExtents env row row.status as)

theorem PaidSoFar.start (hget : s.settlements.get row.id = some row) :
    PaidSoFar env s row row.status .start s where
  others _ _ := rfl
  sent := by simp [Progress.start]
  unrecorded _ := ⟨row.confirmedAt, hget⟩
  recorded := nofun

theorem samePayoutEnd_iff {status' : SettlementStatus} {u : PayoutStore}
    (ht : PaidSoFar env s row status ⟨k, some 0⟩ t) (hu : PaidSoFar env s row status' ⟨1, some 0⟩ u)
    (hk : env.isFeeWallet row.sellerWallet = true → k = 1) : SamePayoutEnd t u ↔ k = 1 := by
  constructor
  · intro hsame
    by_cases hself : env.isFeeWallet row.sellerWallet = true
    · exact hk hself
    · have hlength := congrArg List.length hsame.sent
      rw [ht.sent, hu.sent] at hlength
      simpa [payoutOf, hself] using hlength
  · rintro rfl
    refine ⟨ht.sent.trans hu.sent.symm, fun id => ?_⟩
    by_cases hid : id = row.id
    · subst hid
      obtain ⟨x, hx, hpaid⟩ := ht.recorded 0 rfl
      obtain ⟨y, hy, hpaid'⟩ := hu.recorded 0 rfl
      rw [hx, hy, Option.map_some, Option.map_some, hpaid, hpaid']
    · rw [ht.others id hid, hu.others id hid]

theorem sent_not_mem_payoutExtents (as : List PayoutAttempt)
    (hself : env.isFeeWallet row.sellerWallet = true) :
    .sent ∉ payoutExtents env row status as := by
  induction as generalizing status with
  | nil => exact List.not_mem_nil
  | cons a as ih =>
    rw [payoutExtents, List.mem_cons, not_or]
    exact ⟨Ne.symm (Transfer.extent_ne_sent (moved_transferUsdc_self hself) _), ih⟩

theorem payoutAttempts_of_not_owed {id : ℕ} (as : List PayoutAttempt)
    (h : ∀ row, payoutDue env s id ≠ .owed row) : payoutAttempts env id as s = s := by
  induction as with
  | nil => rfl
  | cons a as ih =>
    have hstay := playFor_executePayout_of_not_owed (w := a.world) (n := a.writes) h
    rw [payoutAttempts, List.foldl_cons, hstay]
    exact ih

theorem payoutOnce_of_not_owed {id : ℕ} (h : ∀ row, payoutDue env s id ≠ .owed row) :
    (payoutOnce env id w s).2 = s := by
  obtain ⟨N, hN⟩ := Prog.exists_playFor_eq_play (payoutSolo env w) isPayoutWrite
    (executePayout env id) s
  have hstay := playFor_executePayout_of_not_owed (w := w) (n := N) h
  rw [hN N (Nat.le_refl N)] at hstay
  exact hstay

/-- Stopped calls and then one that succeeds end as one call does, exactly when the first of them
that sends the USDC also saves the paid row. -/
theorem payout_repeated_iff {id : ℕ} {as : List PayoutAttempt} {w' : PayoutWorld}
    {r r' : SelfVaultSettlement} {u : PayoutStore} (hu : payoutOnce env id w s = (.ok r, u))
    (ht : payoutOnce env id w' (payoutAttempts env id as s) = (.ok r', t)) :
    SamePayoutEnd t u ↔ PayoutResumes env id s as := by
  by_cases howed : ∃ row, payoutDue env s id = .owed row
  · obtain ⟨row, hdue⟩ := howed
    obtain ⟨hget, hopen, hconfigured⟩ := payoutDue_owed_iff.mp hdue
    obtain rfl := Db.Table.get_key hget
    obtain ⟨status, hopen', hstopped⟩ := (PaidSoFar.start hget).attempts hconfigured hopen as
    obtain ⟨status', hend⟩ := hstopped.once hconfigured hopen' ht
    obtain ⟨status'', hone⟩ := (PaidSoFar.start hget).once hconfigured hopen hu
    have hresumes : PayoutResumes env row.id s as ↔
        Progress.FirstSendCompletes 0 (payoutExtents env row row.status as) := by
      constructor
      · intro h
        exact h row hdue
      · intro h row' hdue'
        obtain rfl := PayoutDue.owed.inj (hdue.symm.trans hdue')
        exact h
    obtain ⟨j, hj, hwritten⟩ := Progress.written_complete_le 0 (payoutExtents env row row.status as)
    obtain rfl : j = 0 := Nat.le_zero.mp hj
    have hself : env.isFeeWallet row.sellerWallet = true →
        ((Progress.start.attempts 0 (payoutExtents env row row.status as)).attempt 0
          (.recorded 0)).sends = 1 :=
      fun hself => Progress.sends_complete_of_not_sent _ (sent_not_mem_payoutExtents as hself)
    rw [hresumes, ← Progress.completes_once_iff]
    generalize (Progress.start.attempts 0 (payoutExtents env row row.status as)).attempt 0
      (.recorded 0) = p at hend hwritten hself
    obtain ⟨k, written⟩ := p
    obtain rfl : written = some 0 := hwritten
    rw [samePayoutEnd_iff hend hone hself]
    simp
  · have hnot : ∀ row, payoutDue env s id ≠ .owed row := fun row h => howed ⟨row, h⟩
    have hstay : t = u := by
      have hs := payoutOnce_of_not_owed (w := w) hnot
      have hs' := payoutOnce_of_not_owed (w := w') hnot
      rw [payoutAttempts_of_not_owed as hnot] at ht
      rw [hu] at hs
      rw [ht] at hs'
      exact hs'.trans hs.symm
    subst hstay
    constructor
    · intro _ row h
      exact absurd h (hnot row)
    · intro _
      exact ⟨rfl, fun _ => rfl⟩

/-- One call sends one payout. -/
theorem sent_payoutOnce {id : ℕ} (hdue : payoutDue env s id = .owed row) {r : SelfVaultSettlement}
    {u : PayoutStore} (hu : payoutOnce env id w s = (.ok r, u)) :
    u.sent = s.sent ++ payoutOf env row := by
  obtain ⟨hget, hopen, hconfigured⟩ := payoutDue_owed_iff.mp hdue
  obtain rfl := Db.Table.get_key hget
  obtain ⟨status, hone⟩ := (PaidSoFar.start hget).once hconfigured hopen hu
  have hsent := hone.sent
  simpa [Progress.attempt, Progress.start] using hsent

end Progress

open Redeem (refundOnce refundAttempts refundDue refundOf SameRefundEnd RefundResumes)

/-- A call that is not stopped sends what is owed once. Stopped calls and then one that succeeds have
sent the same and end in the same statuses, exactly when the first of them that sends the USDC also
makes the writes that record it. -/
theorem usdc_sent_once_iff (env : Env) :
    (∀ (batchId : JsStr) (s t u : Redeem.Store) (as : List Redeem.RefundAttempt)
      (w w' : Redeem.RefundWorld) (r r' : Redeem.RefundUsdcResult),
      refundOnce env batchId w s = (.ok r, u) →
      refundOnce env batchId w' (refundAttempts env batchId as s) = (.ok r', t) →
      (∀ first amountMicros, refundDue env s batchId = .owed first amountMicros →
        u.sent = s.sent ++ refundOf env batchId first amountMicros) ∧
      (SameRefundEnd t u ↔ RefundResumes env batchId s as)) ∧
    ∀ (id : ℕ) (s t u : PayoutStore) (as : List PayoutAttempt) (w w' : PayoutWorld)
      (r r' : SelfVaultSettlement),
      payoutOnce env id w s = (.ok r, u) →
      payoutOnce env id w' (payoutAttempts env id as s) = (.ok r', t) →
      (∀ row, payoutDue env s id = .owed row → u.sent = s.sent ++ payoutOf env row) ∧
      (SamePayoutEnd t u ↔ PayoutResumes env id s as) := by
  constructor
  · intro batchId s t u as w w' r r' hu ht
    exact ⟨fun first amountMicros hdue => Redeem.sent_refundOnce hdue hu,
      Redeem.refund_repeated_iff hu ht⟩
  · intro id s t u as w w' r r' hu ht
    exact ⟨fun row hdue => sent_payoutOnce hdue hu, payout_repeated_iff hu ht⟩

section Runs
open Redeem (retryEnv fundedWallet)

def pendingSettlement : SelfVaultSettlement where
  id := 0
  orderHash := js "0x01"
  sellerWallet := js "0x00000000000000000000000000000000000000aa"
  buyerWallet := js "0x00000000000000000000000000000000000000bb"
  grossUsdc := js "100"
  sellerPayoutUsdc := js "95"
  chainId := 1

def pendingPayouts : PayoutStore := ⟨⟨[pendingSettlement], by decide⟩, []⟩

def firstPayout : PayoutWorld := ⟨fundedWallet "0x01", 1⟩

def laterPayout : PayoutWorld := ⟨fundedWallet "0x02", 2⟩

/-- The payout of `pendingPayouts`, undisturbed. -/
def paidStore : PayoutStore := (payoutOnce retryEnv 0 firstPayout pendingPayouts).2

/-- The store after one attempt that stops after `writes` writes and a call that succeeds. -/
def afterPayoutStop (writes : ℕ) : PayoutStore :=
  (payoutOnce retryEnv 0 laterPayout
    (payoutAttempts retryEnv 0 [⟨firstPayout, writes⟩] pendingPayouts)).2

/-- A refund and a payout that stop after their last write are not repeated. -/
theorem usdc_sent_once_iff_stopped_late :
    ((Redeem.afterStop 3).sent.length = 1 ∧
      SameRefundEnd (Redeem.afterStop 3) Redeem.refundedStore) ∧
    (afterPayoutStop 3).sent.length = 1 ∧ SamePayoutEnd (afterPayoutStop 3) paidStore := by
  have hrefund : refundDue retryEnv Redeem.pendingStore (js "b") =
      .owed Redeem.pendingCard (js "100") := rfl
  have hpayout : payoutDue retryEnv pendingPayouts 0 = .owed pendingSettlement := rfl
  obtain ⟨hrefunds, hpayouts⟩ := usdc_sent_once_iff retryEnv
  refine ⟨⟨by decide, ?_⟩, by decide, ?_⟩
  · refine (hrefunds (js "b") Redeem.pendingStore _ _ [⟨Redeem.firstRefund, 3⟩] Redeem.firstRefund
      Redeem.laterRefund _ ⟨some (js "0x01"), true⟩ Redeem.refundOnce_pendingStore
        (Prod.ext (by decide) rfl)).2.mpr ?_
    intro first amountMicros hdue
    obtain ⟨rfl, rfl⟩ := Redeem.RefundDue.owed.inj (hrefund.symm.trans hdue)
    decide
  · refine (hpayouts 0 pendingPayouts _ _ [⟨firstPayout, 3⟩] firstPayout laterPayout
      { pendingSettlement with
        status := .paid, payoutTxHash := some (js "0x01"), confirmedAt := some 1, paidAt := some 1 }
      { pendingSettlement with
        status := .paid, payoutTxHash := some (js "0x01"), confirmedAt := some 1, paidAt := some 1 }
      (Prod.ext (by decide) rfl) (Prod.ext (by decide) rfl)).2.mpr ?_
    intro row hdue
    obtain rfl := PayoutDue.owed.inj (hpayout.symm.trans hdue)
    decide

/-- A process that dies after the transfer repeats it, in a refund and in a payout; one that dies
after the rows are saved leaves the cycle of the refunded card in redemption. -/
theorem usdc_sent_twice :
    (∃ r r', refundOnce retryEnv (js "b") Redeem.firstRefund Redeem.pendingStore =
        (.ok r, Redeem.refundedStore) ∧
      refundOnce retryEnv (js "b") Redeem.laterRefund
        (refundAttempts retryEnv (js "b") [⟨Redeem.firstRefund, 1⟩] Redeem.pendingStore) =
          (.ok r', Redeem.afterStop 1) ∧
      Redeem.refundedStore.sent.length = 1 ∧ (Redeem.afterStop 1).sent.length = 2) ∧
    (∃ r', refundOnce retryEnv (js "b") Redeem.laterRefund
        (refundAttempts retryEnv (js "b") [⟨Redeem.firstRefund, 2⟩] Redeem.pendingStore) =
          (.ok r', Redeem.afterStop 2) ∧
      (Redeem.refundedStore.cycles.get (js "c")).map Vault.VaultCycle.status = some .minted ∧
      ((Redeem.afterStop 2).cycles.get (js "c")).map Vault.VaultCycle.status =
        some .redemptionRequested) ∧
    ∃ r r', payoutOnce retryEnv 0 firstPayout pendingPayouts = (.ok r, paidStore) ∧
      payoutOnce retryEnv 0 laterPayout
        (payoutAttempts retryEnv 0 [⟨firstPayout, 2⟩] pendingPayouts) = (.ok r', afterPayoutStop 2) ∧
      paidStore.sent.length = 1 ∧ (afterPayoutStop 2).sent.length = 2 := by
  refine ⟨⟨_, ⟨some (js "0x02"), false⟩, Redeem.refundOnce_pendingStore, Prod.ext (by decide) rfl,
    by decide, by decide⟩, ⟨⟨some (js "0x01"), true⟩, Prod.ext (by decide) rfl, by decide,
      by decide⟩, ?_⟩
  exact ⟨{ pendingSettlement with
      status := .paid, payoutTxHash := some (js "0x01"), confirmedAt := some 1, paidAt := some 1 },
    { pendingSettlement with
      status := .paid, payoutTxHash := some (js "0x02"), confirmedAt := some 1, paidAt := some 2 },
    Prod.ext (by decide) rfl, Prod.ext (by decide) rfl, by decide, by decide⟩

end Runs

end Settlement
