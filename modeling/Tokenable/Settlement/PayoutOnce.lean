import Tokenable.Settlement.Payout

/-!
# How often a settlement is paid

A settlement that is `paid` or `rejected` is closed. A closed settlement is paid no more as long
as no save opens it again and no transfer starts over it; both need another call between the load
and the save of a row, or between the load and the transfer of `executePayout`. `KeepsClosed`
excludes these steps, `payout_once` is the result for every run without them, and `payout_twice`
is a run with one such save.
-/

namespace Settlement
open Js Platform Async

def payoutCount (s : PayoutStore) (id : ℕ) : ℕ := s.payouts.countP (fun p => p.settlementId = id)

/-- A save that leaves a settlement open, or the transfer of one, finds it open. -/
def KeepsClosed : Allowed PayoutStore PayoutCmd
  | _, s, .save row =>
    row.status.isOpen → ∀ x ∈ s.settlements.rows, x.id = row.id → x.status.isOpen
  | _, s, .transferUsdc id _ _ _ => ∀ x ∈ s.settlements.rows, x.id = id → x.status.isOpen
  | _, _, _ => True

instance (i : ℕ) (s : PayoutStore) (c : PayoutCmd) : Decidable (KeepsClosed i s c) := by
  cases c <;> unfold KeepsClosed <;> infer_instance

def Closed (s : PayoutStore) (id : ℕ) : Prop :=
  ∃ x, s.settlements.get id = some x ∧ x.status.isOpen = false

/-- Closed settlements stay closed and get no payout. -/
structure PayoutEvolve (s t : PayoutStore) : Prop where
  rows : s.settlements.Keeps (fun x y => x.status.isOpen = false → y.status.isOpen = false)
    t.settlements
  payouts : ∀ id, Closed s id → payoutCount t id = payoutCount s id

theorem Closed.mono {s t : PayoutStore} {id : ℕ} (h : PayoutEvolve s t) (hs : Closed s id) :
    Closed t id := by
  obtain ⟨x, hx, hclosed⟩ := hs
  obtain ⟨y, hy, hxy⟩ := h.rows id x hx
  exact ⟨y, hy, hxy hclosed⟩

theorem PayoutEvolve.refl (s : PayoutStore) : PayoutEvolve s s :=
  ⟨Db.Table.Keeps.refl (fun _ h => h) _, fun _ _ => rfl⟩

theorem PayoutEvolve.trans (s t u : PayoutStore) (hst : PayoutEvolve s t)
    (htu : PayoutEvolve t u) : PayoutEvolve s u where
  rows := hst.rows.trans (fun _ _ _ hxy hyz h => hyz (hxy h)) htu.rows
  payouts id hs := (htu.payouts id (hs.mono hst)).trans (hst.payouts id hs)

/-- The payout lock guards the number of payouts of its settlement: while it is free, either
there is none or the settlement is closed. -/
def payoutDiscipline : Discipline ℕ PayoutStore ℕ where
  base s := ∀ id, payoutCount s id ≤ 1
  evolve := PayoutEvolve
  guarded := payoutCount
  free s id := payoutCount s id = 0 ∨ Closed s id
  evolve_refl := PayoutEvolve.refl
  evolve_trans := PayoutEvolve.trans
  free_stable s t id _ hst hcount hfree := by
    rcases hfree with hzero | hclosed
    · exact .inl (hcount.trans hzero)
    · exact .inr (hclosed.mono hst)

variable {env : Env} {i : ℕ} {α : Type}

abbrev PayoutQuiet (i : ℕ) (p : PayoutM α) : Prop :=
  payoutDiscipline.Passive payoutExec KeepsClosed i p

theorem evolve_save {s : PayoutStore} {row : SelfVaultSettlement}
    (hok : KeepsClosed i s (.save row)) : PayoutEvolve s (s.save row) := by
  refine ⟨Db.Table.keeps_save (fun _ h => h) fun x hx hclosed => ?_, fun _ _ => rfl⟩
  by_contra hopen
  rw [Bool.not_eq_false] at hopen
  have hx' := hok hopen x (Db.Table.mem_of_get hx) (Db.Table.get_key hx)
  rw [hx'] at hclosed
  cases hclosed

theorem quiet_read {c : PayoutCmd}
    (hread : ∀ i s x r m, payoutExec i s x c = some (r, m) → m = s) :
    PayoutQuiet i (payoutPerform c) := by
  refine Discipline.passive_call (fun t x r m ht _ hm => ?_) fun r => Discipline.passive_ret _
  obtain rfl := hread i t x r m hm
  exact ⟨ht, PayoutEvolve.refl m, fun _ => rfl⟩

theorem quiet_payoutNow : PayoutQuiet i payoutNow :=
  quiet_read fun _ _ _ _ _ hm => by cases hm; rfl

theorem quiet_saveSettlement (row : SelfVaultSettlement) : PayoutQuiet i (saveSettlement row) := by
  refine Discipline.passive_bind ?_ fun _ => Discipline.passive_ret _
  refine Discipline.passive_call (fun t x r m ht hok hm => ?_) fun r => Discipline.passive_ret _
  cases hm
  exact ⟨ht, evolve_save hok, fun _ => rfl⟩

theorem quiet_loadSettlement (id : ℕ) : PayoutQuiet i (loadSettlement id) :=
  Discipline.passive_bind (quiet_read fun _ _ _ _ _ hm => by cases hm; rfl)
    fun _ => Discipline.passive_orThrow _ _

theorem quiet_confirmRow (row : SelfVaultSettlement) : PayoutQuiet i (confirmRow row) :=
  Discipline.passive_bind quiet_payoutNow fun _ => quiet_saveSettlement _

theorem quiet_markPaid (row : SelfVaultSettlement) (txHash : JsStr) :
    PayoutQuiet i (markPaid row txHash) :=
  Discipline.passive_bind quiet_payoutNow fun _ => quiet_saveSettlement _

theorem quiet_confirmByBuyer (id : ℕ) (buyerWallet : JsStr) :
    PayoutQuiet i (confirmByBuyer id buyerWallet) := by
  refine Discipline.passive_bind (quiet_loadSettlement id) fun row => ?_
  refine Discipline.passive_bind (Discipline.passive_throwIf _ _) fun _ => ?_
  refine Discipline.passive_bind (Discipline.passive_throwIf _ _) fun _ => ?_
  split_ifs
  · exact Discipline.passive_ret _
  · exact quiet_confirmRow row

theorem quiet_adminConfirm (id : ℕ) : PayoutQuiet i (adminConfirm id) := by
  refine Discipline.passive_bind (quiet_loadSettlement id) fun row => ?_
  refine Discipline.passive_bind (Discipline.passive_throwIf _ _) fun _ => ?_
  split_ifs
  · exact quiet_saveSettlement row
  · exact quiet_confirmRow row

theorem quiet_adminReject (id : ℕ) : PayoutQuiet i (adminReject id) :=
  Discipline.passive_bind (quiet_loadSettlement id) fun _ =>
    Discipline.passive_bind (Discipline.passive_throwIf _ _) fun _ => quiet_saveSettlement _

theorem quiet_recordPayout (id : ℕ) (payoutTxHash : JsStr) :
    PayoutQuiet i (recordPayout id payoutTxHash) := by
  refine Discipline.passive_bind (Discipline.passive_throwIf _ _) fun _ => ?_
  refine Discipline.passive_bind (quiet_loadSettlement id) fun row => ?_
  refine Discipline.passive_bind (Discipline.passive_throwIf _ _) fun _ => ?_
  refine Discipline.passive_bind (Discipline.passive_throwIf _ _) fun _ => ?_
  split_ifs
  · exact Discipline.passive_ret _
  · exact quiet_markPaid row _

theorem payoutCount_addPayout (s : PayoutStore) (p : Payout) (id : ℕ) :
    payoutCount (s.addPayout p) id =
      if p.settlementId = id then payoutCount s id + 1 else payoutCount s id := by
  simp only [payoutCount, PayoutStore.addPayout, List.countP_append, List.countP_singleton]
  split_ifs <;> simp_all

theorem evolve_addPayout {s : PayoutStore} {p : Payout} (hopen : ¬ Closed s p.settlementId) :
    PayoutEvolve s (s.addPayout p) := by
  refine ⟨Db.Table.Keeps.refl (fun _ h => h) _, fun id hclosed => ?_⟩
  refine (payoutCount_addPayout s p id).trans (if_neg ?_)
  rintro rfl
  exact hopen hclosed

theorem markPaid_closes {s : Locked ℕ PayoutStore} {row : SelfVaultSettlement} {txHash : JsStr}
    {Q : Except HttpError SelfVaultSettlement → Locked ℕ PayoutStore → Prop}
    (hheld : s.Held i row.id)
    (hQ : ∀ r u, payoutDiscipline.base u.mem → u.Held i row.id →
      payoutDiscipline.free u.mem row.id → Q r u) :
    payoutDiscipline.lwp payoutExec KeepsClosed i (markPaid row txHash) Q s := by
  refine wp_bind (Discipline.lwp_read (fun _ _ _ _ hm => by cases hm; rfl)
    fun t x at_ hst ht _ => ?_)
  refine wp_bind (Discipline.lwp_mem fun u htu hu hok y r m hm => ?_)
  cases hm
  refine ⟨hu, evolve_save hok, fun _ _ => rfl, ?_⟩
  refine hQ _ _ hu (htu.held _ (hst.held _ hheld)) (.inr ⟨_, Db.Table.get_save_self _ _, rfl⟩)

/-- Inside the lock, with no payout yet: the transfer is the first one and the row ends paid. -/
theorem payRow_keeps {s : Locked ℕ PayoutStore} {row : SelfVaultSettlement}
    {Q : Except HttpError SelfVaultSettlement → Locked ℕ PayoutStore → Prop}
    (hheld : s.Held i row.id) (hzero : payoutCount s.mem row.id = 0)
    (hQ : ∀ r u, payoutDiscipline.base u.mem → u.Held i row.id →
      payoutDiscipline.free u.mem row.id → Q r u) :
    payoutDiscipline.lwp payoutExec KeepsClosed i (payRow row) Q s := by
  refine wp_bind (wp_bind (Discipline.lwp_mem fun t hst ht hok x r m hm => ?_))
  have hcount : payoutCount t.mem row.id = 0 := (hst.guarded row.id hheld).trans hzero
  have hopen : ¬ Closed t.mem row.id := by
    rintro ⟨y, hy, hclosed⟩
    have hy' := hok y (Db.Table.mem_of_get hy) (Db.Table.get_key hy)
    rw [hy'] at hclosed
    cases hclosed
  simp only [payoutExec] at hm
  split at hm
  · rename_i txHash hreply
    cases hm
    have hbase : payoutDiscipline.base (t.mem.addPayout
        ⟨row.id, row.sellerWallet, row.sellerPayoutUsdc, row.chainId, txHash⟩) := by
      intro id
      rw [payoutCount_addPayout]
      split_ifs with hid
      · rw [← hid, hcount]
      · exact ht id
    refine ⟨hbase, evolve_addPayout hopen, fun id hid => ?_, ?_⟩
    · refine (payoutCount_addPayout _ _ _).trans (if_neg ?_)
      rintro rfl
      exact hid (hst.held _ hheld)
    · exact markPaid_closes (hst.held _ hheld) hQ
  · cases hm
    refine ⟨ht, PayoutEvolve.refl _, fun _ _ => rfl, ?_⟩
    exact hQ _ _ ht (hst.held _ hheld) (.inl hcount)

theorem lwp_confirmRow {s : Locked ℕ PayoutStore} {row : SelfVaultSettlement}
    {Q : Except HttpError SelfVaultSettlement → Locked ℕ PayoutStore → Prop}
    (hQ : ∀ row' u, row'.id = row.id → payoutDiscipline.Rely i s u →
      payoutDiscipline.base u.mem → Q (.ok row') u) :
    payoutDiscipline.lwp payoutExec KeepsClosed i (confirmRow row) Q s := by
  refine wp_bind (Discipline.lwp_read (fun _ _ _ _ hm => by cases hm; rfl)
    fun t x at_ hst ht _ => ?_)
  refine wp_bind (Discipline.lwp_mem fun u htu hu hok y r m hm => ?_)
  cases hm
  have hevolve := evolve_save hok
  have hrely := Discipline.rely_of_evolve (D := payoutDiscipline) (t := u) (i := i) hevolve
    fun _ => rfl
  exact ⟨hu, hevolve, fun _ _ => rfl, hQ _ _ rfl (hst.trans (htu.trans hrely)) hu⟩

theorem payoutSection_keeps {s : Locked ℕ PayoutStore} {id : ℕ}
    {Q : Except HttpError SelfVaultSettlement → Locked ℕ PayoutStore → Prop}
    (hs : payoutDiscipline.base s.mem) (hheld : s.Held i id) (hfree : payoutDiscipline.free s.mem id)
    (hQ : ∀ r u, payoutDiscipline.base u.mem → u.Held i id → payoutDiscipline.free u.mem id →
      Q r u) :
    payoutDiscipline.lwp payoutExec KeepsClosed i (payoutSection env id) Q s := by
  have hquit : ∀ r u, payoutDiscipline.Rely i s u → payoutDiscipline.base u.mem → Q r u := by
    intro r u hsu hu
    refine hQ r u hu (hsu.held _ hheld) ?_
    exact payoutDiscipline.free_stable _ _ _ hs hsu.evolve (hsu.guarded _ hheld) hfree
  refine wp_bind (wp_bind (Discipline.lwp_read (fun _ _ _ _ hm => by cases hm; rfl)
    fun t x found ht hbase hfound => ?_))
  cases hfound
  refine wp_orThrow (fun _ => hquit _ _ ht hbase) fun row hget => ?_
  obtain rfl := Db.Table.get_key hget
  by_cases hpaid : row.status = .paid
  · simp only [hpaid, if_true]
    exact hquit _ _ ht hbase
  simp only [hpaid, if_false]
  refine wp_bind (wp_throwIf (fun _ => hquit _ _ ht hbase) fun hrejected => ?_)
  refine wp_bind (wp_throwIf (fun _ => hquit _ _ ht hbase) fun _ => ?_)
  have hzero : payoutCount t.mem row.id = 0 := by
    rcases payoutDiscipline.free_stable _ _ _ hs ht.evolve (ht.guarded _ hheld) hfree with h | h
    · exact h
    · obtain ⟨y, hy, hclosed⟩ := h
      obtain rfl := Option.some.inj (hget.symm.trans hy)
      cases hstatus : row.status <;> simp_all [SettlementStatus.isOpen]
  refine wp_bind ?_
  by_cases hpending : row.status = .pendingConfirm
  · simp only [hpending, if_true]
    refine lwp_confirmRow fun row' u hid htu _ => ?_
    rw [← hid] at hzero hheld hQ
    exact payRow_keeps (htu.held _ (ht.held _ hheld))
      ((htu.guarded _ (ht.held _ hheld)).trans hzero) hQ
  · simp only [hpending, if_false]
    exact payRow_keeps (ht.held _ hheld) hzero hQ

theorem executePayout_keeps {s : Locked ℕ PayoutStore} {id : ℕ}
    {Q : Except HttpError SelfVaultSettlement → Locked ℕ PayoutStore → Prop}
    (hQ : ∀ r u, payoutDiscipline.base u.mem → Q r u) :
    payoutDiscipline.lwp payoutExec KeepsClosed i (executePayout env id) Q s := by
  refine Discipline.lwp_withLock fun t _ ht hheld hfree => ?_
  refine payoutSection_keeps ht hheld hfree fun r u hu hheld' hfree' => ?_
  exact ⟨hu, hheld', hfree', fun v _ hv => hQ r v hv⟩

theorem payDue_keeps (rows : List SelfVaultSettlement) {s : Locked ℕ PayoutStore} :
    payoutDiscipline.lwp payoutExec KeepsClosed i (payDue env rows) anyEnd s := by
  induction rows generalizing s with
  | nil => exact wp_ret trivial
  | cons row rows ih => exact wp_bind (wp_swallow (executePayout_keeps fun _ _ _ => ih))

theorem autoPayoutCron_keeps {s : Locked ℕ PayoutStore} :
    payoutDiscipline.lwp payoutExec KeepsClosed i (autoPayoutCron env) anyEnd s := by
  unfold autoPayoutCron
  split_ifs
  · exact wp_ret trivial
  · refine wp_bind (Discipline.lwp_read (fun _ _ _ _ hm => by cases hm; rfl)
      fun t x now _ _ _ => ?_)
    refine wp_bind (Discipline.lwp_read (fun _ _ _ _ hm => by cases hm; rfl)
      fun u y due _ _ _ => ?_)
    exact payDue_keeps due

theorem payoutCall_keeps (c : PayoutCall) (i : ℕ) (s : Locked ℕ PayoutStore)
    (hs : payoutDiscipline.contract.inv s) : wp (lockedHandler payoutExec)
      (lockedAllowed KeepsClosed) payoutDiscipline.contract i (c.task env) anyEnd s := by
  have hquiet : ∀ {p : PayoutM SelfVaultSettlement}, PayoutQuiet i p →
      payoutDiscipline.lwp payoutExec KeepsClosed i (Prog.swallow p : PayoutTask) anyEnd s :=
    fun hp => wp_swallow (hp s _ hs.base trivial fun _ _ _ _ => trivial)
  cases c with
  | confirmByBuyer id buyerWallet => exact hquiet (quiet_confirmByBuyer id buyerWallet)
  | adminConfirm id => exact hquiet (quiet_adminConfirm id)
  | adminReject id => exact hquiet (quiet_adminReject id)
  | recordPayout id payoutTxHash => exact hquiet (quiet_recordPayout id payoutTxHash)
  | executePayout id => exact wp_swallow (executePayout_keeps fun _ _ _ => trivial)
  | autoPayoutCron => exact wp_swallow (wp_mono (fun _ _ _ => trivial) autoPayoutCron_keeps)

abbrev PayoutPool := Pool (Locked ℕ PayoutStore) (LockCmd ℕ ⊕ PayoutCmd) (LockRes ℕ PayoutRes)
  Empty Unit

def payoutStart (s : PayoutStore) : PayoutPool := ⟨⟨Locks.unheld, s⟩, []⟩

/-- The runs of the service whose steps keep closed settlements closed. -/
abbrev PayoutReach (env : Env) (Ok : Allowed PayoutStore PayoutCmd) (p q : PayoutPool) : Prop :=
  Pool.Reach (lockedHandler payoutExec) (PayoutCall.task env) (lockedAllowed Ok) p q

/-- In every run whose steps find open what they leave open or pay, a settlement is paid at most
once, and not at all after the run has seen it paid or rejected. -/
theorem payout_once (env : Env) (s : PayoutStore) (hs : s.payouts = []) (r q : PayoutPool)
    (hr : PayoutReach env KeepsClosed (payoutStart s) r) (hq : PayoutReach env KeepsClosed r q)
    (id : ℕ) :
    payoutCount q.shared.mem id ≤ 1 ∧
      (Closed r.shared.mem id → payoutCount q.shared.mem id = payoutCount r.shared.mem id) := by
  have hzero : ∀ id, payoutCount s id = 0 := fun id => by rw [payoutCount, hs]; rfl
  have hinit : payoutDiscipline.contract.inv (payoutStart s).shared :=
    ⟨fun id => (hzero id).trans_le (Nat.zero_le 1), fun id _ => .inl (hzero id)⟩
  have hkeeps := fun c i t ht => @payoutCall_keeps env c i t ht
  have hsafe := Pool.safe_reach stablePost_anyEnd hkeeps hr (Pool.safe_nil hinit)
  have hevolve : PayoutEvolve r.shared.mem q.shared.mem :=
    Pool.evolves_of_reach (T := fun s t => PayoutEvolve s.mem t.mem) stablePost_anyEnd hkeeps
      (fun s => PayoutEvolve.refl s.mem) (fun s t u => PayoutEvolve.trans s.mem t.mem u.mem)
      (fun _ _ _ h => h.evolve) hsafe hq
  exact ⟨(Pool.safe_reach stablePost_anyEnd hkeeps hq hsafe).inv.base id, hevolve.payouts id⟩

section Runs

def confirmedSettlement : SelfVaultSettlement where
  id := 0
  orderHash := js "0x01"
  sellerWallet := js "0x00000000000000000000000000000000000000aa"
  buyerWallet := js "0x00000000000000000000000000000000000000bb"
  grossUsdc := js "100"
  sellerPayoutUsdc := js "95"
  chainId := 1
  status := .confirmed

def confirmedStore : PayoutStore := ⟨⟨[confirmedSettlement], by decide⟩, []⟩

def payoutEnv : Env where
  platformFeePrivateKey := some (js "key")
  platformFeeRecipient := some (js "0x00000000000000000000000000000000000000fe")

def payoutSteps (i n : ℕ) : List (Pool.Event PayoutCall Oracle) :=
  List.replicate n (.run i { reply := .ok (js "0x01"), now := 1000000 })

/-- The cron pays the settlement; a payout and a rejection that come later find it paid. -/
def payThenReject : List (Pool.Event PayoutCall Oracle) :=
  .spawn .autoPayoutCron :: payoutSteps 0 9 ++ .spawn (.executePayout 0) :: payoutSteps 1 4 ++
    .spawn (.adminReject 0) :: payoutSteps 2 1

theorem payout_once_payThenReject :
    ∃ q, PayoutReach payoutEnv KeepsClosed (payoutStart confirmedStore) q ∧
      payoutCount q.shared.mem 0 = 1 ∧ payoutCount q.shared.mem 0 ≤ 1 := by
  have hplay : ∃ q, PayoutReach payoutEnv KeepsClosed (payoutStart confirmedStore) q ∧
      payoutCount q.shared.mem 0 = 1 := Pool.exists_reach_of_runSchedule payThenReject _ (by decide)
  obtain ⟨q, hq, hcount⟩ := hplay
  exact ⟨q, hq, hcount, (payout_once payoutEnv confirmedStore rfl q q hq .refl 0).1⟩

/-- `adminConfirm` loads the confirmed row, a whole `executePayout` runs, `adminConfirm` saves its
copy, and the settlement is paid again. -/
def staleConfirm : List (Pool.Event PayoutCall Oracle) :=
  .spawn (.adminConfirm 0) :: payoutSteps 0 1 ++ .spawn (.executePayout 0) :: payoutSteps 1 7 ++
    payoutSteps 0 1 ++ .spawn (.executePayout 0) :: payoutSteps 2 4

theorem payout_twice :
    ∃ q, PayoutReach payoutEnv anyStep (payoutStart confirmedStore) q ∧
      payoutCount q.shared.mem 0 = 2 :=
  Pool.exists_reach_of_runSchedule staleConfirm _ (by decide)

end Runs

end Settlement
