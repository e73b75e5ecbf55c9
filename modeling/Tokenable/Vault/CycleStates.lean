import Tokenable.Redeem.Commands
import Tokenable.Vault.CycleService

/-!
# The states of a vault cycle

`next` lists the changes of status that a cycle goes through; a redeemed or cancelled cycle is at its
end. In every interleaving of the writers each step makes such changes only, provided that no save
writes over a status that has changed since its copy was loaded, and that no burn is recorded on a
cycle that has no minted card.
-/

namespace Cycles
open Js Platform Async Db Vault Redeem Backend

def next : CycleStatus → List CycleStatus
  | .pendingDeposit => []
  | .depositVerified => [.minting, .cancelled, .minted]
  | .minting => [.cancelled, .minted]
  | .minted => [.redemptionRequested, .redeemed]
  | .redemptionRequested => [.minted, .redeemed]
  | .redeemed => []
  | .cancelled => []

def Moves (s t : CycleStatus) : Prop := t = s ∨ t ∈ next s

instance (s t : CycleStatus) : Decidable (Moves s t) := inferInstanceAs (Decidable (_ ∨ _))

/-- Every cycle is still there and has stayed in its status or made one of the changes. -/
def StatusSteps (t u : Tables) : Prop :=
  Table.Keeps (fun c d : VaultCycle => Moves c.status d.status) t.cycles u.cycles

/-- At most one cycle of an asset on a chain is neither redeemed nor cancelled. -/
def OneOpen (cycles : CycleTable) : Prop :=
  ∀ c ∈ cycles.rows, ∀ d ∈ cycles.rows, isOpen c = true → isOpen d = true →
    c.vaultAssetId = d.vaultAssetId → c.chainId = d.chainId → c = d

/-- The save of a cycle finds the status that its copy was loaded with, and a burn is recorded on a
minted or already redeemed cycle only. -/
abbrev FreshCycleSave : Allowed Tables Cmd
  | _, t, .saveCycle loaded cycle =>
    (∀ stored ∈ t.cycles.get loaded.id, stored.status = loaded.status) ∧
      (cycle.status = .redeemed →
        loaded.status ∈ [CycleStatus.minted, .redemptionRequested, .redeemed])
  | _, _, _ => True

instance (i : ℕ) (t : Tables) (c : Cmd) : Decidable (FreshCycleSave i t c) := by
  unfold FreshCycleSave
  split <;> infer_instance

section Tables
variable {t u : Tables} {c : VaultCycle}

theorem StatusSteps.of_eq (h : u.cycles = t.cycles) : StatusSteps t u := by
  rw [StatusSteps, h]
  exact Table.Keeps.refl (fun _ => .inl rfl) _

theorem oneOpen_save (ht : OneOpen t.cycles) (hc : rejectsCycle t c = false) :
    OneOpen (t.cycles.save c) := by
  have hapart : ∀ d ∈ t.cycles.rows, d.id ≠ c.id → isOpen c = true → isOpen d = true →
      d.vaultAssetId = c.vaultAssetId → d.chainId ≠ c.chainId := by
    intro d hd hid hopen hopen' hasset hchain
    have hclash := List.any_eq_false.mp hc d hd
    simp [clash, hid, hopen, hopen', hasset, hchain] at hclash
  intro a ha b hb hopen hopen' hasset hchain
  rcases Table.mem_save.mp ha with hac | ⟨hat, hne⟩
  · rcases Table.mem_save.mp hb with hbc | ⟨hbt, hne'⟩
    · exact hac.trans hbc.symm
    · rw [hac] at hopen hasset hchain
      exact absurd hchain.symm (hapart b hbt hne' hopen hopen' hasset.symm)
  · rcases Table.mem_save.mp hb with hbc | ⟨hbt, hne'⟩
    · rw [hbc] at hopen' hasset hchain
      exact absurd hchain (hapart a hat hne hopen' hopen hasset)
    · exact ht a hat b hbt hopen hopen' hasset hchain

end Tables

section Deposit
variable {xs : Draws} {keccak : JsStr → JsStr} {params : DepositParams} {cert : JsStr}
  {t : Tables}

theorem cycles_depositAsset {r : VaultAsset × Tables}
    (h : depositAsset xs keccak params cert t = .ok r) : r.2.cycles = t.cycles := by
  unfold depositAsset at h
  cases hasset : t.assetOf cert with
  | none =>
    rw [hasset] at h
    dsimp only at h
    split_ifs at h
    obtain rfl := Except.ok.inj h
    rfl
  | some asset =>
    rw [hasset] at h
    dsimp only at h
    split_ifs at h
    · obtain rfl := Except.ok.inj h
      rfl
    · obtain rfl := Except.ok.inj h
      rfl

/-- The new cycle has a free key, and no index rejects it. -/
theorem cycles_depositCycle {chainId : ℕ} {asset : VaultAsset} {r : VaultCycle × Tables}
    (h : depositCycle xs chainId cert asset t = .ok r) :
    r.2.cycles = t.cycles.save r.1 ∧ t.cycles.get r.1.id = none ∧ rejectsCycle t r.1 = false := by
  unfold depositCycle at h
  cases hopen : t.openCycleOf asset.id chainId with
  | some openCycle =>
    rw [hopen] at h
    cases h
  | none =>
    rw [hopen] at h
    dsimp only at h
    split_ifs at h with hrefused
    obtain rfl := Except.ok.inj h
    obtain ⟨htaken, hrejects⟩ := Bool.or_eq_false_iff.mp (Bool.eq_false_iff.mpr hrefused)
    exact ⟨rfl, Option.isNone_iff_eq_none.mp (by simpa using htaken), hrejects⟩

theorem cycles_reserveCycleForDeposit {r : (VaultAsset × VaultCycle) × Tables}
    (h : reserveCycleForDeposit xs keccak params t = .ok r) :
    ∃ c, r.2.cycles = t.cycles.save c ∧ t.cycles.get c.id = none ∧ rejectsCycle t c = false := by
  unfold reserveCycleForDeposit at h
  split_ifs at h
  cases hdeposit : depositAsset xs keccak params (normalizeCert params.certNumber) t with
  | error e =>
    rw [hdeposit] at h
    cases h
  | ok deposit =>
    have hsame : deposit.2.cycles = t.cycles := cycles_depositAsset hdeposit
    rw [hdeposit] at h
    change ((depositCycle xs params.chainId (normalizeCert params.certNumber) deposit.1
      deposit.2).bind fun opened => .ok ((deposit.1, opened.1), opened.2)) = .ok r at h
    cases hopened : depositCycle xs params.chainId (normalizeCert params.certNumber) deposit.1
        deposit.2 with
    | error e =>
      rw [hopened] at h
      cases h
    | ok opened =>
      obtain ⟨hsaved, hfree, hrejects⟩ := cycles_depositCycle hopened
      rw [hopened] at h
      have hr : ((deposit.1, opened.1), opened.2) = r := Except.ok.inj h
      rw [hsame] at hsaved hfree
      rw [rejectsCycle, hsame] at hrejects
      exact ⟨opened.1, hr ▸ hsaved, hfree, hrejects⟩

end Deposit

section Request
variable {env : Env} {s u : TxTables} {α β : Type}

/-- What a paid redeem does to the cycles of one transaction: each stays in its status, or a minted
one is requested. -/
structure RequestSteps (t u : Tables) : Prop where
  statuses : Table.Keeps (fun c d : VaultCycle => d.status = c.status ∨
    (c.status = .minted ∧ d.status = .redemptionRequested)) t.cycles u.cycles
  oneOpen : OneOpen t.cycles → OneOpen u.cycles

/-- The same of a transaction that has not failed; one that has failed stays so. -/
def TxSteps (s u : TxTables) : Prop :=
  u.failed = false → s.failed = false ∧ RequestSteps s.tables u.tables

theorem RequestSteps.of_eq {t u : Tables} (h : u.cycles = t.cycles) : RequestSteps t u := by
  refine ⟨?_, fun ht => h ▸ ht⟩
  rw [h]
  exact Table.Keeps.refl (fun _ => .inl rfl) _

theorem TxSteps.refl (s : TxTables) : TxSteps s s := fun hs => ⟨hs, .of_eq rfl⟩

theorem TxSteps.trans {s u v : TxTables} (hsu : TxSteps s u) (huv : TxSteps u v) : TxSteps s v := by
  intro hv
  obtain ⟨hu, hlater⟩ := huv hv
  obtain ⟨hs, hfirst⟩ := hsu hu
  refine ⟨hs, ?_, fun ht => hlater.oneOpen (hfirst.oneOpen ht)⟩
  refine Table.Keeps.trans (fun a b c hab hbc => ?_) hfirst.statuses hlater.statuses
  rcases hab with hab | ⟨ha, hb⟩
  · rw [hab] at hbc
    exact hbc
  · rcases hbc with hbc | ⟨hb', hc⟩
    · exact .inr ⟨ha, hbc.trans hb⟩
    · rw [hb] at hb'
      cases hb'

/-- A save that a unique index does not reject, of a new cycle or of one that is minted. -/
theorem txSteps_saveCycle {x : World} {c : VaultCycle}
    (hc : ∀ d, s.tables.cycles.get c.id = some d → c.status = d.status ∨
      (d.status = .minted ∧ c.status = .redemptionRequested)) :
    TxSteps s (inTransaction env s x (.inl (.inTx (.saveCycle c)))).2 := by
  intro hfailed
  obtain ⟨hs, hrejects⟩ := Bool.or_eq_false_iff.mp hfailed
  exact ⟨hs, Table.keeps_save (fun _ => .inl rfl) hc, fun ht => oneOpen_save ht hrejects⟩

/-- The commands of a request other than the save of a cycle. -/
def Elsewhere : BackendCmd → Prop
  | .inl (.auto (.saveCycle _)) | .inl (.inTx (.saveCycle _)) => False
  | _ => True

theorem cycles_inTransaction {c : BackendCmd} (hc : Elsewhere c) (s : TxTables) (x : World) :
    (inTransaction env s x c).2.tables.cycles = s.tables.cycles := by
  have hstmt : ∀ q : Stmt, (∀ cycle, q ≠ .saveCycle cycle) →
      (if q.changes s.tables then q.apply env s.tables else s.tables).cycles = s.tables.cycles := by
    intro q hq
    split_ifs
    · cases q with
      | saveCycle cycle => exact absurd rfl (hq cycle)
      | _ => rfl
    · rfl
  rcases c with (q | q | _ | _) | q
  · refine hstmt q fun cycle hcycle => ?_
    rw [hcycle] at hc
    exact hc
  · refine hstmt q fun cycle hcycle => ?_
    rw [hcycle] at hc
    exact hc
  · rfl
  · rfl
  · rfl

theorem txSteps_elsewhere {c : BackendCmd} (hc : Elsewhere c) (s : TxTables) (x : World) :
    TxSteps s (inTransaction env s x c).2 := by
  intro hfailed
  obtain ⟨hs, -⟩ := Bool.or_eq_false_iff.mp hfailed
  exact ⟨hs, .of_eq (cycles_inTransaction hc s x)⟩

/-- However the program runs inside a transaction, the cycles make request steps. -/
def KeepsRequest (env : Env) (p : BackendM α) : Prop :=
  ∀ s o u, p.Runs (inTransaction env) anyAnswer s o u → TxSteps s u

theorem keepsRequest_ret (r : Except HttpError α) : KeepsRequest env (.ret r) := by
  rintro s o u ⟨-, rfl⟩
  exact .refl s

theorem keepsRequest_of_elsewhere {p : BackendM α} (hp : p.Issues Elsewhere) :
    KeepsRequest env p := fun _ _ _ hrun =>
  Prog.runs_relates TxSteps.refl (fun _ _ _ => TxSteps.trans)
    (fun _ hc s x _ => txSteps_elsewhere hc s x) hp hrun

theorem keepsRequest_bind {p : BackendM α} {f : α → BackendM β} (hp : KeepsRequest env p)
    (hf : ∀ a, KeepsRequest env (f a)) : KeepsRequest env (p >>= f) := by
  intro s o u hrun
  rcases Prog.runs_bind.mp hrun with ⟨a, v, ha, ho⟩ | ⟨e, he, -⟩
  · exact (hp s _ v ha).trans (hf a v o u ho)
  · exact hp s _ u he

theorem elsewhere_tx {q : Stmt} (h : Elsewhere (.inl (.inTx q))) : (tx q).Issues Elsewhere :=
  ⟨h, fun _ => Prog.issues_ret _⟩

theorem elsewhere_rpc (q : Rpc) : (rpc q).Issues Elsewhere := ⟨trivial, fun _ => Prog.issues_ret _⟩

theorem elsewhere_insertPaymentClaimOrConflict (claim : PaymentClaim) :
    (insertPaymentClaimOrConflict claim).Issues Elsewhere := by
  refine Prog.issues_bind (elsewhere_tx trivial) fun existing => ?_
  refine Prog.issues_bind ?_ fun saved => ?_
  · cases existing <;> exact elsewhere_tx trivial
  · rcases saved with (_ | _) | _ <;> exact Prog.issues_ret _

theorem elsewhere_findOrCreateAsset (token : RwaToken) (cert : JsStr) :
    (findOrCreateAsset token cert).Issues Elsewhere := by
  refine Prog.issues_bind (elsewhere_tx trivial) fun found => ?_
  cases found with
  | some asset => exact Prog.issues_ret _
  | none =>
    refine Prog.issues_bind (elsewhere_rpc _) fun vaultRef => ?_
    refine Prog.issues_bind (elsewhere_rpc _) fun id => ?_
    refine Prog.issues_bind (elsewhere_tx trivial) fun saved => ?_
    exact Prog.issues_bind (issues_orQueryFailed saved) fun _ => Prog.issues_ret _

theorem elsewhere_lockRedeemableToken (item : PaidItem) :
    (lockRedeemableToken item).Issues Elsewhere := by
  refine Prog.issues_bind (elsewhere_tx trivial) fun found => ?_
  refine Prog.issues_bind (Prog.issues_orThrow _ found) fun token => ?_
  exact Prog.issues_bind (Prog.issues_throwIf _ _) fun _ => Prog.issues_ret _

/-- The cycle that is made for a token without one gets a key that no cycle has. -/
theorem keepsRequest_findOrCreateMintedCycle (assetId : JsStr) (chainId : ℕ) :
    KeepsRequest env (findOrCreateMintedCycle assetId chainId) := by
  refine keepsRequest_bind (keepsRequest_of_elsewhere (elsewhere_tx trivial)) fun found => ?_
  cases found with
  | some openCycle =>
    dsimp only
    split_ifs <;> exact keepsRequest_ret _
  | none =>
    refine keepsRequest_bind (keepsRequest_of_elsewhere (elsewhere_tx trivial)) fun priorCount => ?_
    rintro s o u ⟨x, -, y, -, -, rfl⟩
    intro hfailed
    obtain ⟨hdrawn, hrejects⟩ := Bool.or_eq_false_iff.mp hfailed
    obtain ⟨hs, htaken⟩ := Bool.or_eq_false_iff.mp hdrawn
    have hfree : s.tables.cycles.get (x .uuid) = none := by simpa [failsTx] using htaken
    refine ⟨hs, Table.keeps_save (fun _ => .inl rfl) fun d hd => ?_,
      fun ht => oneOpen_save ht hrejects⟩
    cases hfree.symm.trans hd

theorem keepsRequest_lockMintedCycle (token : RwaToken) (chainId : ℕ) :
    KeepsRequest env (lockMintedCycle token chainId) := by
  have hbackfill : KeepsRequest env (backfillCycleForToken token chainId) := by
    refine keepsRequest_bind (keepsRequest_of_elsewhere (Prog.issues_throwIf _ _)) fun _ => ?_
    refine keepsRequest_bind
      (keepsRequest_of_elsewhere (elsewhere_findOrCreateAsset token _)) fun asset => ?_
    refine keepsRequest_bind (keepsRequest_findOrCreateMintedCycle asset.id chainId) fun cycle => ?_
    refine keepsRequest_of_elsewhere (Prog.issues_bind (elsewhere_rpc _) fun vaultRef => ?_)
    exact Prog.issues_bind (elsewhere_tx trivial) fun _ => Prog.issues_ret _
  have hlink : KeepsRequest env (cycleIdOf token chainId) := by
    unfold cycleIdOf
    cases token.vaultCycleId with
    | some id => exact keepsRequest_ret _
    | none => exact hbackfill
  refine keepsRequest_bind hlink fun cycleId => keepsRequest_of_elsewhere ?_
  refine Prog.issues_bind (elsewhere_tx trivial) fun found => ?_
  refine Prog.issues_bind (Prog.issues_orThrow _ found) fun cycle => ?_
  exact Prog.issues_bind (Prog.issues_throwIf _ _) fun _ => Prog.issues_ret _

theorem runs_tx {q : Stmt} {o : Except HttpError q.Res} :
    (tx q : BackendM q.Res).Runs (inTransaction env) anyAnswer s o u ↔
      ∃ x, .ok (q.answer s.tables) = o ∧ (inTransaction env s x (.inl (.inTx q))).2 = u :=
  exists_congr fun _ => ⟨And.right, And.intro trivial⟩

/-- The locked cycle is stored as it was read, and minted. -/
theorem stored_lockMintedCycle {token : RwaToken} {chainId : ℕ} {cycle : VaultCycle}
    (hrun : (lockMintedCycle token chainId).Runs (inTransaction env) anyAnswer s (.ok cycle) u) :
    u.tables.cycles.get cycle.id = some cycle ∧ cycle.status = .minted := by
  rcases Prog.runs_bind.mp hrun with ⟨cycleId, v, -, hlock⟩ | ⟨e, -, he⟩
  · rcases Prog.runs_bind.mp hlock with ⟨found, w, hfound, hrest⟩ | ⟨e, -, he⟩
    · obtain ⟨x, hanswer, rfl⟩ := runs_tx.mp hfound
      obtain rfl := Except.ok.inj hanswer
      rcases Prog.runs_bind.mp hrest with ⟨stored, w, hstored, hguarded⟩ | ⟨e, -, he⟩
      · have hget : v.tables.cycles.get cycleId = some stored :=
          Prog.yields_orThrow.mp (Prog.yields_of_runs hstored)
        obtain ⟨-, rfl⟩ := Prog.runs_orThrow.mp hstored
        rcases Prog.runs_bind.mp hguarded with ⟨_, w, hguard, hend⟩ | ⟨e, -, he⟩
        · have hminted := Prog.yields_throwIf.mp (Prog.yields_of_runs hguard)
          obtain ⟨-, rfl⟩ := Prog.runs_throwIf.mp hguard
          obtain ⟨hsame, rfl⟩ := Prog.runs_pure.mp hend
          obtain rfl := Except.ok.inj hsame
          exact ⟨Table.get_of_mem (Table.mem_of_get hget), by simpa using hminted⟩
        · cases he
      · cases he
    · cases he
  · cases he

/-- The commands after the lock of `cycle`: the only save is its request. -/
def Requests (cycle : VaultCycle) (c : BackendCmd) : Prop :=
  Elsewhere c ∨ c = .inl (.inTx (.saveCycle { cycle with status := .redemptionRequested }))

/-- The locked cycle is minted, or the transaction has already requested it. -/
def Requestable (cycle : VaultCycle) (s : TxTables) : Prop :=
  ∃ d, s.tables.cycles.get cycle.id = some d ∧
    (d.status = .minted ∨ d.status = .redemptionRequested)

theorem keepsRequest_requests {cycle : VaultCycle} {p : BackendM α} (hp : p.Issues (Requests cycle))
    {o : Except HttpError α} (hrun : p.Runs (inTransaction env) anyAnswer s o u)
    (hs : Requestable cycle s) : TxSteps s u := by
  refine (Prog.runs_keeps (K := fun v => TxSteps s v ∧ Requestable cycle v)
    (fun c hc v x _ hv => ?_) hp hrun ⟨.refl s, hs⟩).1
  obtain ⟨hsv, d, hd, hstatus⟩ := hv
  rcases hc with hc | rfl
  · refine ⟨hsv.trans (txSteps_elsewhere hc v x), d, ?_, hstatus⟩
    rw [cycles_inTransaction hc]
    exact hd
  · refine ⟨hsv.trans (txSteps_saveCycle fun d' hd' => ?_), _, Table.get_save_self _ _, .inr rfl⟩
    obtain rfl := Option.some.inj (hd.symm.trans hd')
    rcases hstatus with hminted | hrequested
    · exact .inr ⟨hminted, rfl⟩
    · exact .inl hrequested.symm

theorem keepsRequest_insertPaidRedemptionRow (p : PaidBatch) (item : PaidItem) :
    KeepsRequest env (insertPaidRedemptionRow p item) := by
  refine keepsRequest_bind
    (keepsRequest_of_elsewhere (elsewhere_lockRedeemableToken item)) fun token => ?_
  intro s o u hrun
  rcases Prog.runs_bind.mp hrun with ⟨cycle, v, hlock, hrest⟩ | ⟨e, he, -⟩
  · have hrequests : ∀ q : Stmt, Elsewhere (.inl (.inTx q)) → (tx q).Issues (Requests cycle) :=
      fun q hq => ⟨.inl hq, fun _ => Prog.issues_ret _⟩
    have hasks : ∀ q : Rpc, (rpc q).Issues (Requests cycle) :=
      fun q => ⟨.inl trivial, fun _ => Prog.issues_ret _⟩
    obtain ⟨hstored, hminted⟩ := stored_lockMintedCycle hlock
    refine (keepsRequest_lockMintedCycle token p.chainId s _ v hlock).trans ?_
    refine keepsRequest_requests ?_ hrest ⟨cycle, hstored, .inl hminted⟩
    refine Prog.issues_bind (hrequests _ trivial) fun existingOpen => ?_
    cases existingOpen with
    | some open_ => exact Prog.issues_ret _
    | none =>
      refine Prog.issues_bind (hasks _) fun id => ?_
      refine Prog.issues_bind (hasks _) fun at_ => ?_
      refine Prog.issues_bind (hrequests _ trivial) fun saved => ?_
      refine Prog.issues_bind (issues_orQueryFailed saved) fun _ => ?_
      exact Prog.issues_bind ⟨.inr rfl, fun _ => Prog.issues_ret _⟩ fun _ => Prog.issues_ret _
  · exact keepsRequest_lockMintedCycle token p.chainId s _ u he

theorem keepsRequest_insertPaidRedemptionRows (p : PaidBatch) (items : List PaidItem) :
    KeepsRequest env (insertPaidRedemptionRows p items) := by
  induction items with
  | nil => exact keepsRequest_ret _
  | cons item items ih =>
    exact keepsRequest_bind (keepsRequest_insertPaidRedemptionRow p item) fun row =>
      keepsRequest_bind ih fun rows => keepsRequest_ret _

theorem keepsRequest_transaction {body : BackendM α} (hbody : KeepsRequest env body) :
    KeepsRequest env (transaction body) := by
  intro s o u hrun
  obtain ⟨r, v, hr, hend⟩ := Prog.runs_settle.mp hrun
  refine (hbody s r v hr).trans ?_
  cases r with
  | ok a =>
    obtain ⟨x, -, -, rfl⟩ := hend
    exact txSteps_elsewhere (c := .inl .commit) trivial v x
  | error e =>
    obtain ⟨x, -, -, rfl⟩ := hend
    exact txSteps_elsewhere (c := .inl .rollback) trivial v x

theorem keepsRequest_createPaidRedemptionBatch (params : PaidBatch) :
    KeepsRequest env (createPaidRedemptionBatch params) := by
  refine keepsRequest_bind (keepsRequest_of_elsewhere (Prog.issues_throwIf _ _)) fun _ => ?_
  refine keepsRequest_bind (keepsRequest_of_elsewhere (Prog.issues_throwIf _ _)) fun _ => ?_
  refine keepsRequest_transaction (keepsRequest_bind ?_ fun _ => ?_)
  · exact keepsRequest_of_elsewhere (elsewhere_insertPaymentClaimOrConflict _)
  · exact keepsRequest_insertPaidRedemptionRows _ _

/-- A transaction is stored as a whole or not at all. -/
theorem requestSteps_runTransaction {p : BackendM α} (hp : KeepsRequest env p) (xs : Draws)
    (t : Tables) : RequestSteps t (runTransaction env xs p t).2 := by
  have hrun := Prog.runs_playEach (H := inTransaction env) p xs ⟨t, false⟩
  unfold runTransaction
  dsimp only
  split_ifs with hfailed
  · exact .of_eq rfl
  · split
    · exact .of_eq rfl
    · exact (hp _ _ _ hrun (Bool.eq_false_iff.mpr hfailed)).2

end Request

section Commands
variable {env : Env} {keccak : JsStr → JsStr} {t : Tables} {c : Cmd} {xs : Draws}

/-- A save stores the loaded cycle with a later status, or as redeemed. -/
def Guarded : Cmd → Prop
  | .saveCycle loaded cycle =>
    cycle.id = loaded.id ∧ (Moves loaded.status cycle.status ∨ cycle.status = .redeemed)
  | _ => True

theorem oneOpen_exec (ht : OneOpen t.cycles) : OneOpen (exec env keccak t xs c).2.cycles := by
  cases c with
  | reserveCycleForDeposit params =>
    unfold exec
    dsimp only
    split
    · next r hr =>
      obtain ⟨cycle, hsaved, -, hrejects⟩ := cycles_reserveCycleForDeposit hr
      rw [hsaved]
      exact oneOpen_save ht hrejects
    · exact ht
  | createPaidRedemptionBatch params =>
    exact (requestSteps_runTransaction (keepsRequest_createPaidRedemptionBatch params) xs t).oneOpen
      ht
  | saveCycle loaded cycle =>
    unfold exec
    dsimp only
    split_ifs with hrejects
    · exact ht
    · exact oneOpen_save ht (Bool.eq_false_iff.mpr hrejects)
  | insertRedemption row =>
    unfold exec
    dsimp only
    split_ifs <;> exact ht
  | _ => exact ht

theorem statusSteps_exec (hc : Guarded c) {i : ℕ} (hok : FreshCycleSave i t c) :
    StatusSteps t (exec env keccak t xs c).2 := by
  cases c with
  | reserveCycleForDeposit params =>
    unfold exec
    dsimp only
    split
    · next r hr =>
      obtain ⟨cycle, hsaved, hfree, -⟩ := cycles_reserveCycleForDeposit hr
      rw [StatusSteps, hsaved]
      refine Table.keeps_save (fun _ => .inl rfl) fun d hd => ?_
      cases hfree.symm.trans hd
    · exact .of_eq rfl
  | createPaidRedemptionBatch params =>
    intro id d hd
    have hrequest : KeepsRequest env (createPaidRedemptionBatch params) :=
      keepsRequest_createPaidRedemptionBatch params
    obtain ⟨d', hd', hstep⟩ := (requestSteps_runTransaction hrequest xs t).statuses id d hd
    refine ⟨d', hd', ?_⟩
    rcases hstep with hsame | ⟨hminted, hrequested⟩
    · exact .inl hsame
    · rw [hminted, hrequested]
      exact .inr (by decide)
  | saveCycle loaded cycle =>
    obtain ⟨hid, hmoves⟩ := hc
    obtain ⟨hfresh, hburn⟩ := hok
    unfold exec
    dsimp only
    split_ifs
    · exact .of_eq rfl
    · refine Table.keeps_save (fun _ => .inl rfl) fun stored hstored => ?_
      rw [hid] at hstored
      rw [hfresh stored hstored]
      rcases hmoves with hmoves | hredeemed
      · exact hmoves
      · have hloaded := hburn hredeemed
        rw [hredeemed]
        revert hloaded
        cases loaded.status <;> decide
  | insertRedemption row =>
    unfold exec
    dsimp only
    split_ifs <;> exact .of_eq rfl
  | _ => exact .of_eq rfl

end Commands

inductive CycleCall where
  | reserveCycleForDeposit (params : DepositParams)
  | beginMintAttempt (cycleId : JsStr) (attempt : MintAttempt)
  | noteMintAttemptTx (cycleId : JsStr) (tokenId : Option JsStr) (txHash : JsStr)
  | recordMintResult (r : MintResult)
  | cancelCycle (cycleId : JsStr)
  | createPaidRedemptionBatch (params : PaidBatch)
  | resetCyclesIfRefunded (rows : List VaultRedemption)
  | completeRedemptionBurn (p : BurnRecord)

def CycleCall.task (keccak : JsStr → JsStr) : CycleCall → M Unit
  | .reserveCycleForDeposit params => (perform (.reserveCycleForDeposit params)).discard
  | .beginMintAttempt cycleId attempt => Cycles.beginMintAttempt cycleId attempt
  | .noteMintAttemptTx cycleId tokenId txHash => Cycles.noteMintAttemptTx cycleId tokenId txHash
  | .recordMintResult r => Cycles.recordMintResult keccak r
  | .cancelCycle cycleId => Cycles.cancelCycle cycleId
  | .createPaidRedemptionBatch params => (perform (.createPaidRedemptionBatch params)).discard
  | .resetCyclesIfRefunded rows => Cycles.resetCyclesIfRefunded rows
  | .completeRedemptionBurn p => Cycles.completeRedemptionBurn p

section Calls

theorem guarded_saveCycle {loaded cycle : VaultCycle} (h : Guarded (.saveCycle loaded cycle)) :
    (saveCycle loaded cycle).Issues Guarded :=
  Prog.issues_bind (Prog.issues_call h) fun _ => Prog.issues_ret _

theorem guarded_findCycleOrFail (cycleId : JsStr) : (findCycleOrFail cycleId).Issues Guarded :=
  Prog.issues_bind (Prog.issues_call trivial) fun _ => Prog.issues_orThrow _ _

theorem guarded_beginMintAttempt (cycleId : JsStr) (attempt : MintAttempt) :
    (beginMintAttempt cycleId attempt).Issues Guarded := by
  refine Prog.issues_bind (guarded_findCycleOrFail cycleId) fun cycle => ?_
  refine Prog.issues_guard fun hstatus => Prog.issues_guard fun _ => ?_
  have hmoves : Moves cycle.status .minting := by
    revert hstatus
    cases cycle.status <;> decide
  exact guarded_saveCycle ⟨rfl, .inl hmoves⟩

theorem guarded_noteMintAttemptTx (cycleId : JsStr) (tokenId : Option JsStr) (txHash : JsStr) :
    (noteMintAttemptTx cycleId tokenId txHash).Issues Guarded := by
  refine Prog.issues_bind (Prog.issues_call trivial) fun found => ?_
  cases found with
  | none => exact Prog.issues_ret _
  | some cycle =>
    dsimp only
    cases cycle.mintAttempt with
    | none => exact Prog.issues_ret _
    | some attempt =>
      dsimp only
      by_cases hminting : cycle.status ≠ .minting
      · rw [if_pos hminting]
        exact Prog.issues_ret _
      · rw [if_neg hminting]
        exact guarded_saveCycle ⟨rfl, .inl (.inl rfl)⟩

theorem guarded_cancelCycle (cycleId : JsStr) : (cancelCycle cycleId).Issues Guarded := by
  refine Prog.issues_bind (Prog.issues_call trivial) fun found => ?_
  cases found with
  | none => exact Prog.issues_ret _
  | some cycle =>
    dsimp only
    split_ifs with hstatus
    · exact Prog.issues_ret _
    · have hmoves : Moves cycle.status .cancelled := by
        revert hstatus
        cases cycle.status <;> decide
      exact guarded_saveCycle ⟨rfl, .inl hmoves⟩

theorem guarded_recordMintResult (keccak : JsStr → JsStr) (r : MintResult) :
    (recordMintResult keccak r).Issues Guarded := by
  refine Prog.issues_bind (guarded_findCycleOrFail _) fun cycle => ?_
  refine Prog.issues_guard fun hstatus => ?_
  have hmoves : Moves cycle.status .minted := by
    revert hstatus
    cases cycle.status <;> decide
  refine Prog.issues_bind (guarded_saveCycle ⟨rfl, .inl hmoves⟩) fun _ => ?_
  refine Prog.issues_bind (Prog.issues_ret _) fun vaultRef => ?_
  refine Prog.issues_bind ?_ fun _ => Prog.issues_call trivial
  unfold nameAsset
  split
  · exact Prog.issues_ret _
  · refine Prog.issues_bind (Prog.issues_call trivial) fun found => ?_
    split
    · exact Prog.issues_ret _
    · split_ifs
      · exact Prog.issues_ret _
      · exact Prog.issues_call trivial

theorem guarded_resetCycles (cycles : List VaultCycle) : (resetCycles cycles).Issues Guarded := by
  induction cycles with
  | nil => exact Prog.issues_ret _
  | cons cycle cycles ih =>
    refine Prog.issues_bind ?_ fun _ => ih
    unfold resetCycle
    split_ifs with hrequested
    · have hmoves : Moves cycle.status .minted := by
        rw [hrequested]
        decide
      exact guarded_saveCycle ⟨rfl, .inl hmoves⟩
    · exact Prog.issues_ret _

theorem guarded_resetCyclesIfRefunded (rows : List VaultRedemption) :
    (resetCyclesIfRefunded rows).Issues Guarded := by
  unfold resetCyclesIfRefunded
  dsimp only
  split_ifs
  · exact Prog.issues_ret _
  · exact Prog.issues_bind (Prog.issues_call trivial) fun cycles => guarded_resetCycles cycles

theorem guarded_recordRedemptionBurn (p : BurnRecord) (cycleId : JsStr) :
    (recordRedemptionBurn p cycleId).Issues Guarded := by
  refine Prog.issues_bind (Prog.issues_call trivial) fun open_ => ?_
  cases open_ with
  | some row => exact Prog.issues_call trivial
  | none =>
    refine Prog.issues_bind (Prog.issues_call trivial) fun completed => ?_
    cases completed with
    | some row => exact Prog.issues_call trivial
    | none => exact Prog.issues_bind (Prog.issues_call trivial) fun _ => Prog.issues_ret _

theorem guarded_completeRedemptionBurn (p : BurnRecord) :
    (completeRedemptionBurn p).Issues Guarded := by
  refine Prog.issues_bind (Prog.issues_call trivial) fun found => ?_
  cases found with
  | none => exact Prog.issues_ret _
  | some token =>
    refine Prog.issues_bind (Prog.issues_call trivial) fun at_ => ?_
    refine Prog.issues_bind (Prog.issues_call trivial) fun _ => ?_
    split
    · exact Prog.issues_ret _
    · refine Prog.issues_bind (Prog.issues_call trivial) fun found => ?_
      split
      · exact Prog.issues_ret _
      · exact Prog.issues_bind (guarded_saveCycle ⟨rfl, .inr rfl⟩) fun _ =>
          guarded_recordRedemptionBurn p _

theorem guarded_discard {α : Type} {p : M α} (hp : p.Issues Guarded) : p.discard.Issues Guarded :=
  Prog.issues_settle hp fun r => by cases r <;> exact Prog.issues_ret _

theorem guarded_task (keccak : JsStr → JsStr) (call : CycleCall) :
    (call.task keccak).Issues Guarded := by
  cases call with
  | reserveCycleForDeposit params =>
    exact guarded_discard (Prog.issues_call trivial)
  | beginMintAttempt cycleId attempt => exact guarded_beginMintAttempt cycleId attempt
  | noteMintAttemptTx cycleId tokenId txHash =>
    exact guarded_noteMintAttemptTx cycleId tokenId txHash
  | recordMintResult r => exact guarded_recordMintResult keccak r
  | cancelCycle cycleId => exact guarded_cancelCycle cycleId
  | createPaidRedemptionBatch params =>
    exact guarded_discard (Prog.issues_call trivial)
  | resetCyclesIfRefunded rows => exact guarded_resetCyclesIfRefunded rows
  | completeRedemptionBurn p => exact guarded_completeRedemptionBurn p

end Calls

def cycleHandler (env : Env) (keccak : JsStr → JsStr) : Handler Tables Draws Cmd Res :=
  fun _ t xs c => some (exec env keccak t xs c)

section Runs

/-- From any tables with at most one open cycle of each asset and chain, in every interleaving of
the writers: there never is a second one, and every step changes statuses along `next`. -/
theorem cycle_statuses_follow (env : Env) (keccak : JsStr → JsStr) {t₀ : Tables} (ht₀ : OneOpen t₀.cycles)
    {p q : Pool Tables Cmd Res HttpError Unit}
    (hp : Pool.Reach (cycleHandler env keccak) (CycleCall.task keccak) FreshCycleSave ⟨t₀, []⟩ p)
    (hq : Pool.Step (cycleHandler env keccak) (CycleCall.task keccak) FreshCycleSave p q) :
    OneOpen p.shared.cycles ∧ StatusSteps p.shared q.shared := by
  constructor
  · have hgiven : ∀ call : CycleCall,
        (call.task keccak).IssuesGiven (fun _ _ => True) Guarded :=
      fun call => (guarded_task keccak call).given
    refine Pool.keeps_of_issuesGiven (K := fun t => OneOpen t.cycles)
      (fun i s xs c r u hs hc hok hu => ⟨trivial, ?_⟩) hgiven ht₀ hp
    obtain ⟨-, rfl⟩ := Prod.mk.inj (Option.some.inj hu)
    exact oneOpen_exec hs
  · refine Pool.step_relates (fun t => StatusSteps.of_eq rfl)
      (fun i s xs c r u hc hok hu => ?_) (guarded_task keccak) hp hq
    obtain ⟨-, rfl⟩ := Prod.mk.inj (Option.some.inj hu)
    exact statusSteps_exec hc hok

def mintingCycle : VaultCycle where
  id := js "c"
  vaultAssetId := js "a"
  chainId := 1
  cycleNumber := 1
  status := .minting

def mintingTables : Tables where
  orders := Table.empty
  tokens := []
  holdings := []
  settlements := []
  assets := [{ id := js "a", externalCertNumber := js "123" }]
  cycles := ⟨[mintingCycle], List.nodup_singleton _⟩
  claims := Table.empty
  redemptions := Table.empty

def mintOfSeven : MintResult where
  cycleId := js "c"
  tokenContract := js "0xcc"
  tokenId := js "7"
  tokenURI := js "ipfs://7"
  txHash := js "0x01"
  certNumber := js "123"

def idleDraws : Draws := fun _ => idleWorld

def shownCycle (q : Pool Tables Cmd Res HttpError Unit) : Option CycleStatus :=
  (q.shared.cycles.get (js "c")).map VaultCycle.status

theorem oneOpen_mintingTables : OneOpen mintingTables.cycles := by
  intro c hc d hd _ _ _ _
  have hc' : c = mintingCycle := List.mem_singleton.mp hc
  have hd' : d = mintingCycle := List.mem_singleton.mp hd
  exact hc'.trans hd'.symm

theorem cycle_statuses_follow_cancel : ∃ p q,
    Pool.Reach (cycleHandler {} id) (CycleCall.task id) FreshCycleSave ⟨mintingTables, []⟩ p ∧
      shownCycle p = some .minting ∧ shownCycle q = some .cancelled ∧
      OneOpen p.shared.cycles ∧ StatusSteps p.shared q.shared := by
  obtain ⟨p, q, hp, hq, hbefore, hafter⟩ : ∃ p q,
      Pool.Reach (cycleHandler {} id) (CycleCall.task id) FreshCycleSave ⟨mintingTables, []⟩ p ∧
        Pool.Step (cycleHandler {} id) (CycleCall.task id) FreshCycleSave p q ∧
        shownCycle p = some .minting ∧ shownCycle q = some .cancelled :=
    Pool.exists_step_of_runSchedule [.spawn (.cancelCycle (js "c")), .run 0 idleDraws]
      (.run 0 idleDraws) shownCycle (by decide)
  exact ⟨p, q, hp, hbefore, hafter, cycle_statuses_follow {} id oneOpen_mintingTables hp hq⟩

/-- The cancellation has loaded the cycle when the mint is recorded. -/
def mintDuringCancel : List (Pool.Event CycleCall Draws) :=
  [.spawn (.cancelCycle (js "c")), .run 0 idleDraws, .spawn (.recordMintResult mintOfSeven),
    .run 1 idleDraws, .run 1 idleDraws]

theorem minted_cycle_cancelled : OneOpen mintingTables.cycles ∧ ∃ p q,
    Pool.Reach (cycleHandler {} id) (CycleCall.task id) anyStep ⟨mintingTables, []⟩ p ∧
      Pool.Step (cycleHandler {} id) (CycleCall.task id) anyStep p q ∧
      shownCycle p = some .minted ∧ shownCycle q = some .cancelled ∧
      ¬ StatusSteps p.shared q.shared := by
  obtain ⟨p, q, hp, hq, hbefore, hafter⟩ : ∃ p q,
      Pool.Reach (cycleHandler {} id) (CycleCall.task id) anyStep ⟨mintingTables, []⟩ p ∧
        Pool.Step (cycleHandler {} id) (CycleCall.task id) anyStep p q ∧
        shownCycle p = some .minted ∧ shownCycle q = some .cancelled :=
    Pool.exists_step_of_runSchedule mintDuringCancel (.run 0 idleDraws) shownCycle (by decide)
  refine ⟨oneOpen_mintingTables, p, q, hp, hq, hbefore, hafter, fun hsteps => ?_⟩
  obtain ⟨c, hc, hminted⟩ := Option.map_eq_some_iff.mp hbefore
  obtain ⟨d, hd, hmoves⟩ := hsteps _ c hc
  obtain ⟨d', hd', hcancelled⟩ := Option.map_eq_some_iff.mp hafter
  obtain rfl := Option.some.inj (hd.symm.trans hd')
  rw [hminted, hcancelled] at hmoves
  exact absurd hmoves (by decide)

end Runs

end Cycles
