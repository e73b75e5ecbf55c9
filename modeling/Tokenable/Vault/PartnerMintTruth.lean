import Tokenable.Chain.MintRules
import Tokenable.Vault.PartnerMintPool

/-!
# What a partner mint job reports

The job counts each item once it has ended. A failure after the mint is the only way to an item that is
marked failed although its NFT is minted.
-/

namespace PartnerMint
open Js Platform Async Chain

section Writes
variable {s t u : State} {x : Fate} {id j m : ℕ}

theorem noteLate_cases (s : State) (b : Bool) (id : ℕ) :
    s.noteLate b id = s ∨ s.noteLate b id = { s with late := id :: s.late } := by
  unfold State.noteLate
  split_ifs
  · exact .inr rfl
  · exact .inl rfl

/-- A step that throws after the mint is noted. -/
theorem late_of_thrown (hminted : s.minted id = true) : id ∈ (s.noteLate true id).late := by
  simp [State.noteLate, hminted]

theorem inv_noteLate (h : Inv s) (b : Bool) : Inv (s.noteLate b id) := by
  rcases noteLate_cases s b id with hsame | hnoted
  · rw [hsame]
    exact h
  · rw [hnoted]
    exact { h with
      mintedOnce := fun k hk => h.mintedOnce k fun hmem => hk (List.mem_cons_of_mem _ hmem)
      truth := fun k hk hminted => List.mem_cons_of_mem _ (h.truth k hk hminted) }

theorem itemCount_apply (p : JobPatch) (job : Job) : (p.apply job).itemCount = job.itemCount := by
  cases p <;> rfl

/-- The update of the job while it is not completed, and does not become so. -/
theorem inv_patch (h : Inv s) (p : JobPatch) (hcounts : (p.apply s.job).counts = s.job.counts)
    (hstatus : (p.apply s.job).status ≠ .completed) : Inv { s with job := p.apply s.job } := by
  have hsize := itemCount_apply p s.job
  refine { h with
    ids := ?_, idx_le := ?_, untouched := ?_, unjoined := ?_, joined := ?_, counted := ?_
    completed := fun hcompleted => absurd hcompleted hstatus }
  · rw [hsize]
    exact h.ids
  · rw [hsize]
    exact h.idx_le
  · rw [hsize]
    exact h.untouched
  · intro hjoined
    obtain ⟨hmints, hzero, -⟩ := h.unjoined hjoined
    exact ⟨hmints, hcounts.trans hzero, hstatus⟩
  · rw [hsize]
    exact h.joined
  · rw [hsize, hcounts]
    exact h.counted

/-- The write of the job on an item, after the pool has ended. -/
theorem inv_setItem (h : Inv s) (hjoined : s.joined = true) (hrunning : s.job.status ≠ .completed)
    (p : ItemPatch) (htruth : p.status = .failed → s.minted id = true → id ∈ s.late) :
    Inv (s.setItem id p) := by
  have hidx := (h.joined hjoined).2.1
  refine { h with
    untouched := ?_, handled := ?_, truth := ?_
    completed := fun hcompleted => absurd hcompleted hrunning }
  · intro k hk hlt
    change s.idx ≤ k at hk
    change k < s.job.itemCount at hlt
    omega
  · intro hunjoined
    change s.joined = false at hunjoined
    rw [hjoined] at hunjoined
    cases hunjoined
  · intro k hstatus hminted
    by_cases hk : k = id
    · subst hk
      apply htruth _ hminted
      change (Function.update s.items k (p.apply (s.items k)) k).status = .failed at hstatus
      rw [Function.update_self] at hstatus
      cases p <;> exact hstatus
    · change (Function.update s.items id (p.apply (s.items id)) k).status = .failed at hstatus
      rw [Function.update_of_ne hk] at hstatus
      exact h.truth k hstatus hminted

theorem minted_append {k : ℕ} (s : State) (txHash : JsStr) (hk : k ≠ id) :
    ({ s with mints := s.mints ++ [(id, txHash)] } : State).minted k = s.minted k := by
  rw [Bool.eq_iff_iff]
  simp [State.minted, hk]

/-- A submission for an item whose mint, if there was one, is noted as followed by a throw. -/
theorem inv_submit (h : Inv s) (hjoined : s.joined = true)
    (hlate : s.minted id = true → id ∈ s.late) (hstatus : (s.items id).status = .minting) :
    Inv (s.submit x id) := by
  unfold State.submit
  split_ifs
  · refine { h with unjoined := ?_, mintedOnce := ?_, truth := ?_ }
    · intro hunjoined
      change s.joined = false at hunjoined
      rw [hjoined] at hunjoined
      cases hunjoined
    · intro k hk
      change k ∉ s.late at hk
      change ((s.mints ++ [(id, x.txHash)]).map Prod.fst).count k ≤ 1
      rw [List.map_append, List.map_singleton, List.count_append]
      by_cases hkid : k = id
      · subst hkid
        have hnew : k ∉ s.mints.map Prod.fst := by
          intro hmem
          exact hk (hlate (decide_eq_true hmem))
        rw [List.count_eq_zero_of_not_mem hnew, List.count_singleton_self]
      · have hother : List.count k [id] = 0 := List.count_eq_zero_of_not_mem (by simpa using hkid)
        rw [hother]
        exact h.mintedOnce k hk
    · intro k hfailed hminted
      change (s.items k).status = .failed at hfailed
      have hne : k ≠ id := by
        rintro rfl
        rw [hstatus] at hfailed
        cases hfailed
      rw [minted_append s x.txHash hne] at hminted
      exact h.truth k hfailed hminted
  · exact h

/-- After the pool has ended no worker is at an item. -/
theorem kept_of_joined (h : Inv s) (hjoined : s.joined = true) (hj : j ≠ 0) : Kept j s u := by
  rw [kept_worker hj]
  intro k hk
  rw [(h.joined hjoined).1] at hk
  exact absurd hk List.not_mem_nil

end Writes

section Loop

/-- The pool has ended, and the first `m` items are counted. -/
structure LoopAt (n m : ℕ) (c : Counts) (s : State) : Prop where
  joined : s.joined = true
  running : s.job.status ≠ .completed
  size : s.job.itemCount = n
  le : m ≤ n
  before : ∀ id < m, Final s id
  after : ∀ id, m ≤ id → id < n → Handled s id ∧ s.minted id = false
  processed : c.processedCount = m
  succeeded : c.succeededCount = s.count .succeeded m
  failed : c.failedCount = s.count .failed m

/-- The job is at item `m`. -/
structure Around (n m : ℕ) (c : Counts) (s : State) : Prop where
  joined : s.joined = true
  running : s.job.status ≠ .completed
  size : s.job.itemCount = n
  lt : m < n
  before : ∀ id < m, Final s id
  after : ∀ id, m < id → id < n → Handled s id ∧ s.minted id = false
  processed : c.processedCount = m
  succeeded : c.succeededCount = s.count .succeeded m
  failed : c.failedCount = s.count .failed m

/-- How item `m` has ended, and how it is counted. -/
def Ended (m : ℕ) (c c' : Counts) (s : State) : Prop :=
  ((s.items m).status = .succeeded ∧ c' = c.succeed) ∨ ((s.items m).status = .failed ∧ c' = c.fail)

variable {n m : ℕ} {c c' : Counts} {s t u : State}

theorem count_succ (s : State) (status : ItemStatus) (m : ℕ) :
    s.count status (m + 1) = s.count status m + if (s.items m).status = status then 1 else 0 := by
  simp [State.count, List.range_succ, List.countP_append, List.countP_cons]

theorem count_congr {status : ItemStatus} (h : ∀ id < m, (u.items id).status = (s.items id).status) :
    u.count status m = s.count status m := by
  apply List.countP_congr
  intro id hid
  rw [h id (List.mem_range.mp hid)]

/-- Every item that has ended is counted once. -/
theorem count_add (h : ∀ id < m, Final s id) : s.count .succeeded m + s.count .failed m = m := by
  induction m with
  | zero => rfl
  | succ m ih =>
    have hm := ih fun id hid => h id (Nat.lt_succ_of_lt hid)
    rw [count_succ, count_succ]
    rcases h m (Nat.lt_succ_self m) with hstatus | hstatus
    · simp [hstatus]
      omega
    · simp [hstatus]
      omega

theorem LoopAt.around (h : LoopAt n m c s) (hm : m < n) :
    Around n m c s ∧ Handled s m ∧ s.minted m = false :=
  ⟨⟨h.joined, h.running, h.size, hm, h.before, fun id hid => h.after id (Nat.le_of_lt hid),
    h.processed, h.succeeded, h.failed⟩, h.after m le_rfl hm⟩

theorem Around.next (h : Around n m c s) (hended : Ended m c c' s) : LoopAt n (m + 1) c'.process s := by
  have hbefore : ∀ id < m + 1, Final s id := by
    intro id hid
    rcases Nat.lt_succ_iff_lt_or_eq.mp hid with hlt | rfl
    · exact h.before id hlt
    · rcases hended with ⟨hstatus, -⟩ | ⟨hstatus, -⟩
      · exact .inl hstatus
      · exact .inr hstatus
  have hprocessed := h.processed
  have hsucceeded := h.succeeded
  have hfailed := h.failed
  refine ⟨h.joined, h.running, h.size, h.lt, hbefore, fun id hid => h.after id hid, ?_, ?_, ?_⟩
  · rcases hended with ⟨-, rfl⟩ | ⟨-, rfl⟩
    · exact congrArg (· + 1) hprocessed
    · exact congrArg (· + 1) hprocessed
  · rw [count_succ]
    rcases hended with ⟨hstatus, rfl⟩ | ⟨hstatus, rfl⟩
    · rw [hstatus, if_pos rfl, ← hsucceeded]
      rfl
    · rw [hstatus, if_neg (by decide), ← hsucceeded]
      rfl
  · rw [count_succ]
    rcases hended with ⟨hstatus, rfl⟩ | ⟨hstatus, rfl⟩
    · rw [hstatus, if_neg (by decide), ← hfailed]
      rfl
    · rw [hstatus, if_pos rfl, ← hfailed]
      rfl

/-- What happens at item `m` leaves the others as they are. -/
theorem Around.step (h : Around n m c s) (hjob : u.job = s.job) (hjoined : u.joined = s.joined)
    (hprepared : u.prepared = s.prepared)
    (hitems : ∀ id, id ≠ m → (u.items id).status = (s.items id).status)
    (hminted : ∀ id, id ≠ m → u.minted id = s.minted id) : Around n m c u := by
  have hlow : ∀ id < m, (u.items id).status = (s.items id).status :=
    fun id hid => hitems id (Nat.ne_of_lt hid)
  refine ⟨hjoined.trans h.joined, by rw [hjob]; exact h.running, by rw [hjob]; exact h.size, h.lt, ?_, ?_,
    h.processed, ?_, ?_⟩
  · intro id hid
    unfold Final
    rw [hlow id hid]
    exact h.before id hid
  · intro id hid hlt
    have hne : id ≠ m := Nat.ne_of_gt hid
    unfold Handled
    rw [hprepared, hitems id hne, hminted id hne]
    exact h.after id hid hlt
  · rw [count_congr hlow]
    exact h.succeeded
  · rw [count_congr hlow]
    exact h.failed

theorem Around.noteLate (h : Around n m c s) (b : Bool) : Around n m c (s.noteLate b m) := by
  rcases noteLate_cases s b m with hsame | hnoted
  · rw [hsame]
    exact h
  · rw [hnoted]
    exact h.step rfl rfl rfl (fun _ _ => rfl) fun _ _ => rfl

theorem Around.setItem (h : Around n m c s) (p : ItemPatch) : Around n m c (s.setItem m p) := by
  refine h.step rfl rfl rfl (fun id hid => ?_) fun _ _ => rfl
  change (Function.update s.items m (p.apply (s.items m)) id).status = _
  rw [Function.update_of_ne hid]

theorem Around.submit (h : Around n m c s) (x : Fate) : Around n m c (s.submit x m) := by
  unfold State.submit
  split_ifs
  · exact h.step rfl rfl rfl (fun _ _ => rfl) fun id hid => minted_append s x.txHash hid
  · exact h

/-- Once the pool has ended, what the job knows stays true. -/
theorem stable_joined {P : State → Prop} (hP : ∀ s, P s → s.joined = true) : contract.Stable 0 P := by
  intro s t hst _ hs
  rw [(kept_zero.mp hst).alone (.inr (hP s hs))]
  exact hs

end Loop

section Minting
variable {keccak : JsStr → JsStr} {n m : ℕ} {c c' : Counts} {s t u : State}

/-- If the NFT is minted, it is noted that something has thrown since. -/
structure Failing (n m : ℕ) (c : Counts) (s : State) : Prop where
  around : Around n m c s
  late : s.minted m = true → m ∈ s.late

/-- The NFT may be submitted, again if it has been before. -/
structure Ready (n m : ℕ) (c : Counts) (s : State) : Prop where
  failing : Failing n m c s
  status : (s.items m).status = .minting

/-- A transaction is submitted, and nothing has thrown since. -/
structure Sent (n m : ℕ) (c : Counts) (s : State) : Prop where
  around : Around n m c s
  status : (s.items m).status = .minting

theorem stable_ready : contract.Stable 0 (Ready n m c) :=
  stable_joined fun _ h => h.failing.around.joined

theorem stable_sent : contract.Stable 0 (Sent n m c) := stable_joined fun _ h => h.around.joined

theorem Around.ready (h : Around n m c s) (hstatus : (s.items m).status = .minting)
    (hnot : s.minted m = false) : Ready n m c s := by
  refine ⟨⟨h, fun hminted => ?_⟩, hstatus⟩
  rw [hnot] at hminted
  cases hminted

theorem items_noteLate (s : State) (b : Bool) (id : ℕ) : (s.noteLate b id).items = s.items := by
  rcases noteLate_cases s b id with hsame | hnoted
  · rw [hsame]
  · rw [hnoted]

theorem minted_noteLate (s : State) (b : Bool) (id k : ℕ) :
    (s.noteLate b id).minted k = s.minted k := by
  rcases noteLate_cases s b id with hsame | hnoted
  · rw [hsame]
  · rw [hnoted]
    rfl

theorem Failing.noteLate (h : Failing n m c s) (b : Bool) : Failing n m c (s.noteLate b m) := by
  refine ⟨h.around.noteLate b, ?_⟩
  rcases noteLate_cases s b m with hsame | hnoted
  · rw [hsame]
    exact h.late
  · rw [hnoted]
    exact fun _ => List.mem_cons_self

theorem Ready.noteLate (h : Ready n m c s) (b : Bool) : Ready n m c (s.noteLate b m) := by
  refine ⟨h.failing.noteLate b, ?_⟩
  rw [items_noteLate]
  exact h.status

/-- A throw that is noted leads back to where the NFT may be submitted. -/
theorem Sent.thrown (h : Sent n m c s) : Ready n m c (s.noteLate true m) := by
  refine ⟨⟨h.around.noteLate true, fun hminted => ?_⟩, ?_⟩
  · rw [minted_noteLate] at hminted
    exact late_of_thrown hminted
  · rw [items_noteLate]
    exact h.status

def CallsFor (m : ℕ) : Cmd → Prop
  | .service id _ => id = m
  | _ => False

theorem callsFor_ask {item : PendingItem} (hm : item.id = m) (sv : Service) :
    (ask item sv).Issues (CallsFor m) :=
  Prog.issues_bind ⟨hm, fun _ => trivial⟩ fun _ => Prog.issues_ret _

theorem callsFor_callService {item : PendingItem} (hm : item.id = m) (sv : Service) :
    (callService item sv).Issues (CallsFor m) := by
  apply Prog.issues_settle (callsFor_ask hm sv)
  intro r
  cases r with
  | ok a => exact Prog.issues_ret _
  | error e => exact Prog.issues_ret _

theorem callsFor_beforeMint {item : PendingItem} (hm : item.id = m) (partnerId : Option JsStr)
    (row : PreparedPartnerMint) : (beforeMint keccak item partnerId row).Issues (CallsFor m) := by
  apply Prog.issues_bind (Prog.issues_throwIf _ _)
  intro _
  apply Prog.issues_bind (Prog.issues_throwIf _ _)
  intro _
  apply Prog.issues_bind
  · unfold onlyIf
    split_ifs
    · exact callsFor_callService hm _
    · exact Prog.issues_ret _
  intro _
  apply Prog.issues_bind (callsFor_callService hm _)
  intro _
  apply Prog.issues_bind (Prog.issues_ret _)
  intro vaultRef
  apply Prog.issues_bind (callsFor_callService hm _)
  intro _
  apply Prog.issues_bind (callsFor_callService hm _)
  intro _
  apply Prog.issues_bind (callsFor_ask hm _)
  intro linked
  apply Prog.issues_bind (callsFor_callService hm _)
  intro _
  apply Prog.issues_bind (callsFor_callService hm _)
  intro _
  apply Prog.issues_bind (callsFor_callService hm _)
  intro _
  apply Prog.issues_bind (callsFor_callService hm _)
  intro _
  exact Prog.issues_ret _

/-- Where every throw is noted, the calls on the item change nothing. -/
theorem wp_callsFor {α : Type} {K : State → Prop} (hK : ∀ s, K s → Failing n m c s)
    (hnote : ∀ s b, K s → K (s.noteLate b m)) {p : M α} (hp : p.Issues (CallsFor m)) (hs : K s) :
    jobWp 0 p (fun _ u => K u) s := by
  refine wp_of_issues (stable_joined fun s h => (hK s h).around.joined) ?_ hp hs
  intro cmd hcmd t x r u hinv ht _ hu
  cases cmd with
  | service id sv =>
    obtain rfl : id = m := hcmd
    obtain ⟨rfl, rfl⟩ := Prod.mk.inj (Option.some.inj hu)
    exact ⟨inv_noteLate hinv _, fun j hj => kept_of_joined hinv (hK t ht).around.joined hj,
      hnote t _ ht⟩
  | _ => exact hcmd.elim

/-- A step after the submission: when it throws, that is noted. -/
theorem wp_sent_step {ε α : Type} {cmd : Cmd} {f : Res cmd → Except ε α} (hs : Sent n m c s)
    (hcmd : ∀ t x r u, exec 0 t x cmd = some (r, u) →
      (∃ b, u = t.noteLate b m) ∧ ((∃ e, f r = .error e) → u = t.noteLate true m)) :
    jobWp 0 (.call cmd fun r => .ret (f r)) (okOr (Ready n m c) fun _ => Sent n m c) s := by
  apply wp_call (Sent n m c) stable_sent hs
  intro t ht hinv _ x r u hu
  obtain ⟨⟨b, hnoted⟩, hthrown⟩ := hcmd t x r u hu
  have hinv' : Inv u := by
    rw [hnoted]
    exact inv_noteLate hinv b
  refine ⟨hinv', fun j hj => kept_of_joined hinv ht.around.joined hj, ?_⟩
  cases hr : f r with
  | error e =>
    rw [hthrown ⟨e, hr⟩]
    exact ht.thrown
  | ok a =>
    have hsent : Sent n m c (t.noteLate b m) := by
      refine ⟨ht.around.noteLate b, ?_⟩
      rw [items_noteLate]
      exact ht.status
    rw [hnoted]
    exact hsent

theorem callService_eq (item : PendingItem) (sv : Service) :
    callService item sv =
      .call (.service item.id sv) fun r => .ret (r.map fun _ => ()) := by
  change Prog.call (Cmd.service item.id sv) _ = _
  congr 1
  funext r
  cases r <;> rfl

theorem wp_callService_sent {item : PendingItem} (hm : item.id = m) (sv : Service)
    (hs : Sent n m c s) :
    jobWp 0 (callService item sv) (okOr (Failing n m c) fun _ => Sent n m c) s := by
  rw [callService_eq, hm]
  refine wp_mono (fun r t ht => ?_) (wp_sent_step hs fun t x r u hu => ?_)
  · cases r with
    | ok a => exact ht
    | error e => exact ht.failing
  · obtain ⟨rfl, rfl⟩ := Prod.mk.inj (Option.some.inj hu)
    refine ⟨⟨_, rfl⟩, fun ⟨e, he⟩ => ?_⟩
    cases hanswer : x.answer x.flag with
    | ok a =>
      rw [hanswer] at he
      cases he
    | error e' => rw [isSome_of_answer hanswer]

theorem wp_afterMint {item : PendingItem} (hm : item.id = m) (linked : Bool) (hs : Sent n m c s) :
    jobWp 0 (afterMint item linked) (okOr (Failing n m c) fun _ => Sent n m c) s := by
  refine wp_bind_okOr (wp_callService_sent hm _ hs) fun _ t ht => ?_
  refine wp_bind_okOr (wp_callService_sent hm _ ht) fun _ u hu => ?_
  refine wp_bind_okOr (wp_callService_sent hm _ hu) fun _ v hv => ?_
  refine wp_bind_okOr ?_ fun _ w hw => wp_callService_sent hm _ hw
  unfold onlyIf
  split_ifs
  · exact wp_callService_sent hm _ hv
  · exact hv

/-- A submission, whether it is sent or not, and whether it throws or not. -/
theorem wp_mint (recipient : JsStr) (hs : Ready n m c s) :
    jobWp 0 ((mintOps m).mint recipient) (okOr (Ready n m c) fun _ => Sent n m c) s := by
  apply wp_call (Ready n m c) stable_ready hs
  intro t ht hinv _ x r u hu
  obtain ⟨rfl, rfl⟩ := Prod.mk.inj (Option.some.inj hu)
  have hjoined := ht.failing.around.joined
  have hitems : (t.submit x m).items = t.items := by
    unfold State.submit
    split_ifs <;> rfl
  have hafter : Inv (x.after t (t.submit x m)) ∧ Sent n m c (x.after t (t.submit x m)) := by
    rcases after_cases x t (t.submit x m) with hsame | hdone
    · rw [hsame]
      exact ⟨hinv, ht.failing.around, ht.status⟩
    · rw [hdone]
      refine ⟨inv_submit hinv hjoined ht.failing.late ht.status, ht.failing.around.submit x, ?_⟩
      rw [hitems]
      exact ht.status
  refine ⟨inv_noteLate hafter.1 _, fun j hj => kept_of_joined hinv hjoined hj, ?_⟩
  cases hreply : x.reply x.txHash with
  | ok txHash =>
    rw [noteLate_of_none (reply_eq_ok.mp hreply).1]
    exact hafter.2
  | error e =>
    rw [isSome_of_reply hreply]
    exact hafter.2.thrown

/-- The wait and the reading of the receipt are one step. -/
theorem awaitMint_mintOps (id : ℕ) (recipient txHash : JsStr) :
    awaitMint (mintOps id) recipient txHash =
      (.call (.wait id txHash) fun r => .ret (r.bind readReceipt)) >>= fun minted =>
        (mintOps id).recordOwner minted.tokenId recipient >>= fun _ => pure minted := by
  change Prog.call (Cmd.wait id txHash) _ = Prog.call (Cmd.wait id txHash) _
  congr 1
  funext r
  cases r <;> rfl

theorem wp_awaitMint (recipient txHash : JsStr) (hs : Sent n m c s) :
    jobWp 0 (awaitMint (mintOps m) recipient txHash)
      (okOr (Ready n m c) fun _ => Sent n m c) s := by
  rw [awaitMint_mintOps]
  refine wp_bind_okOr (wp_sent_step hs fun t x r u hu => ?_) fun minted t ht => ?_
  · obtain ⟨rfl, rfl⟩ := Prod.mk.inj (Option.some.inj hu)
    refine ⟨⟨_, rfl⟩, fun ⟨e, he⟩ => ?_⟩
    have hunread : x.unread = true := by
      unfold Fate.unread
      rw [he]
      rfl
    rw [hunread]
  · refine wp_bind_okOr (F := fun _ => Sent n m c) ?_ fun _ u hu => hu
    refine wp_sent_step ht fun t x r u hu => ?_
    obtain ⟨rfl, rfl⟩ := Prod.mk.inj (Option.some.inj hu)
    refine ⟨⟨_, rfl⟩, fun ⟨e, he⟩ => ?_⟩
    rw [isSome_of_reply he]

/-- An attempt of `mintTo`: when it throws, the NFT is not minted or that is noted. -/
theorem wp_mintAttempt (recipient : JsStr) (hs : Ready n m c s) :
    jobWp 0 (mintAttempt (mintOps m) recipient) (okOr (Ready n m c) fun _ => Sent n m c) s := by
  refine wp_bind_okOr (wp_mint recipient hs) fun txHash t ht => ?_
  refine wp_bind_okOr (F := fun _ => Sent n m c) ?_ fun _ u hu => wp_awaitMint recipient txHash hu
  refine wp_sent_step ht fun t x r u hu => ?_
  obtain ⟨rfl, rfl⟩ := Prod.mk.inj (Option.some.inj hu)
  refine ⟨⟨_, rfl⟩, fun ⟨e, he⟩ => ?_⟩
  rw [isSome_of_reply he]

theorem wp_sleep (ms : ℕ) (hs : Ready n m c s) :
    jobWp 0 ((mintOps m).sleep ms) (fun _ => Ready n m c) s := by
  apply wp_call (Ready n m c) stable_ready hs
  intro t ht hinv _ x r u hu
  obtain ⟨rfl, rfl⟩ := Prod.mk.inj (Option.some.inj hu)
  exact ⟨hinv, fun j _ => kept_refl j t, ht⟩

theorem wp_sendMint {item : PendingItem} (hm : item.id = m) (req : MintRequest)
    (hs : Ready n m c s) :
    jobWp 0 (sendMint item req) (okOr (Failing n m c) fun _ => Sent n m c) s := by
  have hmint : jobWp 0 (mintTo (mintOps item.id) req)
      (okOr (Ready n m c) fun _ => Sent n m c) s := by
    rw [hm]
    exact wp_mintTo (fun _ => wp_mintAttempt _) (fun ms _ => wp_sleep ms) hs
  apply wp_settle
  apply wp_settle
  refine wp_mono (fun r t ht => ?_) hmint
  cases r with
  | ok mint => exact ht
  | error e =>
    have hcancel := wp_callsFor (fun _ h => h) (fun _ b h => Failing.noteLate h b)
      (callsFor_callService hm .cancelCycle) ht.failing
    refine wp_bind (wp_mono (fun r u hu => ?_) hcancel)
    cases r with
    | ok a => exact hu
    | error e' => exact hu

theorem wp_mintForUser {item : PendingItem} (hm : item.id = m) (job : Job)
    (row : PreparedPartnerMint) (hs : Ready n m c s) :
    jobWp 0 (mintForUser keccak item job row) (okOr (Failing n m c) fun _ => Sent n m c) s := by
  have hcalls : (beforeMint keccak item job.partnerId row).Issues (CallsFor m) :=
    callsFor_beforeMint hm job.partnerId row
  have hbefore := wp_callsFor (fun _ h => Ready.failing h) (fun _ b h => Ready.noteLate h b) hcalls
    hs
  refine wp_bind (wp_mono (fun r t ht => ?_) hbefore)
  cases r with
  | error e => exact ht.failing
  | ok before =>
    refine wp_bind_okOr (wp_sendMint hm _ ht) fun mint u hu => ?_
    exact wp_bind_okOr (wp_afterMint hm before.2 hu) fun _ v hv => hv

end Minting

section Job
variable {keccak : JsStr → JsStr} {n m : ℕ} {c c' : Counts} {s t u : State}

def Counted (n m : ℕ) (c c' : Counts) (s : State) : Prop := Around n m c s ∧ Ended m c c' s

/-- The postcondition of a step whose errors end the job. -/
def WhenOk {α : Type} (Q : α → State → Prop) (r : Except JsStr α) (s : State) : Prop :=
  ∀ a, r = .ok a → Q a s

/-- The write of the item's outcome. A failure is only written when the NFT is not minted or a step
has thrown after that. -/
theorem wp_markItem {P : State → Prop} (p : ItemPatch) (hP : ∀ s, P s → Around n m c s)
    (htruth : ∀ s, P s → p.status = .failed → s.minted m = true → m ∈ s.late) (hs : P s) :
    jobWp 0 (attempt (perform (.updateItem m p))) (fun r u => Around n m c u ∧
      (r = .ok () → (u.items m).status = p.status) ∧
      (∀ e, r = .error e → u.minted m = true → m ∈ u.late)) s := by
  apply wp_attempt
  apply wp_perform (stable_joined fun s h => (hP s h).joined) hs
  intro t ht hinv x r u hu
  obtain ⟨rfl, rfl⟩ := Prod.mk.inj (Option.some.inj hu)
  have haround := hP t ht
  have hafter : Inv (x.after t (t.setItem m p)) ∧ Around n m c (x.after t (t.setItem m p)) := by
    rcases after_cases x t (t.setItem m p) with hsame | hdone
    · rw [hsame]
      exact ⟨hinv, haround⟩
    · rw [hdone]
      exact ⟨inv_setItem hinv haround.joined haround.running p (htruth t ht), haround.setItem p⟩
  refine ⟨inv_noteLate hafter.1 _, fun j hj => kept_of_joined hinv haround.joined hj,
    hafter.2.noteLate _, fun hok => ?_, fun e herror hminted => ?_⟩
  · have hnone := (answer_eq_ok.mp hok).1
    rw [noteLate_of_none hnone, after_of_none hnone]
    change (Function.update t.items m (p.apply (t.items m)) m).status = p.status
    rw [Function.update_self]
    cases p <;> rfl
  · rw [isSome_of_answer herror] at hminted ⊢
    rw [minted_noteLate] at hminted
    exact late_of_thrown hminted

theorem wp_mintPrepared (job : Job) {item : PendingItem} (hm : item.id = m)
    (row : PreparedPartnerMint) (hs : Ready n m c s) :
    jobWp 0 (mintPrepared keccak job item row c) (WhenOk (Counted n m c)) s := by
  have hbody : jobWp 0 (do
      let mint ← mintForUser keccak item job row
      attempt (perform (.updateItem item.id
        (.succeeded row.displayName (ofNat mint.tokenId) mint.txHash)))
      pure c.succeed : M Counts)
      (okOr (Failing n m c) (Counted n m c)) s := by
    refine wp_bind (wp_mono (fun r t ht => ?_) (wp_mintForUser hm job row hs))
    cases r with
    | error e => exact ht
    | ok mint =>
      rw [hm]
      have hwrite := wp_markItem (.succeeded row.displayName (ofNat mint.tokenId) mint.txHash)
        (fun s (h : Sent n m c s) => h.around) (fun _ _ h => by cases h) ht
      refine wp_bind (wp_mono (fun r u hu => ?_) hwrite)
      obtain ⟨haround, hstatus, hlate⟩ := hu
      cases r with
      | error e => exact ⟨haround, hlate e rfl⟩
      | ok a => exact ⟨haround, .inl ⟨hstatus rfl, rfl⟩⟩
  apply wp_settle
  refine wp_mono (fun r t ht => ?_) hbody
  cases r with
  | ok c' =>
    rintro _ ⟨⟩
    exact ht
  | error e =>
    rw [hm]
    have hwrite := wp_markItem (.failed (e.take maxMessage))
      (fun s (h : Failing n m c s) => h.around) (fun _ h _ => h.late) ht
    refine wp_bind (wp_mono (fun r u hu => ?_) hwrite)
    obtain ⟨haround, hstatus, -⟩ := hu
    cases r with
    | error e' =>
      rintro _ ⟨⟩
    | ok a =>
      rintro _ ⟨⟩
      exact ⟨haround, .inr ⟨hstatus rfl, rfl⟩⟩

theorem inv_counters (h : Inv s) (hloop : LoopAt n m c s) :
    Inv { s with job := (JobPatch.counters c).apply s.job } := by
  have hadd := count_add hloop.before
  rw [← hloop.succeeded, ← hloop.failed] at hadd
  refine { h with unjoined := ?_, counted := ?_, completed := ?_ }
  · intro hunjoined
    change s.joined = false at hunjoined
    rw [hloop.joined] at hunjoined
    cases hunjoined
  · constructor
    · change c.processedCount = c.succeededCount + c.failedCount
      rw [hloop.processed, hadd]
    · change c.processedCount ≤ s.job.itemCount
      rw [hloop.processed, hloop.size]
      exact hloop.le
  · exact fun hcompleted => absurd hcompleted hloop.running

theorem LoopAt.counters (h : LoopAt n m c s) :
    LoopAt n m c { s with job := (JobPatch.counters c).apply s.job } :=
  ⟨h.joined, h.running, h.size, h.le, h.before, h.after, h.processed, h.succeeded, h.failed⟩

theorem wp_mintItem (job : Job) {item : PendingItem} (hm : item.id = m) (hlt : m < n)
    (hs : LoopAt n m c s) :
    jobWp 0 (mintItem keccak job item c) (WhenOk (LoopAt n (m + 1))) s := by
  have hfind : jobWp 0 (perform (.getPrepared item.id)) (fun r u => ∃ found, r = .ok found ∧
      Around n m c u ∧ u.minted m = false ∧ ((found.isSome ∧ (u.items m).status = .minting) ∨
        (found = none ∧ (u.items m).status = .failed))) s := by
    apply wp_perform (stable_joined fun s (h : LoopAt n m c s) => h.joined) hs
    intro t ht hinv x r u hu
    obtain ⟨rfl, rfl⟩ := Prod.mk.inj (Option.some.inj hu)
    obtain ⟨haround, hhandled, hnot⟩ := ht.around hlt
    refine ⟨hinv, fun j _ => kept_refl j t, _, rfl, haround, hnot, ?_⟩
    rw [hm]
    exact hhandled
  have hcount : ∀ (found : Option PreparedPartnerMint) (t : State), Around n m c t →
      t.minted m = false → ((found.isSome ∧ (t.items m).status = .minting) ∨
        (found = none ∧ (t.items m).status = .failed)) →
      jobWp 0 (mintFound keccak job item c found) (WhenOk (Counted n m c)) t := by
    intro found t haround hnot hhandled
    cases found with
    | none =>
      rcases hhandled with ⟨hsome, -⟩ | ⟨-, hfailed⟩
      · cases hsome
      · rintro _ ⟨⟩
        exact ⟨haround, .inr ⟨hfailed, rfl⟩⟩
    | some row =>
      rcases hhandled with ⟨-, hminting⟩ | ⟨hnone, -⟩
      · exact wp_mintPrepared job hm row (haround.ready hminting hnot)
      · cases hnone
  refine wp_bind (wp_mono (fun r t ht => ?_) hfind)
  obtain ⟨found, rfl, haround, hnot, hhandled⟩ := ht
  refine wp_bind (wp_mono (fun r u hu => ?_) (hcount found t haround hnot hhandled))
  cases r with
  | error e =>
    rintro _ ⟨⟩
  | ok counted =>
    obtain ⟨haround, hended⟩ := hu counted rfl
    have hnext := haround.next hended
    have hwrite : jobWp 0 (attempt (perform (.updateJob (.counters counted.process))))
        (fun _ v => LoopAt n (m + 1) counted.process v) u := by
      apply wp_attempt
      apply wp_perform (stable_joined fun s (h : LoopAt n (m + 1) counted.process s) => h.joined) hnext
      intro v hv hinv x r w hw
      obtain ⟨rfl, rfl⟩ := Prod.mk.inj (Option.some.inj hw)
      have hafter : Inv (x.after v { v with job := (JobPatch.counters counted.process).apply v.job }) ∧
          LoopAt n (m + 1) counted.process
            (x.after v { v with job := (JobPatch.counters counted.process).apply v.job }) := by
        rcases after_cases x v { v with job := (JobPatch.counters counted.process).apply v.job } with
          hsame | hdone
        · rw [hsame]
          exact ⟨hinv, hv⟩
        · rw [hdone]
          exact ⟨inv_counters hinv hv, hv.counters⟩
      refine ⟨hafter.1, fun j hj => kept_of_joined hinv hv.joined hj, ?_⟩
      cases hanswer : x.answer () with
      | ok a => exact hafter.2
      | error e => exact hafter.2
    refine wp_bind (wp_mono (fun r v hv => ?_) hwrite)
    cases r with
    | error e =>
      rintro _ ⟨⟩
    | ok a =>
      rintro _ ⟨⟩
      exact hv

theorem wp_mintItems (job : Job) (items : List PendingItem) (k : ℕ)
    (hids : items.map PendingItem.id = List.range' m k) (hsize : m + k = n) (hs : LoopAt n m c s) :
    jobWp 0 (mintItems keccak job items c) (WhenOk (LoopAt n n)) s := by
  induction items generalizing m c k s with
  | nil =>
    cases k with
    | zero =>
      rintro _ ⟨⟩
      rw [Nat.add_zero] at hsize
      rw [hsize] at hs
      exact hs
    | succ k => cases hids
  | cons item items ih =>
    cases k with
    | zero => cases hids
    | succ k =>
      rw [List.map_cons, List.range'_succ, List.cons.injEq] at hids
      have hlt : m < n := by omega
      refine wp_bind (wp_mono (fun r t ht => ?_) (wp_mintItem job hids.1 hlt hs))
      cases r with
      | error e =>
        rintro _ ⟨⟩
      | ok counts => exact ih k hids.2 (by omega) (ht counts rfl)

end Job

section Run
variable {keccak : JsStr → JsStr} {n : ℕ} {c : Counts} {s t u : State} {P : State → Prop}

structure Idle (n : ℕ) (s : State) : Prop where
  queue : s.queue = none
  joined : s.joined = false
  size : s.job.itemCount = n

structure Pooled (n : ℕ) (items : List PendingItem) (s : State) : Prop where
  queue : s.queue = some items
  joined : s.joined = false
  size : s.job.itemCount = n

theorem stable_idle : contract.Stable 0 (Idle n) := by
  intro s t hst _ hs
  rw [(kept_zero.mp hst).alone (.inl hs.queue)]
  exact hs

theorem stable_pooled {items : List PendingItem} : contract.Stable 0 (Pooled n items) := by
  intro s t hst _ hs
  have hkept := kept_zero.mp hst
  exact ⟨hkept.queue.trans hs.queue, hkept.joined.trans hs.joined, by rw [hkept.job]; exact hs.size⟩

theorem stable_true : contract.Stable 0 fun _ => True := fun _ _ _ _ _ => trivial

/-- What the job does to its own row and variables is nothing to a worker. -/
theorem kept_rows {j : ℕ} (hj : j ≠ 0) (hitems : u.items = s.items) (hheld : u.held = s.held)
    (hprepared : u.prepared = s.prepared) (hprepares : u.prepares = s.prepares) : Kept j s u := by
  rw [kept_worker hj]
  intro id hid
  rw [hheld, hitems, hprepared, hprepares]
  exact ⟨hid, rfl, rfl, Iff.rfl⟩

def Reads (cmd : Cmd) : Prop := ∀ i t x r u, exec i t x cmd = some (r, u) → u = t

theorem reads_of_eq {cmd : Cmd} {answer : State → Fate → Res cmd}
    (h : ∀ i t x, exec i t x cmd = some (answer t x, t)) : Reads cmd := by
  intro i t x r u hu
  rw [h] at hu
  exact (congrArg Prod.snd (Option.some.inj hu)).symm

theorem reads_findJob : Reads .findJob := reads_of_eq fun _ _ _ => rfl

theorem reads_findUser : Reads .findUser := reads_of_eq fun _ _ _ => rfl

theorem reads_preflight : Reads .preflight := reads_of_eq fun _ _ _ => rfl

theorem reads_notify : Reads .notify := reads_of_eq fun _ _ _ => rfl

theorem wp_read {cmd : Cmd} (hread : Reads cmd) (hP : contract.Stable 0 P) (hs : P s) :
    jobWp 0 (perform cmd) (fun _ u => P u) s := by
  apply wp_perform hP hs
  intro t ht hinv x r u hu
  rw [hread 0 t x r u hu]
  exact ⟨hinv, fun j _ => kept_refl j t, ht⟩

theorem wp_attempt_read {α : Type} {p : M (Except JsStr α)} (h : jobWp 0 p (fun _ u => P u) s) :
    jobWp 0 (attempt p) (fun _ u => P u) s := by
  apply wp_attempt
  refine wp_mono (fun r t ht => ?_) h
  cases r with
  | ok r =>
    cases r with
    | ok a => exact ht
    | error e => exact ht
  | error e => exact ht

theorem wp_updateJob (p : JobPatch) (hP : contract.Stable 0 P) (hs : P s)
    (hinv : ∀ t, P t → Inv t → Inv { t with job := p.apply t.job })
    (hkeep : ∀ t, P t → P { t with job := p.apply t.job }) :
    jobWp 0 (attempt (perform (.updateJob p))) (fun _ u => P u) s := by
  apply wp_attempt_read
  apply wp_perform hP hs
  intro t ht ht' x r u hu
  obtain ⟨rfl, rfl⟩ := Prod.mk.inj (Option.some.inj hu)
  rcases after_cases x t { t with job := p.apply t.job } with hsame | hdone
  · rw [hsame]
    exact ⟨ht', fun j _ => kept_refl j t, ht⟩
  · rw [hdone]
    exact ⟨hinv t ht ht', fun j hj => kept_rows hj rfl rfl rfl rfl, hkeep t ht⟩

theorem Idle.patch (h : Idle n s) (p : JobPatch) : Idle n { s with job := p.apply s.job } :=
  ⟨h.queue, h.joined, (itemCount_apply p s.job).trans h.size⟩

/-- Before the pool every item is pending. -/
theorem pendingItems_ids (h : Inv s) (hidle : Idle n s) :
    s.pendingItems.map PendingItem.id = List.range n := by
  have hidx := h.idle hidle.queue
  have hall : ((List.range s.job.itemCount).filter fun id => (s.items id).status = .pending) =
      List.range s.job.itemCount := by
    apply List.filter_eq_self.mpr
    intro id hid
    rw [decide_eq_true_eq]
    exact (h.untouched id (by omega) (List.mem_range.mp hid)).1
  unfold State.pendingItems
  rw [hall, hidle.size, List.map_map]
  exact List.map_id _

theorem wp_findPending (hs : Idle n s) :
    jobWp 0 (attempt (perform .findPending)) (WhenOk fun items u =>
      Idle n u ∧ items.map PendingItem.id = List.range n) s := by
  apply wp_attempt
  apply wp_perform stable_idle hs
  intro t ht hinv x r u hu
  obtain ⟨rfl, rfl⟩ := Prod.mk.inj (Option.some.inj hu)
  refine ⟨hinv, fun j _ => kept_refl j t, ?_⟩
  cases hanswer : x.answer t.pendingItems with
  | error e =>
    rintro _ ⟨⟩
  | ok items =>
    rintro _ ⟨⟩
    rw [← (answer_eq_ok.mp hanswer).2]
    exact ⟨ht, pendingItems_ids hinv ht⟩

theorem inv_startPool (h : Inv s) (hidle : Idle n s) {items : List PendingItem}
    (hids : items.map PendingItem.id = List.range n) :
    Inv { s with queue := some items, idx := 0 } := by
  have hsame : ({ s with queue := some items, idx := 0 } : State) = { s with queue := some items } := by
    rw [← h.idle hidle.queue]
  rw [hsame]
  refine { h with ids := ?_, idle := ?_, joined := ?_ }
  · intro q hq
    obtain rfl := Option.some.inj hq
    rw [hids, hidle.size]
  · intro hnone
    cases hnone
  · intro hjoined
    change s.joined = true at hjoined
    rw [hidle.joined] at hjoined
    cases hjoined

/-- The pool ends with every item handled. -/
theorem loopAt_of_pooled (h : Inv s) {items : List PendingItem} (hpooled : Pooled n items s)
    (hdone : (s.queue.getD []).length ≤ s.idx) (hheld : s.held = []) :
    Inv { s with joined := true } ∧ LoopAt n 0 {} { s with joined := true } := by
  obtain ⟨hmints, -, hrunning⟩ := h.unjoined hpooled.joined
  have hlength : (s.queue.getD []).length = s.job.itemCount := by
    rw [hpooled.queue, Option.getD_some, ← List.length_map PendingItem.id, h.ids items hpooled.queue,
      List.length_range]
  have hidx : s.idx = s.job.itemCount := by
    have hle := h.idx_le
    omega
  constructor
  · refine { h with handled := ?_, unjoined := ?_, joined := ?_ }
    · intro hjoined
      cases hjoined
    · intro hjoined
      cases hjoined
    · refine fun _ => ⟨hheld, hidx, ?_⟩
      rw [hpooled.queue]
      exact Option.some_ne_none items
  · refine ⟨rfl, hrunning, hpooled.size, Nat.zero_le n, fun id hid => absurd hid (Nat.not_lt_zero id),
      fun id _ hlt => ⟨?_, ?_⟩, rfl, rfl, rfl⟩
    · apply h.handled hpooled.joined id
      · rw [hidx, hpooled.size]
        exact hlt
      · rw [hheld]
        exact List.not_mem_nil
    · change s.minted id = false
      simp [State.minted, hmints]

theorem wp_mapPool {items : List PendingItem} (hids : items.map PendingItem.id = List.range n)
    (hne : items ≠ []) (hs : Idle n s) :
    jobWp 0 (mapPool items) (WhenOk fun _ u => LoopAt n 0 {} u) s := by
  have hstart : jobWp 0 (perform (.startPool items)) (fun r u => r = .ok () ∧ Pooled n items u) s := by
    apply wp_perform stable_idle hs
    intro t ht hinv x r u hu
    obtain ⟨rfl, rfl⟩ := Prod.mk.inj (Option.some.inj hu)
    exact ⟨inv_startPool hinv ht hids, fun j hj => kept_rows hj rfl rfl rfl rfl, rfl, rfl, ht.joined,
      ht.size⟩
  have hawait : ∀ t, Pooled n items t →
      jobWp 0 (attempt (perform .awaitPool)) (WhenOk fun _ u => LoopAt n 0 {} u) t := by
    intro t ht
    apply wp_attempt
    apply wp_perform stable_pooled ht
    intro u hu hinv x r v hv
    simp only [exec] at hv
    split at hv
    · obtain ⟨rfl, rfl⟩ := Prod.mk.inj (Option.some.inj hv)
      refine ⟨hinv, fun j _ => kept_refl j u, ?_⟩
      rintro _ ⟨⟩
    · split_ifs at hv with hend
      obtain ⟨rfl, rfl⟩ := Prod.mk.inj (Option.some.inj hv)
      obtain ⟨hinv', hloop⟩ := loopAt_of_pooled hinv hu hend.1 hend.2
      refine ⟨hinv', fun j hj => kept_rows hj rfl rfl rfl rfl, ?_⟩
      rintro _ ⟨⟩
      exact hloop
  unfold mapPool
  rw [List.isEmpty_eq_false_iff.mpr hne, if_neg Bool.false_ne_true]
  refine wp_bind (wp_mono (fun r t ht => ?_) hstart)
  obtain ⟨rfl, hpooled⟩ := ht
  exact hawait t hpooled

/-- The last update of the job: it is completed when every item is counted. -/
theorem inv_finished (h : Inv s) (hloop : LoopAt n n c s) :
    Inv { s with job := (finished c).apply s.job } := by
  have hadd := count_add hloop.before
  rw [← hloop.succeeded, ← hloop.failed] at hadd
  refine { h with unjoined := ?_, counted := ?_, completed := ?_ }
  · intro hunjoined
    change s.joined = false at hunjoined
    rw [hloop.joined] at hunjoined
    cases hunjoined
  · constructor
    · change c.processedCount = c.succeededCount + c.failedCount
      rw [hloop.processed, hadd]
    · change c.processedCount ≤ s.job.itemCount
      rw [hloop.processed, hloop.size]
  · intro _
    change (∀ id < s.job.itemCount, Final s id) ∧ c.succeededCount = s.count .succeeded s.job.itemCount ∧
      c.failedCount = s.count .failed s.job.itemCount
    rw [hloop.size]
    exact ⟨hloop.before, hloop.succeeded, hloop.failed⟩

/-- A job without items fails. -/
theorem inv_finished_empty (h : Inv s) (hidle : Idle n s) :
    Inv { s with job := (finished {}).apply s.job } := by
  apply inv_patch h
  · exact (h.unjoined hidle.joined).2.1.symm
  · simp [finished, JobPatch.apply]

theorem wp_notifyJobFinished (s : State) : jobWp 0 notifyJobFinished anyEnd s := by
  have hfind : jobWp 0 (attempt (perform .findJob)) (fun _ _ => True) s :=
    wp_attempt_read (wp_read reads_findJob stable_true trivial)
  refine wp_bind (wp_mono (fun r t _ => ?_) hfind)
  cases r with
  | error e => exact trivial
  | ok found =>
    cases found with
    | none => exact trivial
    | some job =>
      exact wp_read reads_notify stable_true trivial

/-- What follows the last update. -/
theorem wp_finish {Q : Except JsStr Unit → State → Prop} {p : M Unit} (hp : jobWp 0 p Q s) :
    jobWp 0 (p >>= fun _ => notifyJobFinished) anyEnd s := by
  refine wp_bind (wp_mono (fun r t _ => ?_) hp)
  cases r with
  | error e => exact trivial
  | ok a => exact wp_notifyJobFinished t

theorem wp_runItems (job : Job) (hjob : job.counts = {}) (hs : Idle n s) :
    jobWp 0 (runItems keccak job) anyEnd s := by
  have huser : jobWp 0 (attempt (perform .findUser)) (fun _ u => Idle n u) s := by
    apply wp_attempt_read
    exact wp_read reads_findUser stable_idle hs
  refine wp_bind (wp_mono (fun r t ht => ?_) huser)
  cases r with
  | error e => exact trivial
  | ok a =>
  have hpreflight : jobWp 0 (attempt (perform .preflight)) (fun _ u => Idle n u) t := by
    apply wp_attempt_read
    exact wp_read reads_preflight stable_idle ht
  refine wp_bind (wp_mono (fun r u hu => ?_) hpreflight)
  cases r with
  | error e => exact trivial
  | ok a =>
  refine wp_bind (wp_mono (fun r v hv => ?_) (wp_findPending hu))
  cases r with
  | error e => exact trivial
  | ok items =>
  obtain ⟨hidle, hids⟩ := hv items rfl
  rw [hjob]
  by_cases hempty : items = []
  · subst hempty
    exact wp_finish (wp_updateJob (finished {}) stable_idle hidle (fun t ht h => inv_finished_empty h ht)
      fun t ht => ht.patch _)
  · refine wp_bind (wp_mono (fun r w hw => ?_) (wp_mapPool hids hempty hidle))
    cases r with
    | error e => exact trivial
    | ok a =>
    have hloop := hw a rfl
    rw [List.range_eq_range'] at hids
    refine wp_bind (wp_mono (fun r w' hw' => ?_) (wp_mintItems job items n hids (Nat.zero_add n) hloop))
    cases r with
    | error e => exact trivial
    | ok counts =>
    have hend := hw' counts rfl
    have hfinish : jobWp 0 (attempt (perform (.updateJob (finished counts)))) (fun _ _ => True) w' := by
      apply wp_attempt_read
      apply wp_perform (stable_joined fun s (h : LoopAt n n counts s) => h.joined) hend
      intro t ht hinv x r u hu
      obtain ⟨rfl, rfl⟩ := Prod.mk.inj (Option.some.inj hu)
      rcases after_cases x t { t with job := (finished counts).apply t.job } with hsame | hdone
      · rw [hsame]
        exact ⟨hinv, fun j _ => kept_refl j t, trivial⟩
      · rw [hdone]
        exact ⟨inv_finished hinv ht, fun j hj => kept_rows hj rfl rfl rfl rfl, trivial⟩
    exact wp_finish hfinish

theorem wp_processJob (hs : Idle n s) : jobWp 0 (processJob keccak) anyEnd s := by
  have hprocessing : jobWp 0 (attempt (perform (.updateJob .processing))) (fun _ u => Idle n u) s :=
    wp_updateJob .processing stable_idle hs
      (fun t _ h => inv_patch h .processing rfl (by simp [JobPatch.apply])) fun t ht => ht.patch _
  refine wp_bind (wp_mono (fun r t ht => ?_) hprocessing)
  cases r with
  | error e => exact trivial
  | ok a =>
  have hfind : jobWp 0 (attempt (perform .findJob)) (WhenOk fun found u => Idle n u ∧
      ∀ job, found = some job → job.counts = {}) t := by
    apply wp_attempt
    apply wp_perform stable_idle ht
    intro v hv hinv x r u hu
    obtain ⟨rfl, rfl⟩ := Prod.mk.inj (Option.some.inj hu)
    refine ⟨hinv, fun j _ => kept_refl j v, ?_⟩
    cases hanswer : x.answer (if x.flag then none else some v.job) with
    | error e =>
      rintro _ ⟨⟩
    | ok found =>
      rintro _ ⟨⟩
      refine ⟨hv, fun job hjob => ?_⟩
      rw [← (answer_eq_ok.mp hanswer).2] at hjob
      split_ifs at hjob
      obtain rfl := Option.some.inj hjob
      exact (hinv.unjoined hv.joined).2.1
  refine wp_bind (wp_mono (fun r u hu => ?_) hfind)
  cases r with
  | error e => exact trivial
  | ok found =>
    obtain ⟨hidle, hcounts⟩ := hu found rfl
    cases found with
    | none => exact trivial
    | some job => exact wp_runItems job (hcounts job rfl) hidle

/-- Whatever the workers still do, the job can be marked failed. -/
theorem wp_failJob (message : JsStr) (s : State) : jobWp 0 (failJob message) anyEnd s :=
  wp_finish (wp_updateJob (.failed message) stable_true trivial
    (fun t _ h => inv_patch h (.failed message) rfl (by simp [JobPatch.apply])) fun _ _ => trivial)

/-- The job keeps the contract. -/
theorem wp_runJob (hs : Idle n s) : jobWp 0 (runJob keccak) anyEnd s := by
  have henter : jobWp 0 (perform .enter) (fun r u => ∃ inflight, r = .ok inflight ∧ Idle n u) s := by
    apply wp_perform stable_idle hs
    intro t ht hinv x r u hu
    obtain ⟨rfl, rfl⟩ := Prod.mk.inj (Option.some.inj hu)
    exact ⟨{ hinv with }, fun j hj => kept_rows hj rfl rfl rfl rfl, _, rfl, ht.queue, ht.joined, ht.size⟩
  refine wp_bind (wp_mono (fun r t ht => ?_) henter)
  obtain ⟨inflight, rfl, hidle⟩ := ht
  cases inflight with
  | true => exact trivial
  | false =>
    apply wp_settle
    apply wp_settle
    refine wp_mono (fun r u _ => ?_) (wp_processJob hidle)
    have hleave : ∀ (o : Except JsStr Unit) v,
        jobWp 0 ((perform .leave : M Unit).settle fun _ => .ret o) anyEnd v := by
      intro o v
      apply wp_settle
      apply wp_perform stable_true trivial
      intro t _ hinv x r u hu
      obtain ⟨rfl, rfl⟩ := Prod.mk.inj (Option.some.inj hu)
      exact ⟨{ hinv with }, fun j hj => kept_rows hj rfl rfl rfl rfl, trivial⟩
    cases r with
    | ok a => exact hleave _ u
    | error e => exact wp_mono (fun o v _ => hleave o v) (wp_failJob e u)

end Run

section Runs
variable {keccak : JsStr → JsStr} {recipientAddress : JsStr} {partnerId : Option JsStr} {certNumbers : List JsStr}

theorem inv_created : Inv (created recipientAddress partnerId certNumbers) where
  ids q hq := by cases hq
  idle _ := rfl
  idx_le := Nat.zero_le _
  untouched _ _ _ := ⟨rfl, rfl⟩
  heldTaken _ h := absurd h List.not_mem_nil
  heldOnce := List.nodup_nil
  handled _ id h := absurd h (Nat.not_lt_zero id)
  preparesTaken _ h := absurd h List.not_mem_nil
  preparedOnce := List.nodup_nil
  unjoined _ := ⟨rfl, rfl, by simp [created]⟩
  joined h := by cases h
  mintedOnce _ _ := Nat.zero_le _
  counted := ⟨rfl, Nat.zero_le _⟩
  truth _ h := by cases h
  completed h := by cases h

theorem idle_created :
    Idle certNumbers.length (created recipientAddress partnerId certNumbers) := ⟨rfl, rfl, rfl⟩

/-- Every state of a run of the job has the invariant. -/
theorem inv_of_jobReach {q : JobPool}
    (hq : JobReach (started keccak (created recipientAddress partnerId certNumbers)) q) : Inv q.shared := by
  have hsafe : Pool.Safe exec anyStep contract (fun _ => anyEnd)
      (started keccak (created recipientAddress partnerId certNumbers)) := by
    refine ⟨inv_created, fun i t ht => ?_⟩
    cases i with
    | zero =>
      obtain rfl := Option.some.inj ht
      exact wp_runJob idle_created
    | succ i => cases ht
  have hend := Pool.safe_reach_of_fresh (F := fun i _ => i ≠ 0) stablePost_anyEnd (fun _ _ _ _ h => h)
    (fun fuel i s _ hi => wp_worker hi fuel s) hq hsafe fun i hi => Nat.ne_of_gt hi
  exact hend.1.inv

/-- In every run whose steps do not throw on an item after a transaction that mints its NFT was sent,
the rows tell the truth. -/
theorem reports_of_not_late {q : JobPool}
    (hq : JobReach (started keccak (created recipientAddress partnerId certNumbers)) q)
    (hlate : q.shared.late = []) : Reports q.shared := by
  have h := inv_of_jobReach hq
  have honce : (q.shared.mints.map Prod.fst).Nodup := by
    rw [List.nodup_iff_count_le_one]
    intro id
    apply h.mintedOnce id
    rw [hlate]
    exact List.not_mem_nil
  refine ⟨h.preparedOnce, honce, h.counted, fun id _ hfailed => ?_, h.completed⟩
  by_contra hminted
  rw [Bool.not_eq_false] at hminted
  have hmem := h.truth id hfailed hminted
  rw [hlate] at hmem
  exact absurd hmem List.not_mem_nil

def oneCard : JobPool :=
  started (fun _ => js "0x0c")
    (created (js "0x00000000000000000000000000000000000000ab") (some (js "pop-up"))
      [js "12345678"])

def jobSteps (n : ℕ) : List (Pool.Event ℕ Fate) := List.replicate n (.run 0 {})

/-- The card is prepared by a worker, and its mint is about to begin. -/
def prepareCard : List (Pool.Event ℕ Fate) :=
  jobSteps 7 ++ .spawn 1 :: .run 1 {} :: .run 1 {} :: .run 1 { row := ⟨js "Card", js "ipfs://c"⟩ } ::
    .run 1 {} :: .run 1 {} :: jobSteps 10

/-- A transaction that mints is sent, and noted on the cycle. -/
def sendCard : List (Pool.Event ℕ Fate) :=
  [.run 0 { flag := true, txHash := js "0x01" }, .run 0 {}]

/-- Its receipt is read, and everything after the mint up to the update of the item is done. -/
def mintCard : List (Pool.Event ℕ Fate) :=
  sendCard ++ .run 0 { receipt := some ⟨some (js "0x01"), [.transfer zeroAddress 7]⟩ } :: jobSteps 5

def cardState (q : JobPool) : JobStatus × ItemStatus × List ℕ × List ℕ :=
  (q.shared.job.status, (q.shared.items 0).status, q.shared.mints.map Prod.fst, q.shared.late)

theorem reports_of_not_late_minted :
    ∃ q, JobReach oneCard q ∧ cardState q = (.completed, .succeeded, [0], []) ∧
      Reports q.shared := by
  obtain ⟨q, hq, hstate⟩ : ∃ q, JobReach oneCard q ∧
      cardState q = (.completed, .succeeded, [0], []) :=
    Pool.exists_reach_of_runSchedule (prepareCard ++ mintCard ++ jobSteps 6) cardState
      (by decide +kernel)
  have hlate : q.shared.late = [] := congrArg (fun v => v.2.2.2) hstate
  exact ⟨q, hq, hstate, reports_of_not_late hq hlate⟩

/-- The card is minted, its update throws, and it is marked failed. Or the provider throttles the wait
for its transaction, and it is minted twice. -/
theorem failed_though_minted :
    (¬ ∀ (keccak : JsStr → JsStr) (recipientAddress : JsStr) (partnerId : Option JsStr)
        (certNumbers : List JsStr) (q : JobPool),
      JobReach (started keccak (created recipientAddress partnerId certNumbers)) q →
        ∀ id < q.shared.job.itemCount, (q.shared.items id).status = .failed →
          q.shared.minted id = false) ∧
    ¬ ∀ (keccak : JsStr → JsStr) (recipientAddress : JsStr) (partnerId : Option JsStr)
        (certNumbers : List JsStr) (q : JobPool),
      JobReach (started keccak (created recipientAddress partnerId certNumbers)) q →
        (q.shared.mints.map Prod.fst).Nodup := by
  constructor
  · obtain ⟨q, hq, hstate⟩ : ∃ q, JobReach oneCard q ∧
        (q.shared.job.itemCount, cardState q) = (1, .completed, .failed, [0], [0]) :=
      Pool.exists_reach_of_runSchedule
        (prepareCard ++ mintCard ++
          .run 0 { error := some (.primitive (js "deadlock detected")) } :: jobSteps 6)
        (fun q => (q.shared.job.itemCount, cardState q)) (by decide +kernel)
    have hone : q.shared.job.itemCount = 1 := congrArg Prod.fst hstate
    have hfailed : (q.shared.items 0).status = .failed := congrArg (fun v => v.2.2.1) hstate
    have hmints : q.shared.mints.map Prod.fst = [0] := congrArg (fun v => v.2.2.2.1) hstate
    intro h
    have hnot := h _ _ _ _ q hq 0 (by rw [hone]; exact Nat.one_pos) hfailed
    rw [State.minted, hmints] at hnot
    cases hnot
  · obtain ⟨q, hq, hstate⟩ : ∃ q, JobReach oneCard q ∧
        cardState q = (.completed, .succeeded, [0, 0], [0]) :=
      Pool.exists_reach_of_runSchedule
        (prepareCard ++ sendCard ++
          .run 0 { error := some (.object { code := some (.number 429) }) } :: .run 0 {} ::
          mintCard ++ jobSteps 6)
        cardState (by decide +kernel)
    have hmints : q.shared.mints.map Prod.fst = [0, 0] :=
      congrArg (fun v => v.2.2.1) hstate
    intro h
    have hnodup := h _ _ _ _ q hq
    rw [hmints] at hnodup
    exact absurd hnodup (by decide)

end Runs

end PartnerMint
