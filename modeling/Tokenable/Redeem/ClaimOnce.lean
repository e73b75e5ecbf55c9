import Tokenable.Redeem.Commands

/-!
# A payment funds one batch

`payment_funds_one_batch`: in every run in which no save of a claim finds a claim of its hash, the
redemption rows of a payment hash come from one call, and no other call with that hash succeeds.
The save of a claim that finds one updates it, and the call goes on: `payment_funds_two_batches`.
-/

namespace Redeem
open Js Platform Async Db Vault Orders Backend

/-- The `SELECT` of a claim save finds no claim. -/
def FindsNoClaim (env : Env) : Allowed Backend.Store BackendCmd
  | i, s, .inl (.inTx (.findClaim paymentTxHash)) =>
    (s.view (schema env) i).claims.get paymentTxHash = none
  | _, _, _ => True

instance (env : Env) (i : ℕ) (s : Backend.Store) (c : BackendCmd) :
    Decidable (FindsNoClaim env i s c) := by
  unfold FindsNoClaim
  split <;> infer_instance

def InsertsClaim (ws : List (ℕ × Stmt)) (i : ℕ) (hash : JsStr) : Prop :=
  ∃ c, (i, .insertClaim c) ∈ ws ∧ c.paymentTxHash = hash

/-- Who inserts a row of a payment also inserts the claim of the payment. -/
def Funded (ws : List (ℕ × Stmt)) : Prop :=
  ∀ i r hash, (i, .insertRedemption r) ∈ ws → r.paymentTxHash = some hash → InsertsClaim ws i hash

structure ClaimInv (env : Env) (t₀ : Tables) (s : Backend.Store) : Prop where
  replays : s.stored = (schema env).replay t₀ s.history
  single : ∀ i j hash, InsertsClaim s.writes i hash → InsertsClaim s.writes j hash → i = j
  unclaimed : ∀ i hash, InsertsClaim s.writes i hash → t₀.claims.get hash = none
  committed : Funded s.history
  uncommitted : Funded s.pending

variable {env : Env} {t₀ : Tables} {i j : ℕ} {s t : Backend.Store} {hash : JsStr}

theorem InsertsClaim.mono {ws vs : List (ℕ × Stmt)} (h : InsertsClaim ws i hash)
    (hsub : ∀ w ∈ ws, w ∈ vs) : InsertsClaim vs i hash :=
  let ⟨c, hc, hhash⟩ := h
  ⟨c, hsub _ hc, hhash⟩

theorem insertsClaim_append {ws vs : List (ℕ × Stmt)} :
    InsertsClaim (ws ++ vs) i hash ↔ InsertsClaim ws i hash ∨ InsertsClaim vs i hash := by
  simp only [InsertsClaim, List.mem_append, or_and_right, exists_or]

theorem insertsClaim_filter {ws : List (ℕ × Stmt)} {p : ℕ → Bool} :
    InsertsClaim (ws.filter (fun w => p w.1)) i hash ↔ InsertsClaim ws i hash ∧ p i = true := by
  simp only [InsertsClaim, List.mem_filter]
  grind

theorem Funded.append {ws vs : List (ℕ × Stmt)} (hws : Funded ws) (hvs : Funded vs) :
    Funded (ws ++ vs) := by
  intro i r hash hr hhash
  rw [insertsClaim_append]
  exact (List.mem_append.mp hr).imp (hws i r hash · hhash) (hvs i r hash · hhash)

/-- The rows and the claim of a transaction are kept or dropped together. -/
theorem Funded.filter {ws : List (ℕ × Stmt)} (hws : Funded ws) (p : ℕ → Bool) :
    Funded (ws.filter (fun w => p w.1)) := by
  intro i r hash hr hhash
  obtain ⟨hmem, hp⟩ := List.mem_filter.mp hr
  exact insertsClaim_filter.mpr ⟨hws i r hash hmem hhash, hp⟩

section Tables

/-- No statement deletes a claim. -/
theorem claimed_apply {u : Tables} (h : u.claims.get hash ≠ none) (q : Stmt) :
    (q.apply env u).claims.get hash ≠ none := by
  have hsave : ∀ c, (u.claims.save c).get hash ≠ none := by
    intro c
    by_cases hc : hash = c.paymentTxHash
    · simp [hc]
    · rwa [Table.get_save_of_ne hc]
  cases q with
  | insertClaim c => exact hsave c
  | updateClaim c => exact hsave c
  | _ => exact h

theorem claimed_replay {u : Tables} (h : u.claims.get hash ≠ none) (ws : List (ℕ × Stmt)) :
    ((schema env).replay u ws).claims.get hash ≠ none :=
  (schema env).replay_induction (P := fun v => v.claims.get hash ≠ none) h
    fun w _ _ hu => claimed_apply hu w.2

theorem claimed_of_insertsClaim {u : Tables} {ws : List (ℕ × Stmt)} (h : InsertsClaim ws i hash) :
    ((schema env).replay u ws).claims.get hash ≠ none := by
  obtain ⟨c, hc, rfl⟩ := h
  obtain ⟨pre, post, rfl⟩ := List.append_of_mem hc
  rw [Schema.replay_append]
  have hsaved : ((Stmt.insertClaim c).apply env ((schema env).replay u pre)).claims.get
      c.paymentTxHash ≠ none := by
    simp [Stmt.apply]
  exact claimed_replay hsaved post

/-- Every redemption row was there at the start or was inserted. -/
theorem mem_redemptions_replay {u : Tables} {ws : List (ℕ × Stmt)} {r : VaultRedemption}
    (hr : r ∈ ((schema env).replay u ws).redemptions.rows) :
    r ∈ u.redemptions.rows ∨ ∃ i, (i, .insertRedemption r) ∈ ws := by
  refine (schema env).replay_induction (P := fun v => r ∈ v.redemptions.rows →
    r ∈ u.redemptions.rows ∨ ∃ i, (i, .insertRedemption r) ∈ ws) .inl (fun w hw v hv => ?_) hr
  obtain ⟨i, q⟩ := w
  cases q with
  | insertRedemption row =>
    intro hmem
    rcases Table.mem_save.mp hmem with rfl | ⟨hmem', -⟩
    · exact .inr ⟨i, hw⟩
    · exact hv hmem'
  | _ => exact hv

end Tables

def inserts : Stmt → Bool
  | .insertClaim _ | .insertRedemption _ => true
  | _ => false

theorem insertsClaim_singleton {q : Stmt} :
    InsertsClaim [(j, q)] i hash ↔ i = j ∧ ∃ c, q = .insertClaim c ∧ c.paymentTxHash = hash := by
  simp only [InsertsClaim, List.mem_singleton, Prod.mk.injEq]
  grind

/-- An accepted insert of a claim is the first of its hash. -/
theorem unclaimed_of_changes {c : PaymentClaim} (hinv : ClaimInv env t₀ s)
    (hfree : s.blocked (schema env) (· ≠ i) (.insertClaim c) = false)
    (hc : (Stmt.insertClaim c).changes (s.view (schema env) i) = true) :
    t₀.claims.get c.paymentTxHash = none ∧
      ∀ j, InsertsClaim s.writes j c.paymentTxHash → j = i := by
  have hview : (s.view (schema env) i).claims.get c.paymentTxHash = none := by
    simp only [Stmt.changes, Bool.and_eq_true, Option.isNone_iff_eq_none] at hc
    exact hc.1
  have hstored : s.stored.claims.get c.paymentTxHash = none := by
    by_contra h
    exact claimed_replay h _ hview
  constructor
  · by_contra h
    exact claimed_replay h s.history (hinv.replays ▸ hstored)
  · intro j hj
    rcases insertsClaim_append.mp hj with hhist | ⟨d, hd, hhash⟩
    · exact absurd (hinv.replays ▸ hstored) (claimed_of_insertsClaim hhist)
    · by_contra hji
      have hwait := not_waits_of_not_blocked hfree hd (by simpa using hji)
      simp [schema, Stmt.locks, hhash] at hwait

theorem claimInv_runInTx {q : Stmt} (hinv : ClaimInv env t₀ s)
    (hfree : s.blocked (schema env) (· ≠ i) q = false)
    (hrow : ∀ r hash, q = .insertRedemption r → r.paymentTxHash = some hash →
      InsertsClaim s.pending i hash) :
    ClaimInv env t₀ (s.runInTx (schema env) i q) := by
  unfold Session.runInTx
  split_ifs with hchange
  · have hmem : ∀ j hash, InsertsClaim (s.history ++ (s.pending ++ [(i, q)])) j hash ↔
        InsertsClaim s.writes j hash ∨ j = i ∧ ∃ c, q = .insertClaim c ∧ c.paymentTxHash = hash := by
      intro j hash
      rw [← List.append_assoc, insertsClaim_append, insertsClaim_singleton]
      rfl
    refine ⟨hinv.replays, fun a b hash ha hb => ?_, fun a hash ha => ?_, hinv.committed, ?_⟩
    · rcases (hmem a hash).mp ha with hold | ⟨rfl, c, rfl, rfl⟩
      · rcases (hmem b hash).mp hb with hold' | ⟨rfl, c, rfl, rfl⟩
        · exact hinv.single a b hash hold hold'
        · exact (unclaimed_of_changes hinv hfree hchange).2 a hold
      · rcases (hmem b _).mp hb with hold' | ⟨rfl, -⟩
        · exact ((unclaimed_of_changes hinv hfree hchange).2 b hold').symm
        · rfl
    · rcases (hmem a hash).mp ha with hold | ⟨rfl, c, rfl, rfl⟩
      · exact hinv.unclaimed a hash hold
      · exact (unclaimed_of_changes hinv hfree hchange).1
    · intro a r hash hr hhash
      rcases List.mem_append.mp hr with hr | hr
      · exact (hinv.uncommitted a r hash hr hhash).mono fun w hw => List.mem_append_left _ hw
      · obtain ⟨rfl, rfl⟩ := Prod.mk.inj (List.mem_singleton.mp hr)
        exact (hrow r hash rfl hhash).mono fun w hw => List.mem_append_left _ hw
  · exact hinv

theorem claimInv_runAuto {q : Stmt} (hinv : ClaimInv env t₀ s) (hq : inserts q = false)
    (hreplays : (s.runAuto (schema env) i q).stored =
      (schema env).replay t₀ (s.runAuto (schema env) i q).history) :
    ClaimInv env t₀ (s.runAuto (schema env) i q) := by
  unfold Session.runAuto at hreplays ⊢
  split_ifs at hreplays ⊢ with hchange
  · have hnone : ∀ a hash, ¬ InsertsClaim [(i, q)] a hash := by
      rintro a hash ⟨c, hc, -⟩
      obtain ⟨-, rfl⟩ := Prod.mk.inj (List.mem_singleton.mp hc)
      simp [inserts] at hq
    have hmem : ∀ a hash, InsertsClaim (s.history ++ [(i, q)] ++ s.pending) a hash →
        InsertsClaim s.writes a hash := by
      intro a hash ha
      rw [insertsClaim_append, insertsClaim_append] at ha
      exact insertsClaim_append.mpr (ha.imp_left fun h => h.resolve_right (hnone a hash))
    refine ⟨hreplays, fun a b hash ha hb => hinv.single a b hash (hmem a hash ha) (hmem b hash hb),
      fun a hash ha => hinv.unclaimed a hash (hmem a hash ha), ?_, hinv.uncommitted⟩
    refine hinv.committed.append fun a r hash hr _ => ?_
    obtain ⟨-, rfl⟩ := Prod.mk.inj (List.mem_singleton.mp hr)
    simp [inserts] at hq
  · exact hinv

theorem claimInv_commit (hinv : ClaimInv env t₀ s) : ClaimInv env t₀ (s.commit (schema env) i) := by
  have hmem : ∀ a hash, InsertsClaim (s.commit (schema env) i).writes a hash →
      InsertsClaim s.writes a hash := fun a hash ha => ha.mono fun w hw => mem_writes_commit.mp hw
  refine ⟨?_, fun a b hash ha hb => hinv.single a b hash (hmem a hash ha) (hmem b hash hb),
    fun a hash ha => hinv.unclaimed a hash (hmem a hash ha), ?_, ?_⟩
  · simp only [Session.commit, Session.view, Schema.replay_append, ← hinv.replays]
  · exact hinv.committed.append (hinv.uncommitted.filter (fun a => a = i))
  · exact hinv.uncommitted.filter (fun a => a ≠ i)

theorem claimInv_rollback (hinv : ClaimInv env t₀ s) : ClaimInv env t₀ (s.rollback i) := by
  have hmem : ∀ a hash, InsertsClaim (s.rollback i).writes a hash → InsertsClaim s.writes a hash :=
    fun a hash ha => ha.mono fun w hw => mem_writes_rollback hw
  exact ⟨hinv.replays, fun a b hash ha hb => hinv.single a b hash (hmem a hash ha) (hmem b hash hb),
    fun a hash ha => hinv.unclaimed a hash (hmem a hash ha), hinv.committed,
    hinv.uncommitted.filter (fun a => a ≠ i)⟩

/-- Outside the transaction: questions, and statements that insert neither claim nor redemption. -/
def Outside : BackendCmd → Prop
  | .inl (.auto q) => inserts q = false
  | .inl _ => False
  | .inr _ => True

/-- Between the claim of `hash` and the commit: no claim, and rows of `hash` only. -/
def RowsOf (hash : JsStr) : BackendCmd → Prop
  | .inl (.inTx q) => (∀ c, q ≠ .insertClaim c) ∧
      ∀ r, q = .insertRedemption r → r.paymentTxHash = some hash
  | .inl _ => False
  | .inr _ => True

theorem outside_of_around {α : Type} {p : BackendM α} (hp : p.Issues Around) : p.Issues Outside := by
  refine Prog.issues_mono (fun c hc => ?_) hp
  rcases c with (q | _ | _ | _) | q
  · cases q with
    | insertClaim => exact hc.elim
    | insertRedemption => exact hc.elim
    | _ => exact rfl
  all_goals exact hc

theorem rowsOf_of_ofCards {α : Type} {named : JsStr → JsStr → Prop} {p : BackendM α}
    (hp : p.Issues (OfCards hash named)) : p.Issues (RowsOf hash) := by
  refine Prog.issues_mono (fun c hc => ?_) hp
  rcases c with (_ | q | _ | _) | q
  · exact hc.elim
  · refine ⟨fun claim heq => ?_, fun r heq => ?_⟩
    · subst heq
      exact hc.elim
    · subst heq
      exact hc
  all_goals exact hc

section Runs

abbrev claimContract (env : Env) (t₀ : Tables) : Contract Backend.Store := sessionContract (ClaimInv env t₀)

abbrev claimWp (env : Env) (t₀ : Tables) (i : ℕ) {α : Type} (p : BackendM α)
    (Q : Except HttpError α → Backend.Store → Prop) (s : Backend.Store) : Prop :=
  wp (backendHandler env) (FindsNoClaim env) (claimContract env t₀) i p Q s

def Claimed (i : ℕ) (hash : JsStr) (s : Backend.Store) : Prop := InsertsClaim s.history i hash

theorem Claimed.later (h : Claimed i hash s) (hst : s.history <+: t.history) : Claimed i hash t :=
  h.mono fun _ hw => hst.subset hw

/-- Commands outside the transaction keep the invariant and what is committed. -/
theorem outside_step {K : Backend.Store → Prop}
    (hK : ∀ s t : Backend.Store, s.history <+: t.history → K s → K t)
    (c : BackendCmd) (hc : Outside c) (s : Backend.Store) (x : World) (r : BackendRes c) (u : Backend.Store)
    (hinv : ClaimInv env t₀ s) (hs : K s) (_ : FindsNoClaim env i s c)
    (hu : backendHandler env i s x c = some (r, u)) :
    (claimContract env t₀).inv u ∧ (claimContract env t₀).guar i s u ∧ K u := by
  cases c with
  | inr q =>
    obtain ⟨-, rfl⟩ := Prod.mk.inj (Option.some.inj hu)
    exact ⟨hinv, ⟨fun _ _ => rfl, List.prefix_rfl⟩, hs⟩
  | inl c =>
    have hexec : s.exec (schema env) i c = some (r, u) := hu
    refine ⟨?_, guar_exec hexec, hK s u (history_exec hexec) hs⟩
    cases c with
    | auto q =>
      have hreplays := replays_exec hinv.replays hexec
      rcases exec_cases hexec with ⟨w, heq, -, rfl⟩ | ⟨w, heq, -⟩ | ⟨heq, -⟩ | ⟨heq, -⟩
      · obtain rfl := SqlCmd.auto.inj heq
        exact claimInv_runAuto hinv hc hreplays
      · cases heq
      · cases heq
      · cases heq
    | inTx q => exact hc.elim
    | commit => exact hc.elim
    | rollback => exact hc.elim

theorem claimWp_outside {α : Type} {p : BackendM α} {K : Backend.Store → Prop}
    (hK : ∀ s t : Backend.Store, s.history <+: t.history → K s → K t) (hp : p.Issues Outside)
    (hs : K s) :
    claimWp env t₀ i p (fun _ t => K t) s :=
  wp_of_issues (fun _ _ hst _ h => hK _ _ (And.right hst) h) (outside_step hK) hp hs

/-- Inside the transaction that has inserted the claim of `hash`, rows of `hash` may be inserted. -/
theorem rowsOf_step (c : BackendCmd) (hc : RowsOf hash c) (s : Backend.Store) (x : World)
    (r : BackendRes c) (u : Backend.Store) (hinv : ClaimInv env t₀ s)
    (hs : InsertsClaim (s.pendingOf i) i hash)
    (_ : FindsNoClaim env i s c) (hu : backendHandler env i s x c = some (r, u)) :
    (claimContract env t₀).inv u ∧ (claimContract env t₀).guar i s u ∧
      InsertsClaim (u.pendingOf i) i hash := by
  cases c with
  | inr q =>
    obtain ⟨-, rfl⟩ := Prod.mk.inj (Option.some.inj hu)
    exact ⟨hinv, ⟨fun _ _ => rfl, List.prefix_rfl⟩, hs⟩
  | inl c =>
    have hexec : s.exec (schema env) i c = some (r, u) := hu
    refine and_left_comm.mp ⟨guar_exec hexec, ?_⟩
    cases c with
    | inTx q =>
      rcases exec_cases hexec with ⟨w, heq, -⟩ | ⟨w, heq, hfree, rfl⟩ | ⟨heq, -⟩ | ⟨heq, -⟩
      · cases heq
      · obtain rfl := SqlCmd.inTx.inj heq
        constructor
        · refine claimInv_runInTx hinv hfree fun row hash' hrow hhash' => ?_
          obtain rfl : hash = hash' := Option.some.inj ((hc.2 row hrow).symm.trans hhash')
          exact hs.mono fun w hw => (mem_pendingOf.mp hw).1
        · exact hs.mono fun w hw => pendingOf_runInTx (schema env) q hw
      · cases heq
      · cases heq
    | auto q => exact hc.elim
    | commit => exact hc.elim
    | rollback => exact hc.elim

theorem claimWp_rows {α : Type} {p : BackendM α} (hp : p.Issues (RowsOf hash))
    (hs : InsertsClaim (s.pendingOf i) i hash) :
    claimWp env t₀ i p (fun _ t => InsertsClaim (t.pendingOf i) i hash) s :=
  wp_of_issues (fun _ _ hst _ h => (And.left hst).symm ▸ h) rowsOf_step hp hs

theorem findClaim_keeps (hash : JsStr) :
    claimWp env t₀ i (tx (.findClaim hash)) (fun r _ => r = .ok none) s := by
  intro t _ hinv hok x r u hu
  have hread : t.exec (schema env) i (.inTx (.findClaim hash)) = some (r, u) := hu
  obtain ⟨hfree, hr, rfl⟩ := exec_inTx_eq_some.mp hread
  have hnone : r = none := hr.trans hok
  exact ⟨claimInv_runInTx hinv hfree (fun r hash hr => by cases hr), guar_exec hread,
    congrArg Except.ok hnone⟩

theorem insertClaim_keeps (c : PaymentClaim) :
    claimWp env t₀ i (tx (.insertClaim c))
      (fun r t => r = .ok (.ok ()) → InsertsClaim (t.pendingOf i) i c.paymentTxHash) s := by
  intro t _ hinv _ x saved u hu
  have hinsert : t.exec (schema env) i (.inTx (.insertClaim c)) = some (saved, u) := hu
  obtain ⟨hfree, hsaved, rfl⟩ := exec_inTx_eq_some.mp hinsert
  refine ⟨claimInv_runInTx hinv hfree (fun r hash hr => by cases hr), guar_exec hinsert,
    fun hok => ?_⟩
  have hchange : (Stmt.insertClaim c).changes (t.view (schema env) i) = true := by
    have hanswer : Stmt.orUniqueViolation ((Stmt.insertClaim c).changes (t.view (schema env) i)) =
        .ok () := hsaved.symm.trans (Except.ok.inj hok)
    by_contra hno
    simp [Stmt.orUniqueViolation, hno] at hanswer
  have hrun : (t.runInTx (schema env) i (.insertClaim c)).pending =
      t.pending ++ [(i, .insertClaim c)] :=
    congrArg Session.pending (if_pos hchange)
  exact ⟨c, mem_pendingOf.mpr ⟨hrun ▸ by simp, rfl⟩, rfl⟩

/-- A claim save that finds no claim inserts one, or fails. -/
theorem insertPaymentClaimOrConflict_keeps (c : PaymentClaim) :
    claimWp env t₀ i (insertPaymentClaimOrConflict c)
      (fun r t => ∀ u, r = .ok u → InsertsClaim (t.pendingOf i) i c.paymentTxHash) s := by
  refine wp_bind (wp_mono (fun r t hr => ?_) (findClaim_keeps c.paymentTxHash))
  subst hr
  refine wp_bind (wp_mono (fun r t ht => ?_) (insertClaim_keeps c))
  cases r with
  | error e => exact fun _ h => by cases h
  | ok saved =>
    cases saved with
    | ok u => exact fun _ _ => ht rfl
    | error e =>
      cases e
      exact fun _ h => by cases h

theorem insertPaidRedemptionRows_rowsOf (p : PaidBatch) (items : List PaidItem) :
    (insertPaidRedemptionRows p items).Issues (RowsOf p.paymentTxHash) := by
  have hrows : (insertPaidRedemptionRows p items).Issues
      (OfCards p.paymentTxHash fun _ _ => True) :=
    insertPaidRedemptionRows_issues p fun _ _ => trivial
  exact rowsOf_of_ofCards hrows

/-- A call of `createPaidRedemptionBatch` that returns has committed the claim of its payment. -/
theorem createPaidRedemptionBatch_keeps (p : PaidBatch) :
    claimWp env t₀ i (createPaidRedemptionBatch p)
      (fun r t => ∀ rows, r = .ok rows → Claimed i (lower (trim p.paymentTxHash)) t) s := by
  refine wp_bind (wp_throwIf (fun _ _ h => by cases h) fun _ => ?_)
  refine wp_bind (wp_throwIf (fun _ _ h => by cases h) fun _ => ?_)
  refine wp_transaction (wp_bind (wp_mono (fun r t ht => ?_) (insertPaymentClaimOrConflict_keeps _)))
  cases r with
  | error e => exact fun u _ hinv => ⟨claimInv_rollback hinv, fun _ h => by cases h⟩
  | ok a =>
    refine wp_mono (fun r t' ht' u htu hinv => ?_)
      (claimWp_rows (insertPaidRedemptionRows_rowsOf _ _) (ht a rfl))
    cases r with
    | error e => exact ⟨claimInv_rollback hinv, fun _ h => by cases h⟩
    | ok rows =>
      refine ⟨claimInv_commit hinv, fun _ _ => ?_⟩
      have hpending : InsertsClaim (u.pendingOf i) i (lower (trim p.paymentTxHash)) :=
        (And.left htu).symm ▸ ht'
      exact hpending.mono fun w hw => List.mem_append_right _ hw

/-- Sequencing after a part that is outside the transaction. -/
theorem claimWp_bind_outside {α β : Type} {p : BackendM α} {f : α → BackendM β} {K : Backend.Store → Prop}
    {Q : Except HttpError β → Backend.Store → Prop}
    (hK : ∀ s t : Backend.Store, s.history <+: t.history → K s → K t) (hp : p.Issues Around)
    (hs : K s)
    (herr : ∀ e t, Q (.error e) t) (hf : ∀ a t, K t → claimWp env t₀ i (f a) Q t) :
    claimWp env t₀ i (p >>= f) Q s := by
  refine wp_bind (wp_mono (fun r t ht => ?_) (claimWp_outside hK (outside_of_around hp) hs))
  cases r with
  | ok a => exact hf a t ht
  | error e => exact herr e t

def RequestEnds (i : ℕ) (r : Except HttpError RedeemBatchResult) (s : Backend.Store) : Prop :=
  ∀ out, r = .ok out → Claimed i (lower (trim out.paymentTxHash)) s

theorem requestRedemptionBatch_keeps (userId : JsStr) (dto : RedeemBatchRequestDto) (chainId : ℕ) :
    claimWp env t₀ i (requestRedemptionBatch env userId dto chainId) (RequestEnds i) s := by
  have hK : ∀ s t : Backend.Store, s.history <+: t.history → True → True := fun _ _ _ h => h
  have herr : ∀ (e : HttpError) (t : Backend.Store), RequestEnds i (.error e) t := by
    intro e t out h
    cases h
  refine claimWp_bind_outside hK (issues_orThrowAnswer issues_ask) trivial herr fun _ t _ => ?_
  refine claimWp_bind_outside hK (Prog.issues_throwIf _ _) trivial herr fun _ t _ => ?_
  refine claimWp_bind_outside hK (quoteRequest_issues _ _ _) trivial herr fun quote t _ => ?_
  refine claimWp_bind_outside hK issues_ask trivial herr fun wallets t _ => ?_
  refine claimWp_bind_outside hK (Prog.issues_throwIf _ _) trivial herr fun _ t _ => ?_
  refine claimWp_bind_outside hK (checkPayment_issues _ _ _ _ _) trivial herr fun payment t _ => ?_
  refine claimWp_bind_outside hK (Prog.issues_ret _) trivial herr fun contract t _ => ?_
  refine claimWp_bind_outside hK issues_ask trivial herr fun batchId t _ => ?_
  refine claimWp_bind_outside hK (prepareItems_issues _ _ _ _ _) trivial herr fun items t _ => ?_
  refine wp_bind (wp_mono (fun r t ht => ?_) (createPaidRedemptionBatch_keeps _))
  cases r with
  | error e => exact herr e t
  | ok rows =>
    have hlater : ∀ s t : Backend.Store, s.history <+: t.history →
        Claimed i (lower (trim (lower (trim dto.paymentTxHash)))) s →
        Claimed i (lower (trim (lower (trim dto.paymentTxHash)))) t := fun _ _ hst h => h.later hst
    refine claimWp_bind_outside hlater (cancelActiveOrdersForTokens_issues _ _) (ht rows rfl) herr
      fun _ t ht => ?_
    refine claimWp_bind_outside hlater (issues_orThrowAnswer issues_ask) ht herr fun _ t ht => ?_
    intro out hout
    obtain rfl := Except.ok.inj hout
    exact ht

structure RequestCall where
  userId : JsStr
  dto : RedeemBatchRequestDto
  chainId : ℕ

def RequestCall.task (env : Env) (c : RequestCall) : BackendM RedeemBatchResult :=
  requestRedemptionBatch env c.userId c.dto c.chainId

abbrev RequestPool := Pool Backend.Store BackendCmd BackendRes HttpError RedeemBatchResult

def requestStart (t₀ : Tables) : RequestPool := ⟨Session.opened t₀, []⟩

abbrev RequestReach (env : Env) (Ok : Allowed Backend.Store BackendCmd) (p q : RequestPool) : Prop :=
  Pool.Reach (backendHandler env) (RequestCall.task env) Ok p q

/-- `fk_vault_redemptions_payment_claim` -/
def PaymentForeignKey (t : Tables) : Prop :=
  ∀ r ∈ t.redemptions.rows, ∀ hash, r.paymentTxHash = some hash → t.claims.get hash ≠ none

/-- The call that funded rows of `hash`, if one did: every row of `hash` is its own, or is as old as
the run, and a call with that hash has inserted no row and has not succeeded unless it is this one. -/
structure FundedBy (t₀ : Tables) (q : RequestPool) (hash : JsStr) (funder : Option ℕ) : Prop where
  rows : ∀ r ∈ q.shared.stored.redemptions.rows, r.paymentTxHash = some hash →
    match funder with
    | some i => (i, .insertRedemption r) ∈ q.shared.history
    | none => r ∈ t₀.redemptions.rows
  creates : ∀ i r, (i, .insertRedemption r) ∈ q.shared.history → r.paymentTxHash = some hash →
    funder = some i
  succeeds : ∀ i out, q.tasks[i]? = some (.ret (.ok out)) →
    lower (trim out.paymentTxHash) = hash → funder = some i

theorem claimInv_opened (env : Env) (t₀ : Tables) : ClaimInv env t₀ (Session.opened t₀) := by
  have hnone : ∀ a hash, ¬ InsertsClaim [] a hash := fun a hash ⟨c, hc, _⟩ => by cases hc
  exact ⟨rfl, fun a b hash ha _ => absurd ha (hnone a hash), fun a hash ha => absurd ha (hnone a hash),
    fun _ _ _ hr => (by cases hr), fun _ _ _ hr => (by cases hr)⟩

/-- In every run in which no save of a claim finds a claim, each payment hash has one funder. -/
theorem payment_funds_one_batch (env : Env) (t₀ : Tables) (ht₀ : PaymentForeignKey t₀)
    (q : RequestPool) (hq : RequestReach env (FindsNoClaim env) (requestStart t₀) q)
    (hash : JsStr) : ∃ funder, FundedBy t₀ q hash funder := by
  have hpost : (claimContract env t₀).StablePost RequestEnds :=
    fun i r s t hst h out hout => (h out hout).later (And.right hst)
  have hsafe : Pool.Safe (backendHandler env) (FindsNoClaim env) (claimContract env t₀)
      RequestEnds q :=
    Pool.safe_reach hpost (fun c i s _ => requestRedemptionBatch_keeps c.userId c.dto c.chainId) hq
      (Pool.safe_nil (claimInv_opened env t₀))
  obtain ⟨hreplays, hsingle, hunclaimed, hcommitted, -⟩ := hsafe.inv
  have hwrites : ∀ i, InsertsClaim q.shared.history i hash → InsertsClaim q.shared.writes i hash :=
    fun i hi => hi.mono fun w hw => List.mem_append_left _ hw
  have hrows : ∀ r ∈ q.shared.stored.redemptions.rows, r ∈ t₀.redemptions.rows ∨
      ∃ i, (i, .insertRedemption r) ∈ q.shared.history :=
    fun r hr => @mem_redemptions_replay env t₀ _ r (hreplays ▸ hr)
  by_cases hfunder : ∃ i, InsertsClaim q.shared.history i hash
  · obtain ⟨i, hi⟩ := hfunder
    have hsame : ∀ j, InsertsClaim q.shared.history j hash → j = i :=
      fun j hj => hsingle j i hash (hwrites j hj) (hwrites i hi)
    refine ⟨some i, fun r hr hhash => ?_, fun j r hr hhash => ?_, fun j out hj hhash => ?_⟩
    · rcases hrows r hr with hold | ⟨j, hj⟩
      · exact absurd (hunclaimed i hash (hwrites i hi)) (ht₀ r hold hash hhash)
      · exact hsame j (hcommitted j r hash hj hhash) ▸ hj
    · rw [hsame j (hcommitted j r hash hr hhash)]
    · rw [hsame j (hhash ▸ hsafe.ended hj out rfl)]
  · refine ⟨none, fun r hr hhash => ?_, fun j r hr hhash => ?_, fun j out hj hhash => ?_⟩
    · rcases hrows r hr with hold | ⟨j, hj⟩
      · exact hold
      · exact absurd ⟨j, hcommitted j r hash hj hhash⟩ hfunder
    · exact absurd ⟨j, hcommitted j r hash hr hhash⟩ hfunder
    · exact absurd ⟨j, hhash ▸ hsafe.ended hj out rfl⟩ hfunder

def payer : JsStr := js "0x00000000000000000000000000000000000000aa"

def redeemEnv : Env where
  platformFeeRecipient := some (js "0x00000000000000000000000000000000000000fe")
  rwaAddresses := [(11155111, js "0x00000000000000000000000000000000000000cc")]
  usdcAddresses := [(11155111, js "0x00000000000000000000000000000000000000dd")]

/-- The payment of 100 is mined, and the payer owns the cards. -/
def redeemWorld (id : JsStr) : World
  | .now => 0
  | .uuid => id
  | .nextOrderId => 0
  | .getOrderHash .. => .error []
  | .getOrderStatus .. => .error []
  | .ownerOf .. => .ok payer
  | .bidFunding .. => .ok ⟨0, 0, 0⟩
  | .listingDisplay _ => .ok ()
  | .ensureCollectionForListing .. => none
  | .findCollection .. => none
  | .getReviewStatus _ => none
  | .assertApprovedForCustody _ => .ok ()
  | .assertRedeemable .. => .ok ()
  | .estimate _ tokenIds _ => .ok ⟨tokenIds.length, 100, tokenIds.map fun n => { tokenId := n }⟩
  | .pinnedQuote _ => none
  | .listWalletsForUser _ => [payer]
  | .transactionReceipt .. => .ok (some ⟨true, [{
      address := js "0x00000000000000000000000000000000000000dd"
      sender := payer
      recipient := js "0x00000000000000000000000000000000000000fe"
      value := 100 }]⟩)
  | .getRwaTokenOwner .. => .ok payer
  | .computeVaultRef _ => []
  | .getAddress address => address
  | .getCustodyWalletAddress _ => .ok []

def mintedCycle (id : JsStr) : VaultCycle where
  id := id
  vaultAssetId := id
  chainId := 11155111
  cycleNumber := 1
  status := .minted

def registeredToken (tokenId cycleId : JsStr) : RwaToken where
  tokenContract := js "0x00000000000000000000000000000000000000cc"
  tokenId := tokenId
  vaultCycleId := some cycleId

def twoCards : Tables where
  orders := Table.empty
  tokens := [registeredToken (js "1") (js "c1"), registeredToken (js "2") (js "c2")]
  holdings := []
  settlements := []
  assets := []
  cycles := ⟨[mintedCycle (js "c1"), mintedCycle (js "c2")], by decide⟩
  claims := Table.empty
  redemptions := Table.empty

/-- A request for one card, paid by transaction `0x01`. -/
def cardRequest (tokenId : ℕ) : RequestCall where
  userId := js "user"
  dto := ⟨[tokenId], some ⟨js "n", js "l", none, js "c", none, js "p", js "us", none, js "t"⟩,
    js "0x01"⟩
  chainId := redeemV1ChainId

def requestSteps (i n : ℕ) : List (Pool.Event RequestCall World) :=
  List.replicate n (.run i (redeemWorld (ofNat i)))

/-- The calls that have inserted redemption rows, with the payment hashes of the rows. -/
def createdRows (q : RequestPool) : List (ℕ × Option JsStr) :=
  q.shared.history.filterMap fun w =>
    match w.2 with
    | .insertRedemption r => some (w.1, r.paymentTxHash)
    | _ => none

theorem exists_row_of_createdRows {q : RequestPool} {i : ℕ} {hash : Option JsStr}
    (h : (i, hash) ∈ createdRows q) :
    ∃ r, (i, .insertRedemption r) ∈ q.shared.history ∧ r.paymentTxHash = hash := by
  obtain ⟨⟨j, w⟩, hmem, hw⟩ := List.mem_filterMap.mp h
  cases w with
  | insertRedemption r =>
    obtain ⟨rfl, rfl⟩ := Prod.mk.inj (Option.some.inj hw)
    exact ⟨r, hmem, rfl⟩
  | _ => cases hw

/-- Both requests pass the early check and read the claims before either has claimed the payment;
the second insert waits for the commit of the first, and is rejected. -/
def claimRace : List (Pool.Event RequestCall World) :=
  .spawn (cardRequest 1) :: .spawn (cardRequest 2) :: requestSteps 0 11 ++ requestSteps 1 10 ++
    requestSteps 0 10 ++ requestSteps 1 2

theorem payment_funds_one_batch_claimRace :
    ∃ q, RequestReach redeemEnv (FindsNoClaim redeemEnv) (requestStart twoCards) q ∧
      createdRows q = [(0, some (js "0x01"))] ∧ ∃ funder, FundedBy twoCards q (js "0x01") funder := by
  have hplay : ∃ q, RequestReach redeemEnv (FindsNoClaim redeemEnv) (requestStart twoCards) q ∧
      createdRows q = [(0, some (js "0x01"))] :=
    Pool.exists_reach_of_runSchedule claimRace _ (by decide)
  obtain ⟨q, hq, hrows⟩ := hplay
  have hkey : PaymentForeignKey twoCards := fun r hr => by cases hr
  exact ⟨q, hq, hrows, payment_funds_one_batch redeemEnv twoCards hkey q hq (js "0x01")⟩

/-- The first request passes the early check, the second one runs to its end, and the claim save of
the first finds the claim of the second and takes it over. -/
def lateClaim : List (Pool.Event RequestCall World) :=
  .spawn (cardRequest 1) :: requestSteps 0 9 ++ .spawn (cardRequest 2) :: requestSteps 1 21 ++
    requestSteps 0 12

theorem payment_funds_two_batches :
    ∃ q, RequestReach redeemEnv anyStep (requestStart twoCards) q ∧
      ¬ ∃ funder, FundedBy twoCards q (js "0x01") funder := by
  have hplay : ∃ q, RequestReach redeemEnv anyStep (requestStart twoCards) q ∧
      createdRows q = [(1, some (js "0x01")), (0, some (js "0x01"))] :=
    Pool.exists_reach_of_runSchedule lateClaim _ (by decide)
  obtain ⟨q, hq, hrows⟩ := hplay
  refine ⟨q, hq, ?_⟩
  rintro ⟨funder, hfunded⟩
  obtain ⟨r, hr, hhash⟩ := exists_row_of_createdRows (hrows ▸ List.mem_cons_self)
  obtain ⟨r', hr', hhash'⟩ := exists_row_of_createdRows (hrows ▸ List.mem_cons_of_mem _ (.head _))
  have hfirst := hfunded.creates 1 r hr hhash
  have hsecond := hfunded.creates 0 r' hr' hhash'
  simp [hfirst] at hsecond

end Runs

end Redeem
