import Tokenable.Orders.LeaveActive
import Tokenable.Orders.NewRow
import Tokenable.Orders.SignedTerms
import Tokenable.Orders.SingleCall

/-!
# One active ask per token

A save writes closed rows only, so a row becomes active by an `INSERT`. `createOrder` looks for an
active ask of the token before it inserts one, and a replacement cancels the old listing in the
transaction that inserts the new one. `AskChecksHold` says that what these checks looked for is
still so when the statement runs: the invariant then holds, with the open transactions apart from
each other and from the statements outside them by their row locks.
-/

namespace Orders
open Js Platform Async Db Vault Settlement Backend

def IsActiveAsk (o : Order) : Prop := o.status = .active ∧ o.side = .ask

/-- The contracts are equal ignoring case, and the decimal token ids as numbers
(`normalizeDecimalTokenId_eq_iff`). -/
def SameToken (a b : Order) : Prop :=
  lower a.tokenContract = lower b.tokenContract ∧
    normalizeDecimalTokenId a.tokenId = normalizeDecimalTokenId b.tokenId

def OneAskPerToken (t : Tables) : Prop :=
  ∀ a ∈ t.orders.rows, ∀ b ∈ t.orders.rows, IsActiveAsk a → IsActiveAsk b → SameToken a b → a = b

def NoActiveAskOf (t : Tables) (row : Order) : Prop :=
  ∀ a ∈ t.orders.rows, IsActiveAsk a → ¬ SameToken a row

/-- A new ask finds no active ask of its token among the committed rows, and a replacement saves
over the row that it loaded. -/
def AskChecksHold : Allowed Store BackendCmd := fun _ s c =>
  match c with
  | .inl (.auto (.insertOrder row)) =>
    (Stmt.insertOrder row).changes s.stored = true → row.side = .ask → NoActiveAskOf s.stored row
  | .inl (.inTx (.saveOrders rows)) => ∀ p ∈ rows, s.stored.orders.get p.2.id = some p.1
  | _ => True

instance (o : Order) : Decidable (IsActiveAsk o) :=
  inferInstanceAs (Decidable (o.status = .active ∧ o.side = .ask))

instance (a b : Order) : Decidable (SameToken a b) :=
  inferInstanceAs (Decidable (lower a.tokenContract = lower b.tokenContract ∧
    normalizeDecimalTokenId a.tokenId = normalizeDecimalTokenId b.tokenId))

instance (t : Tables) : Decidable (OneAskPerToken t) :=
  inferInstanceAs (Decidable (∀ a ∈ t.orders.rows, ∀ b ∈ t.orders.rows,
    IsActiveAsk a → IsActiveAsk b → SameToken a b → a = b))

instance (t : Tables) (row : Order) : Decidable (NoActiveAskOf t row) :=
  inferInstanceAs (Decidable (∀ a ∈ t.orders.rows, IsActiveAsk a → ¬ SameToken a row))

instance (i : ℕ) (s : Store) (c : BackendCmd) : Decidable (AskChecksHold i s c) := by
  rcases c with (q | q | _ | _) | q
  · cases q with
    | insertOrder row =>
      exact inferInstanceAs (Decidable ((Stmt.insertOrder row).changes s.stored = true →
        row.side = .ask → NoActiveAskOf s.stored row))
    | _ => exact .isTrue trivial
  · cases q with
    | saveOrders rows =>
      exact inferInstanceAs (Decidable (∀ p ∈ rows, s.stored.orders.get p.2.id = some p.1))
    | _ => exact .isTrue trivial
  all_goals exact .isTrue trivial

theorem SameToken.symm {a b : Order} (h : SameToken a b) : SameToken b a := ⟨h.1.symm, h.2.symm⟩

theorem SameToken.trans {a b c : Order} (hab : SameToken a b) (hbc : SameToken b c) :
    SameToken a c := ⟨hab.1.trans hbc.1, hab.2.trans hbc.2⟩

section Statements
variable {env : Env} {t u : Tables} {q : Stmt}

def ClosesOrders : Stmt → Prop
  | .saveOrders rows => ∀ p ∈ rows, p.2.status ≠ .active
  | _ => True

/-- The statement saves closed rows only, and inserts an ask only where its token has none. -/
def KeepsOneAsk (t : Tables) : Stmt → Prop
  | .insertOrder row => row.side = .ask → NoActiveAskOf t row
  | q => ClosesOrders q

theorem mem_updateOrders {p : Order → Bool} {f : Order → Order} (hf : ∀ o, (f o).id = o.id)
    {o : Order} (h : o ∈ (t.updateOrders p f hf).orders.rows) (ho : ∀ o, (f o).status ≠ .active)
    (hactive : o.status = .active) : o ∈ t.orders.rows := by
  obtain ⟨x, hx, rfl⟩ := List.mem_map.mp h
  split_ifs at hactive ⊢ with hp
  · exact absurd hactive (ho x)
  · exact hx

/-- An active row after a statement was there before and is not saved, or is the inserted one. -/
theorem mem_of_active_apply {o : Order} (hq : ClosesOrders q)
    (ho : o ∈ (q.apply env t).orders.rows) (hactive : o.status = .active) :
    (o ∈ t.orders.rows ∧ o.id ∉ savedIds q) ∨ q = .insertOrder o := by
  cases q with
  | saveOrders rows =>
    rcases Table.mem_saveAll ho with hsaved | ⟨hold, hunsaved⟩
    · obtain ⟨p, hp, rfl⟩ := List.mem_map.mp hsaved
      exact absurd hactive (hq p hp)
    · rw [List.map_map] at hunsaved
      exact .inl ⟨hold, hunsaved⟩
  | insertOrder row =>
    rcases Table.mem_save.mp ho with rfl | ⟨hold, hne⟩
    · exact .inr rfl
    · exact .inl ⟨hold, by simpa [savedIds] using hne⟩
  | cancelActiveAsks =>
    refine .inl ⟨mem_updateOrders ?_ ho (fun _ => by simp) hactive, by simp [savedIds]⟩
    exact fun _ => rfl
  | expireOrders =>
    refine .inl ⟨mem_updateOrders ?_ ho (fun _ => by simp) hactive, by simp [savedIds]⟩
    exact fun _ => rfl
  | _ => exact .inl ⟨ho, by simp [savedIds]⟩

theorem KeepsOneAsk.closesOrders (hq : KeepsOneAsk t q) : ClosesOrders q := by
  cases q with
  | saveOrders => exact hq
  | _ => trivial

theorem oneAsk_apply (h : OneAskPerToken t) (hq : KeepsOneAsk t q) :
    OneAskPerToken (q.apply env t) := by
  intro a ha b hb hask hbsk hsame
  rcases mem_of_active_apply hq.closesOrders ha hask.1 with hold | rfl
  · rcases mem_of_active_apply hq.closesOrders hb hbsk.1 with hold' | rfl
    · exact h a hold.1 b hold'.1 hask hbsk hsame
    · exact absurd hsame (hq hbsk.2 a hold.1 hask)
  · rcases mem_of_active_apply hq.closesOrders hb hbsk.1 with hold' | heq
    · exact absurd hsame.symm (hq hask.2 b hold'.1 hbsk)
    · exact Stmt.insertOrder.inj heq

end Statements

section Session
open Session
variable {env : Env} {i j : ℕ} {s u : Store} {w : Stmt} {t : Tables}

/-- What the transaction of a replacement has done: nothing; saved the old listing as closed; and
inserted a listing of the same token. -/
inductive ReplacementTx (t : Tables) : List Stmt → Prop where
  | opened : ReplacementTx t []
  | closed (old row : Order) (hstored : t.orders.get old.id = some old) (hask : IsActiveAsk old)
      (hid : row.id = old.id) (hrow : row.status ≠ .active) :
      ReplacementTx t [.saveOrders [(old, row)]]
  | replaced (old row new : Order) (hstored : t.orders.get old.id = some old)
      (hask : IsActiveAsk old) (hid : row.id = old.id) (hrow : row.status ≠ .active)
      (hsame : SameToken old new) :
      ReplacementTx t [.saveOrders [(old, row)], .insertOrder new]

/-- The statements of the transaction of task `i`. -/
def txOf (s : Store) (i : ℕ) : List Stmt := (s.pendingOf i).map Prod.snd

structure AskInv (s : Store) : Prop where
  once : OneAskPerToken s.stored
  tx : ∀ i, ReplacementTx s.stored (txOf s i)
  apart : ∀ i j, i ≠ j → ∀ v ∈ txOf s i, ∀ w ∈ txOf s j, ∀ k ∈ savedIds v, k ∉ savedIds w

theorem mem_txOf : w ∈ txOf s i ↔ (i, w) ∈ s.pending := by
  simp only [txOf, List.mem_map, mem_pendingOf]
  constructor
  · rintro ⟨⟨k, v⟩, ⟨hv, rfl⟩, rfl⟩
    exact hv
  · intro h
    exact ⟨(i, w), ⟨h, rfl⟩, rfl⟩

/-- The transaction of a replacement depends on the rows that it saves. -/
theorem ReplacementTx.of_get_eq {ws : List Stmt} (h : ReplacementTx t ws) {t' : Tables}
    (hget : ∀ v ∈ ws, ∀ k ∈ savedIds v, t'.orders.get k = t.orders.get k) : ReplacementTx t' ws := by
  cases h with
  | opened => exact .opened
  | closed old row hstored hask hid hrow =>
    have hsaved := hget _ (.head _) old.id (by simp [savedIds, hid])
    exact .closed old row (hsaved.trans hstored) hask hid hrow
  | replaced old row new hstored hask hid hrow hsame =>
    have hsaved := hget _ (.head _) old.id (by simp [savedIds, hid])
    exact .replaced old row new (hsaved.trans hstored) hask hid hrow hsame

/-- The statements of a replacement change the rows that they save. -/
theorem ReplacementTx.unguarded {ws : List Stmt} (h : ReplacementTx t ws) :
    ∀ v ∈ ws, ∀ t', guardedIds t' v = [] := by
  cases h with
  | opened => exact fun v hv => by cases hv
  | closed => simp [guardedIds]
  | replaced => simp [guardedIds]

theorem AskInv.of_get_eq (hs : AskInv s) (honce : OneAskPerToken u.stored)
    (htx : ∀ i, txOf u i = txOf s i ∨ txOf u i = [])
    (hget : ∀ i, txOf u i = txOf s i → ∀ v ∈ txOf s i, ∀ k ∈ savedIds v,
      u.stored.orders.get k = s.stored.orders.get k) : AskInv u where
  once := honce
  tx i := by
    rcases htx i with heq | hnil
    · rw [heq]
      exact (hs.tx i).of_get_eq (hget i heq)
    · rw [hnil]
      exact .opened
  apart i j hij v hv w hw := by
    rcases htx i with heqi | hnil
    · rcases htx j with heqj | hnil
      · exact hs.apart i j hij v (heqi ▸ hv) w (heqj ▸ hw)
      · rw [hnil] at hw
        cases hw
    · rw [hnil] at hv
      cases hv

/-- A statement outside transactions. -/
theorem askInv_runAuto (hs : AskInv s) (hfree : s.blocked (schema env) (fun _ => true) w = false)
    (hw : w.changes s.stored = true → KeepsOneAsk s.stored w) :
    AskInv (s.runAuto (schema env) i w) := by
  unfold runAuto
  split_ifs with hch
  · refine hs.of_get_eq (oneAsk_apply hs.once (hw hch)) (fun _ => .inl rfl) fun j _ v hv k hk => ?_
    obtain ⟨hsaved, hguarded⟩ := not_mem_savedIds_of_free hfree (mem_txOf.mp hv) rfl hk
    exact get_orders_apply env hsaved hguarded
  · exact hs

theorem txOf_rollback (hji : j ≠ i) : txOf (s.rollback i) j = txOf s j := by
  have hexec : s.exec (schema {}) i .rollback = some ((), s.rollback i) := rfl
  rw [txOf, pendingOf_exec hexec hji, txOf]

theorem txOf_commit (hji : j ≠ i) : txOf (s.commit (schema env) i) j = txOf s j := by
  have hexec : s.exec (schema env) i .commit = some ((), s.commit (schema env) i) := rfl
  rw [txOf, pendingOf_exec hexec hji, txOf]

theorem txOf_rollback_self : txOf (s.rollback i) i = [] := by
  simp [txOf, pendingOf, rollback, List.filter_filter]

theorem txOf_commit_self : txOf (s.commit (schema env) i) i = [] := by
  simp [txOf, pendingOf, commit, List.filter_filter]

theorem askInv_rollback (hs : AskInv s) : AskInv (s.rollback i) := by
  refine hs.of_get_eq hs.once (fun j => ?_) fun _ _ _ _ _ _ => rfl
  by_cases hji : j = i
  · exact .inr (hji ▸ txOf_rollback_self)
  · exact .inl (txOf_rollback hji)

/-- Applied to the rows, the transaction of a replacement puts one active ask in the place of
another. -/
theorem ReplacementTx.replay {ws : List (ℕ × Stmt)} (h : ReplacementTx t (ws.map Prod.snd))
    (honce : OneAskPerToken t) : OneAskPerToken ((schema env).replay t ws) := by
  have hfold : (schema env).replay t ws =
      (ws.map Prod.snd).foldl (fun t w => w.apply env t) t := by
    rw [List.foldl_map]
    rfl
  have hsave : ∀ old row : Order, row.status ≠ .active →
      OneAskPerToken ((Stmt.saveOrders [(old, row)]).apply env t) := by
    intro old row hrow
    refine oneAsk_apply honce fun p hp => ?_
    rw [List.mem_singleton.mp hp]
    exact hrow
  rw [hfold]
  generalize ws.map Prod.snd = l at h
  cases h with
  | opened => exact honce
  | closed old row hstored hask hid hrow => exact hsave old row hrow
  | replaced old row new hstored hask hid hrow hsame =>
    have hnone : NoActiveAskOf ((Stmt.saveOrders [(old, row)]).apply env t) new := by
      intro a ha haask hanew
      have hrows : a ∈ t.orders.rows ∧ a.id ∉ [row].map Order.id := by
        rcases Table.mem_saveAll ha with hnew | hold
        · rw [List.mem_singleton.mp hnew] at haask
          exact absurd haask.1 hrow
        · exact hold
      have heq : a = old := honce a hrows.1 old (Table.mem_of_get hstored) haask hask
        (hanew.trans hsame.symm)
      exact hrows.2 (by simp [heq, hid])
    have hstep : OneAskPerToken
        ((Stmt.insertOrder new).apply env ((Stmt.saveOrders [(old, row)]).apply env t)) :=
      oneAsk_apply (hsave old row hrow) fun _ => hnone
    exact hstep

theorem askInv_commit (hs : AskInv s) : AskInv (s.commit (schema env) i) := by
  refine hs.of_get_eq ((hs.tx i).replay hs.once) (fun j => ?_) fun j hj v hv k hk => ?_
  · by_cases hji : j = i
    · exact .inr (hji ▸ txOf_commit_self)
    · exact .inl (txOf_commit hji)
  · by_cases hji : j = i
    · rw [hji, txOf_commit_self] at hj
      rw [hji, ← hj] at hv
      cases hv
    · refine (schema env).replay_induction
        (P := fun t => t.orders.get k = s.stored.orders.get k) rfl fun w hw t ht => ?_
      have hmem : w.2 ∈ txOf s i := List.mem_map.mpr ⟨w, hw, rfl⟩
      have hunguarded : k ∉ guardedIds t w.2 := by simp [(hs.tx i).unguarded _ hmem t]
      exact (get_orders_apply env (hs.apart j i hji v hv w.2 hmem k hk) hunguarded).trans ht

/-- A statement that adds to the transaction of task `i`, whose rows no other one has locked. -/
theorem askInv_runInTx (hs : AskInv s) (hfree : s.blocked (schema env) (· ≠ i) w = false)
    (hw : w.changes (s.view (schema env) i) = true → ReplacementTx s.stored (txOf s i ++ [w])) :
    AskInv (s.runInTx (schema env) i w) := by
  unfold runInTx
  split_ifs with hch
  · have hown : txOf { s with pending := s.pending ++ [(i, w)] } i = txOf s i ++ [w] := by
      simp [txOf, pendingOf]
    have hother : ∀ j, j ≠ i → txOf { s with pending := s.pending ++ [(i, w)] } j = txOf s j := by
      intro j hji
      simp [txOf, pendingOf, Ne.symm hji]
    have hfar : ∀ j, j ≠ i → ∀ v ∈ txOf s j, ∀ k ∈ savedIds v, k ∉ savedIds w := by
      intro j hji v hv k hk
      exact (not_mem_savedIds_of_free hfree (mem_txOf.mp hv) (by simpa using hji) hk).1
    refine ⟨hs.once, fun j => ?_, fun j k hjk v hv v' hv' => ?_⟩
    · by_cases hji : j = i
      · rw [hji, hown]
        exact hw hch
      · rw [hother j hji]
        exact hs.tx j
    · by_cases hji : j = i
      · have hki : k ≠ i := fun hki => hjk (hji.trans hki.symm)
        rw [hji, hown] at hv
        rw [hother k hki] at hv'
        rcases List.mem_append.mp hv with hv | hv
        · exact hs.apart i k (Ne.symm hki) v hv v' hv'
        · rw [List.mem_singleton.mp hv]
          exact fun l hl hl' => hfar k hki v' hv' l hl' hl
      · rw [hother j hji] at hv
        by_cases hki : k = i
        · rw [hki, hown] at hv'
          rcases List.mem_append.mp hv' with hv' | hv'
          · exact hs.apart j i hji v hv v' hv'
          · rw [List.mem_singleton.mp hv']
            exact hfar j hji v hv
        · rw [hother k hki] at hv'
          exact hs.apart j k hjk v hv v' hv'
  · exact hs

end Session

section Calls
open Session
variable {env : Env} {i : ℕ} {s : Store}

/-- A question, or a statement outside transactions that saves closed orders only. -/
def SavesClosed : BackendCmd → Prop
  | .inl (.auto (.saveOrders rows)) => ∀ p ∈ rows, p.2.status ≠ .active
  | .inl (.auto (.saveToken _)) => False
  | .inl (.auto (.saveCycle _)) => False
  | .inl (.auto _) => True
  | .inl _ => False
  | .inr _ => True

theorem closesOrders_of_savesClosed {q : Stmt} (hq : SavesClosed (.inl (.auto q))) :
    ClosesOrders q := by
  cases q with
  | saveOrders => exact hq
  | _ => trivial

theorem savesClosed_of_quiet : ∀ c, Quiet c → SavesClosed c := by
  intro c hc
  rcases c with (q | _ | _ | _) | q
  · cases q with
    | saveOrders => exact hc.elim
    | saveToken => exact hc.elim
    | saveCycle => exact hc.elim
    | _ => trivial
  all_goals exact hc

theorem savesClosed_mono {α : Type} {p : BackendM α} (hp : p.Issues Quiet) :
    p.Issues SavesClosed := Prog.issues_mono savesClosed_of_quiet hp

theorem savesClosed_rpc (q : Rpc) : (rpc q).Issues SavesClosed := ⟨trivial, fun _ => trivial⟩

theorem saveOrder_savesClosed (loaded : Order) {row : Order} (h : row.status ≠ .active) :
    (saveOrder loaded row).Issues SavesClosed := by
  refine Prog.issues_bind (savesClosed_rpc _) fun at_ => ?_
  have hsave : (db (.saveOrders [(loaded, { row with updatedAt := at_ })])).Issues SavesClosed :=
    ⟨by simpa [SavesClosed] using h, fun _ => trivial⟩
  exact Prog.issues_bind hsave fun _ => Prog.issues_ret _

theorem cancelOrder_savesClosed (orderHash callerAddress : JsStr) :
    (cancelOrder orderHash callerAddress).Issues SavesClosed := by
  refine Prog.issues_bind (savesClosed_mono (findByHash_quiet _)) fun order => ?_
  refine Prog.issues_bind (Prog.issues_throwIf _ _) fun _ => ?_
  refine Prog.issues_bind (Prog.issues_throwIf _ _) fun _ => ?_
  exact saveOrder_savesClosed order (by simp)

theorem status_backfillAskTokenIdFromParameters (o : Order) :
    (backfillAskTokenIdFromParameters o).status = o.status := by
  unfold backfillAskTokenIdFromParameters
  split_ifs <;> rfl

theorem status_markFulfilled (o : Order) (buyerAddress fillTxHash : Option JsStr) :
    (markFulfilled o buyerAddress fillTxHash).status = .fulfilled := by
  unfold markFulfilled
  cases o.side with
  | ask => exact status_backfillAskTokenIdFromParameters _
  | bid => rfl

theorem fulfillOrder_savesClosed (orderHash : JsStr) (buyerAddress : Option JsStr)
    (chainId : Option ℕ) (fillTxHash : Option JsStr) :
    (fulfillOrder env orderHash buyerAddress chainId fillTxHash).Issues SavesClosed := by
  refine Prog.issues_bind (savesClosed_mono (findByHash_quiet _)) fun order => ?_
  refine Prog.issues_bind (Prog.issues_throwIf _ _) fun _ => ?_
  refine Prog.issues_bind (savesClosed_mono (assertOrderSettledForFulfill_quiet _ _ _)) fun _ => ?_
  refine Prog.issues_bind (savesClosed_mono (assertNotHoldBidOnly_quiet _)) fun _ => ?_
  have hsave : (saveOrder order (markFulfilled order buyerAddress fillTxHash)).Issues SavesClosed :=
    saveOrder_savesClosed order (by simp [status_markFulfilled])
  refine Prog.issues_bind hsave fun saved => ?_
  exact Prog.issues_bind (savesClosed_mono (afterFulfilled_quiet _ _ _)) fun _ => Prog.issues_ret _

theorem fulfillMatchedPair_savesClosed (askHash bidHash : JsStr) (chainId : Option ℕ) :
    (fulfillMatchedPair env askHash bidHash chainId).Issues SavesClosed := by
  refine Prog.issues_bind (savesClosed_mono (findByHash_quiet _)) fun ask => ?_
  refine Prog.issues_bind (savesClosed_mono (findByHash_quiet _)) fun bid => ?_
  refine Prog.issues_bind (Prog.issues_throwIf _ _) fun _ => ?_
  refine Prog.issues_bind (Prog.issues_throwIf _ _) fun _ => ?_
  refine Prog.issues_bind (savesClosed_mono (assertOrderSettledForFulfill_quiet _ _ _)) fun _ => ?_
  refine Prog.issues_bind (savesClosed_mono (assertBidSettledForMatchedPair_quiet _ _ _))
    fun _ => ?_
  cases matchedPairError ask bid with
  | some e => exact Prog.issues_ret _
  | none =>
    refine Prog.issues_bind (savesClosed_rpc _) fun at_ => ?_
    have hsave : (db (.saveOrders [(ask, { matchedAsk ask bid with updatedAt := at_ }),
        (bid, { matchedBid ask bid with updatedAt := at_ })])).Issues SavesClosed := by
      refine ⟨?_, fun _ => trivial⟩
      simp [SavesClosed, matchedAsk, matchedBid, status_backfillAskTokenIdFromParameters]
    refine Prog.issues_bind hsave fun _ => ?_
    refine Prog.issues_bind (savesClosed_mono (cancelActiveAsks_quiet _ _ _)) fun _ => ?_
    exact Prog.issues_bind (savesClosed_mono (recordAskFill_quiet _ _ _ _ _)) fun _ =>
      Prog.issues_ret _

theorem createOrder_savesClosed (dto : CreateOrderDto) (chainId : ℕ) :
    (createOrder env dto chainId).Issues SavesClosed := by
  have hsupersede : (cancelActiveAskIfOffererUnowned env dto.tokenContract dto.tokenId
      chainId).Issues SavesClosed := by
    refine Prog.issues_bind (savesClosed_mono (quiet_db _ trivial)) fun found => ?_
    cases found with
    | none => exact Prog.issues_ret _
    | some existing =>
      dsimp only
      generalize (if (normalizeDecimalTokenId dto.tokenId).isEmpty then dto.tokenId
        else normalizeDecimalTokenId dto.tokenId) = tid
      refine Prog.issues_bind (savesClosed_mono (readOnChainRwaOwner_quiet _ tid _)) fun owner => ?_
      split_ifs
      · exact Prog.issues_ret _
      · have hsave : (saveOrder existing (supersede existing owner)).Issues SavesClosed :=
          saveOrder_savesClosed existing (by simp [supersede, Order.mark])
        exact Prog.issues_bind hsave fun saved => savesClosed_mono (recordOwner_quiet _ _ _)
  have hchecks : (assertNewOrder env dto chainId).Issues SavesClosed := by
    unfold assertNewOrder
    cases dto.side with
    | bid => exact savesClosed_mono (assertNewBid_quiet dto chainId)
    | ask =>
      refine Prog.issues_bind (Prog.issues_ret _) fun _ => ?_
      refine Prog.issues_bind (savesClosed_mono (assertAskSettlementPolicy_quiet _ _)) fun _ => ?_
      refine Prog.issues_bind (savesClosed_mono (assertTokenRedeemableForListing_quiet _ _))
        fun _ => ?_
      refine Prog.issues_bind (savesClosed_mono (assertAskOffererOwnsToken_quiet _ _)) fun _ => ?_
      refine Prog.issues_bind hsupersede fun _ => ?_
      refine Prog.issues_bind (savesClosed_mono (quiet_db _ trivial)) fun existing => ?_
      cases existing <;> exact Prog.issues_ret _
  have hpersist : ∀ order, (persistOrderWith db order).Issues SavesClosed := by
    intro order
    have hinsert : (db (.insertOrder order)).Issues SavesClosed := ⟨trivial, fun _ => trivial⟩
    refine Prog.issues_bind hinsert fun saved => ?_
    rcases saved with (_ | _) | _ <;> exact Prog.issues_ret _
  have hshow : ∀ order : Order, (orThrowAnswer (rpc (.listingDisplay order))).Issues SavesClosed :=
    fun order => savesClosed_mono (quiet_orThrowAnswer (quiet_rpc _))
  refine Prog.issues_bind (savesClosed_mono (assertRwaOfChain_quiet _ _)) fun _ => ?_
  refine Prog.issues_bind hchecks fun _ => ?_
  refine Prog.issues_bind (savesClosed_mono (materializeOrderFromDto_quiet _ _)) fun order => ?_
  refine Prog.issues_bind (Prog.issues_throwIf _ _) fun _ => ?_
  refine Prog.issues_bind (hpersist order) fun saved => ?_
  split_ifs
  · refine Prog.issues_bind (savesClosed_rpc _) fun _ => ?_
    exact Prog.issues_bind (hshow saved) fun _ => Prog.issues_ret _
  · exact Prog.issues_bind (hshow saved) fun _ => Prog.issues_ret _

abbrev askContract : Contract Store := sessionContract AskInv

abbrev askWp (env : Env) (i : ℕ) {α : Type} (p : BackendM α)
    (Q : Except HttpError α → Store → Prop) (s : Store) : Prop :=
  wp (backendHandler env) AskChecksHold askContract i p Q s

/-- A step outside transactions keeps the invariant and the transaction of its task. -/
theorem askInv_step {c : BackendCmd} {x : World} {r : BackendRes c} {u : Store}
    (hc : SavesClosed c) (hs : AskInv s) (hok : AskChecksHold i s c)
    (hu : backendHandler env i s x c = some (r, u)) :
    AskInv u ∧ askContract.guar i s u ∧ txOf u i = txOf s i := by
  rcases c with (w | w | _ | _) | q
  · have hexec : s.exec (schema env) i (.auto w) = some (r, u) := hu
    obtain ⟨hfree, -, rfl⟩ := exec_auto_eq_some.mp hexec
    refine ⟨askInv_runAuto hs hfree ?_, guar_exec hexec, ?_⟩
    · cases w with
      | saveOrders rows => exact fun _ => hc
      | insertOrder row => exact hok
      | _ => exact fun _ => trivial
    · rw [txOf, pendingOf, runAuto_pending]
      rfl
  · exact hc.elim
  · exact hc.elim
  · exact hc.elim
  · obtain ⟨-, rfl⟩ := Prod.mk.inj (Option.some.inj hu)
    exact ⟨hs, ⟨fun _ _ => rfl, List.prefix_rfl⟩, rfl⟩

/-- Outside transactions a program leaves the transaction of its task as it is. -/
theorem askWp_savesClosed {α : Type} {p : BackendM α} (hp : p.Issues SavesClosed)
    {ws : List Stmt} (hs : txOf s i = ws) :
    askWp env i p (fun r t => txOf t i = ws ∧ p.Yields (fun _ _ => True) r) s := by
  have hstable : askContract.Stable i (fun t => txOf t i = ws) := by
    intro t u htu _ ht
    rw [txOf, htu.1, ← ht, txOf]
  refine wp_yields (wp_of_issues hstable ?_ hp hs)
  intro c hc t x r u ht htx hok hu
  obtain ⟨hinv, hguar, hsame⟩ := askInv_step hc ht hok hu
  exact ⟨hinv, hguar, hsame.trans htx⟩

theorem stable_txOf (ws : List Stmt) : askContract.Stable i (fun t => txOf t i = ws) := by
  intro t u htu _ ht
  rw [txOf, htu.1, ← ht, txOf]

/-- The others leave the transaction of a task alone. -/
theorem askWp_bind_outside {α β : Type} {p : BackendM α} {f : α → BackendM β}
    {Q : Except HttpError β → Store → Prop} {ws : List Stmt} (hp : p.Issues SavesClosed)
    (hs : txOf s i = ws) (herr : ∀ e t, txOf t i = ws → Q (.error e) t)
    (hf : ∀ a t, txOf t i = ws → p.Yields (fun _ _ => True) (.ok a) → askWp env i (f a) Q t) :
    askWp env i (p >>= f) Q s := by
  refine wp_bind (wp_mono (fun r t ht => ?_) (askWp_savesClosed hp hs))
  cases r with
  | ok a => exact hf a t ht.1 ht.2
  | error e => exact herr e t ht.1

/-- A statement of a transaction that is one of the steps of a replacement. -/
theorem askWp_tx {q : Stmt} {ws : List Stmt} (hs : txOf s i = ws)
    (hstep : ∀ u, AskInv u → txOf u i = ws → AskChecksHold i u (.inl (.inTx q)) →
      q.changes (u.view (schema env) i) = true → ReplacementTx u.stored (ws ++ [q])) :
    askWp env i (tx q) (fun r t => ∃ v : Tables, r = .ok (q.answer v) ∧
      txOf t i = if q.changes v then ws ++ [q] else ws) s := by
  intro t hst ht hok x r u hu
  have hexec : t.exec (schema env) i (.inTx q) = some (r, u) := hu
  obtain ⟨hfree, rfl, rfl⟩ := exec_inTx_eq_some.mp hexec
  have hws : txOf t i = ws := stable_txOf ws s t hst ht hs
  refine ⟨askInv_runInTx ht hfree fun hch => ?_, guar_exec hexec, _, rfl, ?_⟩
  · rw [hws]
    exact hstep t ht hws hok hch
  · unfold runInTx
    by_cases hch : q.changes (t.view (schema env) i) = true
    · have hrun : (schema env).changes (t.view (schema env) i) q = true := hch
      rw [if_pos hrun, if_pos hch, ← hws]
      simp [txOf, pendingOf]
    · have hrun : ¬ (schema env).changes (t.view (schema env) i) q = true := hch
      rw [if_neg hrun, if_neg hch, hws]

theorem askWp_transaction {α : Type} {body : BackendM α} (h : askWp env i body anyEnd s) :
    askWp env i (transaction body) anyEnd s := by
  refine wp_transaction (wp_mono (fun r t _ u _ hu => ?_) h)
  cases r with
  | ok a => exact ⟨askInv_commit hu, trivial⟩
  | error e => exact ⟨askInv_rollback hu, trivial⟩

/-- The old listing is saved as closed. -/
theorem cancelReplaced_closes {old : Order} (hask : IsActiveAsk old) (hs : txOf s i = []) :
    askWp env i (cancelReplaced old) (fun r t => r = .ok () →
      ∃ row, txOf t i = [.saveOrders [(old, row)]]) s := by
  refine askWp_bind_outside (savesClosed_rpc .now) hs (fun _ _ _ h => by cases h) fun at_ t ht _ => ?_
  refine wp_mono (fun r u hu _ => ?_) (askWp_tx ht fun u _ _ hok _ => ?_)
  · obtain ⟨v, -, hsaved⟩ := hu
    exact ⟨_, hsaved⟩
  · have hstored := hok _ (.head _)
    exact .closed old _ hstored hask rfl (by simp)

theorem persistOrder_inserts {new : Order} {ws : List Stmt} (hs : txOf s i = ws)
    (hnew : ∀ u, AskInv u → txOf u i = ws → ReplacementTx u.stored (ws ++ [.insertOrder new])) :
    askWp env i (persistOrder new) anyEnd s := by
  refine wp_bind (wp_mono (fun r u hu => ?_) (askWp_tx hs fun u hu hws _ _ => hnew u hu hws))
  obtain ⟨v, rfl, -⟩ := hu
  dsimp only [Stmt.answer]
  unfold Stmt.orUniqueViolation
  split_ifs <;> trivial

/-- The new listing is of the token of the old one. -/
theorem insertReplacementAsk_inserts {old row : Order} {dto : CreateOrderDto} {chainId : ℕ}
    (hcontract : lower old.tokenContract = lower dto.tokenContract)
    (htoken : normalizeDecimalTokenId old.tokenId = normalizeDecimalTokenId dto.tokenId)
    (hs : txOf s i = [.saveOrders [(old, row)]]) :
    askWp env i (insertReplacementAsk old dto chainId) anyEnd s := by
  refine askWp_bind_outside (savesClosed_mono (materializeOrderFromDto_quiet _ _)) hs
    (fun _ _ _ => trivial) fun order t ht hyields => ?_
  obtain ⟨hrequested, -⟩ := row_of_materialize hyields
  dsimp only
  generalize (if blank order.collectionKey && !blank old.collectionKey then
    old.collectionKey.map fun k => lower (trim k) else order.collectionKey) = key
  refine askWp_bind_outside (Prog.issues_throwIf _ _) ht (fun _ _ _ => trivial) fun _ t ht _ => ?_
  have hsame : SameToken old { order with collectionKey := key } := by
    constructor
    · rw [hcontract, hrequested.tokenContract]
    · rw [htoken, hrequested.tokenId, normalizeDecimalTokenId_idem]
  refine wp_bind (wp_mono (fun r u _ => ?_) (persistOrder_inserts ht fun u hu hws => ?_))
  · cases r with
    | error e => trivial
    | ok saved =>
      exact askWp_bind_outside (savesClosed_rpc _) rfl (fun _ _ _ => trivial) fun _ _ _ _ => trivial
  · have hclosed := hws ▸ hu.tx i
    cases hclosed with
    | closed old row hstored hask hid hrow => exact .replaced old row _ hstored hask hid hrow hsame

theorem replaceSellerListing_keeps (oldOrderHash callerAddress : JsStr) (dto : CreateOrderDto)
    (chainId : ℕ) (hs : txOf s i = []) :
    askWp env i (replaceSellerListing env oldOrderHash callerAddress dto chainId) anyEnd s := by
  have hcheck : ∀ {α β : Type} {p : BackendM α} {f : α → BackendM β}, p.Issues Quiet →
      (∀ a t, txOf t i = [] → askWp env i (f a) anyEnd t) → ∀ t, txOf t i = [] →
      askWp env i (p >>= f) anyEnd t := fun hp hf t ht =>
    askWp_bind_outside (savesClosed_mono hp) ht (fun _ _ _ => trivial) fun a t ht _ => hf a t ht
  refine hcheck (Prog.issues_throwIf _ _) (fun _ => ?_) s hs
  refine hcheck (assertRwaOfChain_quiet _ _) fun _ => ?_
  refine hcheck (Prog.issues_ret _) fun _ => ?_
  refine hcheck (assertAskSettlementPolicy_quiet _ _) fun _ => ?_
  refine hcheck (assertAskOffererOwnsToken_quiet _ _) fun _ t ht => ?_
  refine askWp_transaction (wp_bind (wp_mono (Q := fun _ u => txOf u i = []) (fun r u hu => ?_) ?_))
  · cases r with
    | error e => trivial
    | ok old =>
      refine wp_bind (wp_throwIf (fun _ => trivial) fun hside => ?_)
      refine wp_bind (wp_throwIf (fun _ => trivial) fun hactive => ?_)
      refine wp_bind (wp_throwIf (fun _ => trivial) fun _ => ?_)
      refine wp_bind (wp_throwIf (fun _ => trivial) fun htoken => ?_)
      refine wp_bind (wp_throwIf (fun _ => trivial) fun hcontract => ?_)
      have hask : IsActiveAsk old := ⟨by simpa using hactive, by simpa using hside⟩
      refine wp_bind (wp_mono (fun r v hv => ?_) (cancelReplaced_closes hask hu))
      cases r with
      | error e => trivial
      | ok a =>
        obtain ⟨row, hrow⟩ := hv rfl
        exact insertReplacementAsk_inserts (by simpa using hcontract) (by simpa using htoken) hrow
  · refine wp_bind (wp_mono (fun r u hu => ?_) (askWp_tx ht fun _ _ _ _ hch => by cases hch))
    obtain ⟨v, rfl, hnone⟩ := hu
    exact wp_orThrow (fun _ => hnone) fun _ _ => hnone

end Calls

inductive ListingCall where
  | createOrder (dto : CreateOrderDto) (chainId : ℕ)
  | replaceSellerListing (oldOrderHash callerAddress : JsStr) (dto : CreateOrderDto) (chainId : ℕ)
  | cancelOrder (orderHash callerAddress : JsStr)
  | fulfillOrder (orderHash : JsStr) (buyerAddress : Option JsStr) (chainId : Option ℕ)
      (fillTxHash : Option JsStr)
  | fulfillMatchedPair (askHash bidHash : JsStr) (chainId : Option ℕ)

def ListingCall.task (env : Env) : ListingCall → BackendM Unit
  | createOrder dto chainId => forget (Orders.createOrder env dto chainId)
  | replaceSellerListing oldOrderHash callerAddress dto chainId =>
    forget (Orders.replaceSellerListing env oldOrderHash callerAddress dto chainId)
  | cancelOrder orderHash callerAddress => forget (Orders.cancelOrder orderHash callerAddress)
  | fulfillOrder orderHash buyerAddress chainId fillTxHash =>
    forget (Orders.fulfillOrder env orderHash buyerAddress chainId fillTxHash)
  | fulfillMatchedPair askHash bidHash chainId =>
    forget (Orders.fulfillMatchedPair env askHash bidHash chainId)

/-- A call that has not started has no transaction. -/
theorem listingTask_keeps {env : Env} (c : ListingCall) (i : ℕ) (s : Store) (hs : txOf s i = []) :
    askWp env i (c.task env) anyEnd s := by
  have hclosed : ∀ {α : Type} {p : BackendM α}, p.Issues SavesClosed →
      askWp env i (forget p) anyEnd s := fun hp =>
    askWp_bind_outside hp hs (fun _ _ _ => trivial) fun _ _ _ _ => trivial
  cases c with
  | createOrder dto chainId => exact hclosed (createOrder_savesClosed dto chainId)
  | replaceSellerListing oldOrderHash callerAddress dto chainId =>
    refine wp_bind (wp_mono (fun r t _ => ?_)
      (replaceSellerListing_keeps oldOrderHash callerAddress dto chainId hs))
    cases r <;> trivial
  | cancelOrder orderHash callerAddress =>
    exact hclosed (cancelOrder_savesClosed orderHash callerAddress)
  | fulfillOrder orderHash buyerAddress chainId fillTxHash =>
    exact hclosed (fulfillOrder_savesClosed orderHash buyerAddress chainId fillTxHash)
  | fulfillMatchedPair askHash bidHash chainId =>
    exact hclosed (fulfillMatchedPair_savesClosed askHash bidHash chainId)

abbrev ListingReach (env : Env) (Ok : Allowed Store BackendCmd) (p q : OrderPool) : Prop :=
  Pool.Reach (backendHandler env) (ListingCall.task env) Ok p q

theorem askInv_opened {t : Tables} (ht : OneAskPerToken t) : AskInv (Session.opened t) where
  once := ht
  tx _ := .opened
  apart _ _ _ _ hv := by cases hv

/-- In the runs in which every new ask finds no active ask of its token, and every replacement saves
over the row that it loaded, a token has at most one active ask. -/
theorem one_active_ask_per_token (env : Env) (t : Tables) (ht : OneAskPerToken t) (q : OrderPool)
    (hq : ListingReach env AskChecksHold (orderStart t) q) : OneAskPerToken q.shared.stored := by
  have hfresh : ∀ i s u, askContract.rely i s u → txOf s i = [] → txOf u i = [] := by
    intro i s u hsu hs
    rw [txOf, hsu.1, ← hs, txOf]
  obtain ⟨hsafe, -⟩ := Pool.safe_reach_of_fresh (F := fun i s => txOf s i = []) stablePost_anyEnd
    hfresh (fun c i s _ hs => listingTask_keeps c i s hs) hq (Pool.safe_nil (askInv_opened ht))
    fun _ _ => rfl
  exact hsafe.inv.once

section Runs

/-- The card contract in two spellings. -/
def letteredContract : JsStr := js "0x00000000000000000000000000000000000000cc"

def checksumContract : JsStr := js "0x00000000000000000000000000000000000000CC"

def letteredEnv : Env where
  rwaAddresses := [(1, letteredContract)]
  usdcAddresses := [(1, usdcContract)]

def letteredListing (contract : JsStr) : CreateOrderDto where
  side := .ask
  tokenContract := contract
  tokenId := js "7"
  offerer := cardOwner
  considerationAmount := js "100"
  parameters := {
    offer := [{ itemType := 2, token := contract, identifierOrCriteria := js "7",
                startAmount := js "1", endAmount := js "1" }]
    consideration := [{ itemType := 1, token := usdcContract, startAmount := js "100",
                        endAmount := js "100", recipient := cardOwner }]
    startTime := 1000
    endTime := 1050 }

/-- Nothing is listed, and card 7 is registered. -/
def letteredTables : Tables :=
  { marketTables with
    tokens := [{ tokenContract := letteredContract, tokenId := js "7",
                 settlementPolicy := some .standard }] }

/-- The answers to the request that makes row `id`. -/
def listingWorld (id : ℕ) : World
  | .nextOrderId => id
  | .getOrderHash .. => .ok (ofNat id)
  | .ensureCollectionForListing .. => some (js "cards")
  | .ownerOf .. => .ok cardOwner
  | q => idleWorld q

def listingRun (i : ℕ) (c : ListingCall) (n : ℕ) : List (Pool.Event ListingCall World) :=
  .spawn c :: List.replicate n (.run i (listingWorld i))

def activeAsks (q : OrderPool) : List (ℕ × JsStr) :=
  (q.shared.stored.orders.find fun o => decide (IsActiveAsk o)).map fun o => (o.id, o.tokenContract)

/-- Card 7 is listed, and its listing is replaced by one in the other spelling. -/
theorem one_active_ask_per_token_replaced :
    ∃ q, ListingReach letteredEnv AskChecksHold (orderStart letteredTables) q ∧
      activeAsks q = [(1, checksumContract)] ∧ OneAskPerToken q.shared.stored := by
  have hrun : ∃ q, ListingReach letteredEnv AskChecksHold (orderStart letteredTables) q ∧
      activeAsks q = [(1, checksumContract)] :=
    Pool.exists_reach_of_runSchedule
      (listingRun 0 (.createOrder (letteredListing letteredContract) 1) 12 ++ listingRun 1
        (.replaceSellerListing (js "0") cardOwner (letteredListing checksumContract) 1) 12)
      activeAsks (by decide)
  obtain ⟨q, hq, hasks⟩ := hrun
  have hnone : OneAskPerToken letteredTables := fun a ha => by cases ha
  exact ⟨q, hq, hasks, one_active_ask_per_token letteredEnv letteredTables hnone q hq⟩

/-- Card 7 is listed, and then listed again in the other spelling. -/
theorem two_active_asks_of_one_token :
    OneAskPerToken letteredTables ∧
      ∃ q, ListingReach letteredEnv anyStep (orderStart letteredTables) q ∧
        ¬ OneAskPerToken q.shared.stored := by
  have hrun : ∃ q, ListingReach letteredEnv anyStep (orderStart letteredTables) q ∧
      decide (OneAskPerToken q.shared.stored) = false :=
    Pool.exists_reach_of_runSchedule
      (listingRun 0 (.createOrder (letteredListing letteredContract) 1) 12 ++
        listingRun 1 (.createOrder (letteredListing checksumContract) 1) 12)
      (fun q : OrderPool => decide (OneAskPerToken q.shared.stored)) (by decide)
  obtain ⟨q, hq, htwo⟩ := hrun
  exact ⟨fun a ha => (by cases ha), q, hq, of_decide_eq_false htwo⟩

end Runs

end Orders
