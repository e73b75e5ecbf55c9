import Tokenable.Async.Obligation
import Tokenable.Orders.OneAsk
import Tokenable.Redeem.ClaimOnce

/-!
# No listing of a card that is being redeemed

A redeem request marks the cycles of its cards in a transaction, and cancels the active orders of
the cards after it. Until then it owes their cancellation. `RedeemChecksHold` says that a listing
does not become active while its card is being redeemed, and that a request has locked the token of
every listing whose card it marks: then no listing of such a card is left when all calls have ended.
-/

namespace Redeem
open Js Platform Async Db Vault Orders Backend

def InRedemption (t : Tables) (token : RwaToken) : Bool :=
  (token.vaultCycleId.bind t.cycles.get).any fun c => c.status = .redemptionRequested

/-- The contracts are equal ignoring case, and the decimal token ids as numbers. -/
def IsTokenOf (token : RwaToken) (o : Order) : Prop :=
  lower token.tokenContract = lower o.tokenContract ∧
    normalizeDecimalTokenId token.tokenId = normalizeDecimalTokenId o.tokenId

def Redeeming (t : Tables) (o : Order) : Prop :=
  ∃ token ∈ t.tokens, IsTokenOf token o ∧ InRedemption t token = true

def NoRedeemingAsk (t : Tables) : Prop :=
  ∀ o ∈ t.orders.rows, IsActiveAsk o → ¬ Redeeming t o

def LocksTokenOf (o : Order) : Stmt → Prop
  | .lockToken contract tokenId =>
    lower o.tokenContract = lower (trim contract) ∧ o.tokenId = tokenId
  | _ => False

def Locked (ws : List (ℕ × Stmt)) (o : Order) : Prop := ∃ w ∈ ws, LocksTokenOf o w.2

/-- A listing becomes active only while its card is not being redeemed, and a transaction that marks
the card of an active listing has locked the token of the listing. -/
def RedeemChecksHold (env : Env) : Allowed Backend.Store BackendCmd := fun i s c =>
  match c with
  | .inl (.auto (.insertOrder row)) =>
    (Stmt.insertOrder row).changes s.stored = true → row.side = .ask → ¬ Redeeming s.stored row
  | .inl .commit => ∀ o ∈ (s.view (schema env) i).orders.rows, IsActiveAsk o →
      Redeeming (s.view (schema env) i) o →
        o ∈ s.stored.orders.rows ∧ (Redeeming s.stored o ∨ Locked (s.pendingOf i) o)
  | _ => True

instance (token : RwaToken) (o : Order) : Decidable (IsTokenOf token o) :=
  inferInstanceAs (Decidable (lower token.tokenContract = lower o.tokenContract ∧
    normalizeDecimalTokenId token.tokenId = normalizeDecimalTokenId o.tokenId))

instance (t : Tables) (o : Order) : Decidable (Redeeming t o) :=
  inferInstanceAs (Decidable (∃ token ∈ t.tokens, IsTokenOf token o ∧ InRedemption t token = true))

instance (t : Tables) : Decidable (NoRedeemingAsk t) :=
  inferInstanceAs (Decidable (∀ o ∈ t.orders.rows, IsActiveAsk o → ¬ Redeeming t o))

def insertedOrder : Stmt → Option Order
  | .insertOrder row => some row
  | _ => none

def lockedToken : Stmt → Option (JsStr × JsStr)
  | .lockToken contract tokenId => some (contract, tokenId)
  | _ => none

instance (o : Order) (q : Stmt) : Decidable (LocksTokenOf o q) :=
  decidable_of_iff (∃ key ∈ lockedToken q, lower o.tokenContract = lower (trim key.1) ∧
    o.tokenId = key.2) (by cases q <;> simp [lockedToken, LocksTokenOf])

instance (ws : List (ℕ × Stmt)) (o : Order) : Decidable (Locked ws o) :=
  inferInstanceAs (Decidable (∃ w ∈ ws, LocksTokenOf o w.2))

instance (env : Env) (i : ℕ) (s : Backend.Store) (c : BackendCmd) :
    Decidable (RedeemChecksHold env i s c) := by
  rcases c with (q | q | _ | _) | q
  · exact decidable_of_iff (∀ row ∈ insertedOrder q, (Stmt.insertOrder row).changes s.stored = true →
      row.side = .ask → ¬ Redeeming s.stored row)
      (by cases q <;> simp [insertedOrder, RedeemChecksHold])
  · exact .isTrue trivial
  · exact inferInstanceAs (Decidable (∀ o ∈ (s.view (schema env) i).orders.rows, IsActiveAsk o →
      Redeeming (s.view (schema env) i) o →
        o ∈ s.stored.orders.rows ∧ (Redeeming s.stored o ∨ Locked (s.pendingOf i) o)))
  all_goals exact .isTrue trivial

section Statements
variable {env : Env} {t : Tables} {q : Stmt} {o : Order}

def KeepsLinks (l l' : List RwaToken) : Prop :=
  ∀ token' ∈ l', token'.vaultCycleId ≠ none →
    ∃ token ∈ l, token.key = token'.key ∧ token.vaultCycleId = token'.vaultCycleId

theorem KeepsLinks.refl (l : List RwaToken) : KeepsLinks l l :=
  fun token htoken _ => ⟨token, htoken, rfl, rfl⟩

theorem keepsLinks_map {l : List RwaToken} {f : RwaToken → RwaToken}
    (hf : ∀ token, (f token).key = token.key ∧ (f token).vaultCycleId = token.vaultCycleId) :
    KeepsLinks l (l.map f) := by
  intro token' htoken' _
  obtain ⟨token, htoken, rfl⟩ := List.mem_map.mp htoken'
  exact ⟨token, htoken, (hf token).1.symm, (hf token).2.symm⟩

/-- A ledger that was left alone or whose row was given its missing policy. -/
theorem keepsLinks_policy {db db' : Settlement.Ledger}
    (h : db' = db ∨ ∃ token, db' = Settlement.ensureSettlementPolicy db token .selfVaultHold) :
    KeepsLinks db.tokens db'.tokens := by
  rcases h with rfl | ⟨token, rfl⟩
  · exact KeepsLinks.refl _
  · refine keepsLinks_map fun token => ?_
    split_ifs <;> exact ⟨rfl, rfl⟩

theorem keepsLinks_maybeCreateSelfVaultSettlement (env : Env) (ask : Order) (fill : Settlement.Fill)
    (db : Settlement.Ledger) : KeepsLinks db.tokens
      (Settlement.maybeCreateSelfVaultSettlement env ask fill db).tokens := by
  have hpolicy : KeepsLinks db.tokens (Settlement.livePolicy ask db).2.tokens :=
    keepsLinks_policy (Settlement.livePolicy_ledger ask db)
  have hcreate : ∀ p db', (Settlement.createFromFulfilledAsk env p db').2.tokens = db'.tokens := by
    intro p db'
    cases hfound : db'.settlementOf (trim p.ask.orderHash) with
    | some existing =>
      simp only [Settlement.createFromFulfilledAsk, hfound]
      split_ifs <;> rfl
    | none =>
      simp only [Settlement.createFromFulfilledAsk, hfound]
      split_ifs <;> rfl
  unfold Settlement.maybeCreateSelfVaultSettlement
  revert hpolicy
  rcases Settlement.livePolicy ask db with ⟨policy, db'⟩
  intro hpolicy
  dsimp only
  generalize (if policy ≠ some .selfVaultHold ∧ Settlement.isFullPlatformTakeAsk env ask then
    some .selfVaultHold else policy) = policy'
  split_ifs
  · exact hpolicy
  · exact hpolicy
  · rw [hcreate]
    exact hpolicy

/-- A statement outside transactions links no token. -/
theorem keepsLinks_apply (hq : SavesClosed (.inl (.auto q))) :
    KeepsLinks t.tokens (q.apply env t).tokens := by
  cases q with
  | saveToken => exact hq.elim
  | getSettlementPolicy => exact keepsLinks_policy (Settlement.getSettlementPolicy_ledger t.ledger _ _)
  | maybeCreateSelfVaultSettlement => exact keepsLinks_maybeCreateSelfVaultSettlement env _ _ _
  | recordOwner contract tokenId owner =>
    intro token' htoken' hlinked
    rcases Table.mem_upsertRows htoken' with hold | rfl | ⟨old, hold, -, rfl⟩
    · exact ⟨token', hold, rfl, rfl⟩
    · exact absurd rfl hlinked
    · exact ⟨old, hold, rfl, rfl⟩
  | ensureSettlementPolicy =>
    refine keepsLinks_map fun token => ?_
    split_ifs <;> exact ⟨rfl, rfl⟩
  | _ => exact KeepsLinks.refl _

theorem cycles_apply (hq : SavesClosed (.inl (.auto q))) : (q.apply env t).cycles = t.cycles := by
  cases q with
  | saveCycle => exact hq.elim
  | _ => rfl

theorem redeeming_apply (hq : SavesClosed (.inl (.auto q))) (h : Redeeming (q.apply env t) o) :
    Redeeming t o := by
  obtain ⟨token', htoken', hof, hin⟩ := h
  have hlinked : token'.vaultCycleId ≠ none := by
    intro hnone
    simp [InRedemption, hnone] at hin
  obtain ⟨token, htoken, hkey, hcycle⟩ := keepsLinks_apply hq token' htoken' hlinked
  obtain ⟨hcontract, htokenId⟩ := Prod.mk.inj hkey
  refine ⟨token, htoken, ⟨?_, ?_⟩, ?_⟩
  · rw [hcontract]
    exact hof.1
  · rw [htokenId]
    exact hof.2
  · rw [InRedemption, cycles_apply hq] at hin
    rw [InRedemption, hcycle]
    exact hin

end Statements

section Steps
open Session
variable {env : Env} {i : ℕ} {s u : Backend.Store} {o : Order}

def FindsOrder (o : Order) (found : List Order) : Prop := o ∈ found

/-- The cancellation of an active listing falls due when the transaction that has locked its token
commits. -/
def unlisting : Duties Order BackendCmd BackendRes where
  opens c o :=
    match c with
    | .inl (.inTx q) => LocksTokenOf o q
    | _ => False
  seals c := c = .inl .commit
  drops c := c = .inl .rollback
  discharges o c :=
    match c with
    | .inl (.auto (.saveOrders rows)) => o.id ∈ savedIds (.saveOrders rows)
    | _ => False
  answers o c r :=
    match c, r with
    | .inl (.auto (.activeOrdersOfTokens contract tokenIds)), found =>
      lower o.tokenContract = contract → o.tokenId ∈ tokenIds → FindsOrder o found
    | _, _ => True

def RedeemingAsk (s : Backend.Store) (o : Order) : Prop :=
  o ∈ s.stored.orders.rows ∧ IsActiveAsk o ∧ Redeeming s.stored o

/-- Outside transactions closed orders are saved, and neither a token nor a cycle is. -/
def ClosesListings : BackendCmd → Prop
  | .inl (.auto q) => SavesClosed (.inl (.auto q))
  | _ => True

abbrev Accounted (i : ℕ) (s : Backend.Store) (c : BackendCmd) (r : BackendRes c)
    (u : Backend.Store) : Prop :=
  Pool.Accounts unlisting (fun s i o => Locked (s.pendingOf i) o) RedeemingAsk i s c r u

theorem locked_nil : ¬ Locked [] o := fun ⟨_, hw, _⟩ => by cases hw

/-- A statement outside transactions makes no listing of a card in redemption active; the ones that it
saves it closes. -/
theorem redeemingAsk_auto {q : Stmt} (hq : SavesClosed (.inl (.auto q)))
    (hok : RedeemChecksHold env i s (.inl (.auto q)))
    (h : RedeemingAsk (s.runAuto (schema env) i q) o) :
    RedeemingAsk s o ∧ ¬ unlisting.discharges o (.inl (.auto q)) := by
  obtain ⟨ho, hask, hredeeming⟩ := h
  by_cases hch : q.changes s.stored = true
  · have hrun : (s.runAuto (schema env) i q).stored = q.apply env s.stored := by
      unfold runAuto
      exact congrArg Session.stored (if_pos hch)
    rw [hrun] at ho hredeeming
    have hbefore : Redeeming s.stored o := redeeming_apply hq hredeeming
    rcases mem_of_active_apply (closesOrders_of_savesClosed hq) ho hask.1 with ⟨hold, hunsaved⟩ | rfl
    · refine ⟨⟨hold, hask, hbefore⟩, fun hsaved => ?_⟩
      cases q with
      | saveOrders rows => exact hunsaved hsaved
      | _ => exact hsaved
    · exact absurd hbefore (hok hch hask.2)
  · have hrun : s.runAuto (schema env) i q = s := if_neg hch
    rw [hrun] at ho hredeeming
    refine ⟨⟨ho, hask, hredeeming⟩, fun hsaved => ?_⟩
    cases q with
    | saveOrders rows => exact hch rfl
    | _ => exact hsaved

theorem accounted_auto {q : Stmt} {r : q.Res} (hq : SavesClosed (.inl (.auto q)))
    (hok : RedeemChecksHold env i s (.inl (.auto q)))
    (h : s.exec (schema env) i (.auto q) = some (r, u)) : Accounted i s (.inl (.auto q)) r u := by
  obtain ⟨-, rfl, rfl⟩ := exec_auto_eq_some.mp h
  have hpending : ∀ j, (s.runAuto (schema env) i q).pendingOf j = s.pendingOf j := by
    intro j
    rw [pendingOf, runAuto_pending, pendingOf]
  refine ⟨fun j _ o ho => hpending j ▸ ho, fun o ho => .inr ⟨hpending i ▸ ho, ?_, ?_⟩,
    fun o ho => .inl ?_⟩
  · exact fun hc => by cases hc
  · exact fun hc => by cases hc
  · obtain ⟨hbefore, hnot⟩ := redeemingAsk_auto hq hok ho
    refine ⟨hbefore, hnot, ?_⟩
    cases q with
    | activeOrdersOfTokens contract tokenIds =>
      intro hcontract htokenId
      have hselected : (lower o.tokenContract = contract && o.tokenId ∈ tokenIds &&
          o.status = .active) = true := by
        simp [hcontract, htokenId, hbefore.2.1.1]
      exact Table.mem_find.mpr ⟨hbefore.1, hselected⟩
    | _ => trivial

theorem accounted_inTx {q : Stmt} {r : q.Res} (h : s.exec (schema env) i (.inTx q) = some (r, u)) :
    Accounted i s (.inl (.inTx q)) r u := by
  have hother := fun j (hj : j ≠ i) => pendingOf_exec h hj
  obtain ⟨-, -, rfl⟩ := exec_inTx_eq_some.mp h
  have hstored : (s.runInTx (schema env) i q).stored = s.stored := by
    unfold runInTx
    split_ifs <;> rfl
  refine ⟨fun j hj o ho => hother j hj ▸ ho, fun o ho => ?_, fun o ho => .inl ⟨?_, id, trivial⟩⟩
  · obtain ⟨w, hw, hlocks⟩ := ho
    obtain ⟨hmem, rfl⟩ := mem_pendingOf.mp hw
    unfold runInTx at hmem
    split_ifs at hmem
    · rcases List.mem_append.mp hmem with hold | hnew
      · exact .inr ⟨⟨w, mem_pendingOf.mpr ⟨hold, rfl⟩, hlocks⟩, fun hc => (by cases hc),
          fun hc => (by cases hc)⟩
      · rw [List.mem_singleton.mp hnew] at hlocks
        exact .inl hlocks
    · exact .inr ⟨⟨w, mem_pendingOf.mpr ⟨hmem, rfl⟩, hlocks⟩, fun hc => (by cases hc),
        fun hc => (by cases hc)⟩
  · unfold RedeemingAsk at ho ⊢
    rwa [hstored] at ho

theorem accounted_end {c : SqlCmd Stmt} {r : SqlRes Stmt.Res c} (hc : c = .commit ∨ c = .rollback)
    (hok : RedeemChecksHold env i s (.inl c)) (h : s.exec (schema env) i c = some (r, u)) :
    Accounted i s (.inl c) r u := by
  have hother := fun j (hj : j ≠ i) => pendingOf_exec h hj
  have hnone : u.pendingOf i = [] := by
    rcases hc with rfl | rfl <;> obtain ⟨-, rfl⟩ := Prod.mk.inj (Option.some.inj h) <;>
      simp [pendingOf, commit, rollback, List.filter_filter]
  refine ⟨fun j hj o ho => hother j hj ▸ ho, fun o ho => absurd (hnone ▸ ho) locked_nil,
    fun o ho => ?_⟩
  rcases hc with rfl | rfl
  · obtain ⟨-, rfl⟩ := Prod.mk.inj (Option.some.inj h)
    obtain ⟨hstored, hcovered⟩ := hok o ho.1 ho.2.1 ho.2.2
    rcases hcovered with hbefore | hlocked
    · exact .inl ⟨⟨hstored, ho.2.1, hbefore⟩, id, trivial⟩
    · exact .inr ⟨hlocked, rfl⟩
  · obtain ⟨-, rfl⟩ := Prod.mk.inj (Option.some.inj h)
    exact .inl ⟨ho, id, trivial⟩

theorem accounted_step {c : BackendCmd} {x : World} {r : BackendRes c} (hc : ClosesListings c)
    (hok : RedeemChecksHold env i s c) (h : backendHandler env i s x c = some (r, u)) :
    Accounted i s c r u := by
  rcases c with (q | q | _ | _) | q
  · exact accounted_auto hc hok h
  · exact accounted_inTx h
  · exact accounted_end (.inl rfl) hok h
  · exact accounted_end (.inr rfl) hok h
  · obtain ⟨-, rfl⟩ := Prod.mk.inj (Option.some.inj h)
    refine ⟨fun _ _ _ ho => ho, fun o ho => .inr ⟨ho, fun hc => ?_, fun hc => ?_⟩,
      fun o ho => .inl ⟨ho, id, trivial⟩⟩
    · cases hc
    · cases hc

end Steps

section Calls
variable {env : Env} {contract : JsStr} {tokenIds : List ℕ} {o : Order} {α β : Type}

/-- The command closes listings outside transactions, and locks no token. -/
def LocksNothing (c : BackendCmd) : Prop := ClosesListings c ∧ ∀ o, ¬ unlisting.opens c o

def OrderOf (contract : JsStr) (tokenIds : List ℕ) (o : Order) : Prop :=
  lower o.tokenContract = lower (trim contract) ∧ o.tokenId ∈ tokenIds.map ofNat

theorem locksNothing_of_savesClosed {p : BackendM α} (hp : p.Issues SavesClosed) :
    p.Issues LocksNothing := by
  refine Prog.issues_mono (fun c hc => ?_) hp
  rcases c with (q | _ | _ | _) | q
  · exact ⟨hc, fun _ => id⟩
  · exact hc.elim
  · exact hc.elim
  · exact hc.elim
  · exact ⟨trivial, fun _ => id⟩

theorem locksNothing_of_around {p : BackendM α} (hp : p.Issues Around) : p.Issues LocksNothing := by
  refine locksNothing_of_savesClosed (Prog.issues_mono (fun c hc => ?_) hp)
  rcases c with (q | _ | _ | _) | q
  · cases q with
    | saveOrders => exact hc
    | saveToken => exact hc.elim
    | saveCycle => exact hc.elim
    | _ => trivial
  · exact hc.elim
  · exact hc.elim
  · exact hc.elim
  · trivial

theorem locksNothing_tx {q : Stmt} (hq : ∀ o, ¬ LocksTokenOf o q) : (tx q).Issues LocksNothing :=
  ⟨⟨trivial, hq⟩, fun _ => trivial⟩

theorem replaceSellerListing_locksNothing (oldOrderHash callerAddress : JsStr)
    (dto : CreateOrderDto) (chainId : ℕ) :
    (replaceSellerListing env oldOrderHash callerAddress dto chainId).Issues LocksNothing := by
  have hquiet : ∀ {α : Type} {p : BackendM α}, p.Issues Orders.Quiet → p.Issues LocksNothing :=
    fun hp => locksNothing_of_savesClosed (savesClosed_mono hp)
  refine Prog.issues_bind (Prog.issues_throwIf _ _) fun _ => ?_
  refine Prog.issues_bind (hquiet (assertRwaOfChain_quiet _ _)) fun _ => ?_
  refine Prog.issues_bind (Prog.issues_ret _) fun _ => ?_
  refine Prog.issues_bind (hquiet (assertAskSettlementPolicy_quiet _ _)) fun _ => ?_
  refine Prog.issues_bind (hquiet (assertAskOffererOwnsToken_quiet _ _)) fun _ => ?_
  refine issues_transaction ?_ ⟨trivial, fun _ => id⟩ ⟨trivial, fun _ => id⟩
  refine Prog.issues_bind ?_ fun old => ?_
  · exact Prog.issues_bind (locksNothing_tx fun _ => id) fun found => Prog.issues_orThrow _ found
  refine Prog.issues_bind (Prog.issues_throwIf _ _) fun _ => ?_
  refine Prog.issues_bind (Prog.issues_throwIf _ _) fun _ => ?_
  refine Prog.issues_bind (Prog.issues_throwIf _ _) fun _ => ?_
  refine Prog.issues_bind (Prog.issues_throwIf _ _) fun _ => ?_
  refine Prog.issues_bind (Prog.issues_throwIf _ _) fun _ => ?_
  refine Prog.issues_bind ?_ fun _ => ?_
  · exact Prog.issues_bind (hquiet (quiet_rpc _)) fun _ => locksNothing_tx fun _ => id
  refine Prog.issues_bind (hquiet (materializeOrderFromDto_quiet dto chainId)) fun order => ?_
  refine Prog.issues_bind (Prog.issues_throwIf _ _) fun _ => ?_
  refine Prog.issues_bind ?_ fun saved => ?_
  · refine Prog.issues_bind (locksNothing_tx fun _ => id) fun saved => ?_
    rcases saved with (_ | _) | _ <;> exact Prog.issues_ret _
  exact Prog.issues_bind (hquiet (quiet_rpc _)) fun _ => Prog.issues_ret _

/-- Every order of the cards that is active when they are read is cancelled. -/
theorem cancelActiveOrdersForTokens_owes (ho : OrderOf contract tokenIds o) :
    unlisting.Owes o (cancelActiveOrdersForTokens contract tokenIds) := by
  have hcancel : ∀ orders : List Order, o ∈ orders → unlisting.Owes o (cancelOrders orders) := by
    intro orders hmem
    induction orders with
    | nil => cases hmem
    | cons order orders ih =>
      refine .inr fun at_ _ => ?_
      rcases List.mem_cons.mp hmem with rfl | hmem
      · exact .inl (by simp [unlisting, savedIds])
      · exact .inr fun _ _ => ih hmem
  have hsome : tokenIds.isEmpty = false := by
    cases tokenIds with
    | nil => cases ho.2
    | cons tokenId tokenIds => rfl
  unfold cancelActiveOrdersForTokens
  rw [if_neg (by simp [hsome])]
  exact .inr fun found hfound => hcancel found (hfound ho.1 ho.2)

theorem prepareItems_named {Ans : (c : BackendCmd) → BackendRes c → Prop} {estimate : RedeemEstimate}
    {wallets : List JsStr} {chainId : ℕ} {items : List PaidItem}
    (h : (prepareItems contract estimate wallets chainId tokenIds).Yields Ans (.ok items)) :
    ∀ item ∈ items, item.tokenContract = contract ∧ item.tokenId ∈ tokenIds.map ofNat := by
  induction tokenIds generalizing items with
  | nil =>
    obtain rfl := Prog.yields_pure.mp h
    exact fun item hitem => by cases hitem
  | cons tokenId tokenIds ih =>
    obtain ⟨first, hfirst, h⟩ := Prog.yields_bind.mp h
    obtain ⟨rest, hrest, h⟩ := Prog.yields_bind.mp h
    obtain rfl := Prog.yields_pure.mp h
    obtain ⟨_, -, hfirst⟩ := Prog.yields_bind.mp hfirst
    obtain ⟨owner, -, hfirst⟩ := Prog.yields_bind.mp hfirst
    obtain ⟨_, -, hfirst⟩ := Prog.yields_bind.mp hfirst
    obtain rfl := Prog.yields_pure.mp hfirst
    intro item hitem
    rcases List.mem_cons.mp hitem with rfl | hitem
    · exact ⟨rfl, by simp⟩
    · exact (ih hrest item hitem).imp_right fun hmem => by simp [List.mem_cons_of_mem _ hmem]

/-- The statements of the transaction lock the tokens of the batch. -/
theorem paidBatch_opens {p : PaidBatch}
    (hitems : ∀ item ∈ p.items, item.tokenContract = contract ∧ item.tokenId ∈ tokenIds.map ofNat) :
    (insertPaymentClaimOrConflict p.claim >>= fun _ => insertPaidRedemptionRows p p.items).Issues
      (unlisting.Opens (OrderOf contract tokenIds)) := by
  have hother : ∀ q : Stmt, (∀ o, ¬ LocksTokenOf o q) →
      unlisting.Opens (OrderOf contract tokenIds) (.inl (.inTx q)) := fun q hq =>
    ⟨fun hc => (by cases hc), fun hc => (by cases hc), fun o ho => absurd ho (hq o)⟩
  refine Prog.issues_bind ?_ fun _ => ?_
  · refine Prog.issues_bind ⟨hother _ fun _ => id, fun _ => trivial⟩ fun existing => ?_
    refine Prog.issues_bind ?_ fun saved => ?_
    · cases existing with
      | none => exact ⟨hother _ fun _ => id, fun _ => trivial⟩
      | some _ => exact ⟨hother _ fun _ => id, fun _ => trivial⟩
    · rcases saved with (_ | _) | _ <;> exact Prog.issues_ret _
  · have hrows : (insertPaidRedemptionRows p p.items).Issues
        (OfCards p.paymentTxHash fun c tokenId => c = contract ∧ tokenId ∈ tokenIds.map ofNat) :=
      insertPaidRedemptionRows_issues p hitems
    refine Prog.issues_mono (fun c hc => ?_) hrows
    rcases c with (_ | q | _ | _) | q
    · exact hc.elim
    · refine ⟨fun hc => (by cases hc), fun hc => (by cases hc), fun o ho => ?_⟩
      cases q with
      | lockToken contract' tokenId =>
        obtain ⟨rfl, htokenId⟩ := hc
        exact ⟨ho.1, ho.2 ▸ htokenId⟩
      | _ => exact ho.elim
    · exact hc.elim
    · exact hc.elim
    · exact ⟨fun hc => (by cases hc), fun hc => (by cases hc), fun o ho => ho.elim⟩

/-- A batch whose transaction commits is followed by the cancellation of the orders of its cards. -/
theorem createPaidRedemptionBatch_honours {params : PaidBatch}
    (hitems : ∀ item ∈ params.items,
      item.tokenContract = contract ∧ item.tokenId ∈ tokenIds.map ofNat)
    {f : List VaultRedemption → BackendM β} (hf : ∀ rows, (f rows).Issues LocksNothing)
    (howes : ∀ rows o, OrderOf contract tokenIds o → unlisting.Owes o (f rows)) :
    unlisting.Honours (createPaidRedemptionBatch params >>= f) := by
  refine Duties.honours_bind_bind (Prog.issues_throwIf _ _) fun _ _ => ?_
  refine Duties.honours_bind_bind (Prog.issues_throwIf _ _) fun _ _ => ?_
  unfold transaction
  rw [Prog.bind_eq_settle, Prog.settle_settle]
  refine Duties.honours_settle (paidBatch_opens hitems) (fun r _ => ?_) fun o ho r _ => ?_
  · cases r with
    | ok rows =>
      have hrest : unlisting.Honours (f rows) :=
        Duties.honours_of_issues (Prog.issues_mono (fun c hc => hc.2) (hf rows))
      exact fun _ => ⟨fun k hk => hk.elim, hrest⟩
    | error e => exact fun _ => ⟨fun k hk => hk.elim, trivial⟩
  · cases r with
    | ok rows => exact fun _ => ⟨fun _ => howes rows o ho, fun hc => absurd rfl hc⟩
    | error e => exact fun _ => ⟨fun hc => (by cases hc), fun _ hd => absurd rfl hd⟩

theorem requestRedemptionBatch_honours (userId : JsStr) (dto : RedeemBatchRequestDto)
    (chainId : ℕ) : unlisting.Honours (requestRedemptionBatch env userId dto chainId) := by
  have hbind : ∀ {α β : Type} {p : BackendM α} {f : α → BackendM β}, p.Issues Around →
      (∀ a, p.Yields (fun _ _ => True) (.ok a) → unlisting.Honours (f a)) →
      unlisting.Honours (p >>= f) := fun hp hf =>
    Duties.honours_bind (Prog.issues_mono (fun c hc => hc.2) (locksNothing_of_around hp)) hf
  refine hbind (issues_orThrowAnswer issues_ask) fun _ _ => ?_
  refine hbind (Prog.issues_throwIf _ _) fun _ _ => ?_
  refine hbind (quoteRequest_issues _ _ _) fun quote _ => ?_
  refine hbind issues_ask fun wallets _ => ?_
  refine hbind (Prog.issues_throwIf _ _) fun _ _ => ?_
  refine hbind (checkPayment_issues _ _ _ _ _) fun payment _ => ?_
  refine hbind (Prog.issues_ret _) fun contract _ => ?_
  refine hbind issues_ask fun batchId _ => ?_
  refine hbind (prepareItems_issues _ _ _ _ _) fun items hitems => ?_
  refine createPaidRedemptionBatch_honours (prepareItems_named hitems) (fun rows => ?_)
    fun rows o ho => Duties.owes_settle_left (cancelActiveOrdersForTokens_owes ho)
  refine locksNothing_of_around ?_
  refine Prog.issues_bind (cancelActiveOrdersForTokens_issues _ _) fun _ => ?_
  exact Prog.issues_bind (issues_orThrowAnswer issues_ask) fun _ => Prog.issues_ret _

theorem requestRedemptionBatch_closes (userId : JsStr) (dto : RedeemBatchRequestDto)
    (chainId : ℕ) : (requestRedemptionBatch env userId dto chainId).Issues ClosesListings := by
  have haround : ∀ {α : Type} {p : BackendM α}, p.Issues Around → p.Issues ClosesListings :=
    fun hp => Prog.issues_mono (fun c hc => hc.1) (locksNothing_of_around hp)
  refine Prog.issues_bind (haround (issues_orThrowAnswer issues_ask)) fun _ => ?_
  refine Prog.issues_bind (Prog.issues_throwIf _ _) fun _ => ?_
  refine Prog.issues_bind (haround (quoteRequest_issues _ _ _)) fun quote => ?_
  refine Prog.issues_bind (haround issues_ask) fun wallets => ?_
  refine Prog.issues_bind (Prog.issues_throwIf _ _) fun _ => ?_
  refine Prog.issues_bind (haround (checkPayment_issues _ _ _ _ _)) fun payment => ?_
  refine Prog.issues_bind (Prog.issues_ret _) fun contract => ?_
  refine Prog.issues_bind (haround issues_ask) fun batchId => ?_
  refine Prog.issues_bind (haround (prepareItems_issues _ _ _ _ _)) fun items => ?_
  refine Prog.issues_bind ?_ fun rows => haround ?_
  · refine Prog.issues_bind (Prog.issues_throwIf _ _) fun _ => ?_
    refine Prog.issues_bind (Prog.issues_throwIf _ _) fun _ => ?_
    refine issues_transaction ?_ trivial trivial
    refine Prog.issues_mono (fun c hc => ?_) (paidBatch_inside _)
    rcases c with (_ | _ | _ | _) | _
    · exact hc.elim
    all_goals trivial
  · refine Prog.issues_bind (cancelActiveOrdersForTokens_issues _ _) fun _ => ?_
    exact Prog.issues_bind (issues_orThrowAnswer issues_ask) fun _ => Prog.issues_ret _

end Calls

inductive UnlistedCall where
  | createOrder (dto : CreateOrderDto) (chainId : ℕ)
  | replaceSellerListing (oldOrderHash callerAddress : JsStr) (dto : CreateOrderDto) (chainId : ℕ)
  | requestRedemptionBatch (c : RequestCall)

def UnlistedCall.task (env : Env) : UnlistedCall → BackendM Unit
  | createOrder dto chainId => forget (Orders.createOrder env dto chainId)
  | replaceSellerListing oldOrderHash callerAddress dto chainId =>
    forget (Orders.replaceSellerListing env oldOrderHash callerAddress dto chainId)
  | requestRedemptionBatch c => forget (c.task env)

theorem unlistedTask_honours {env : Env} (c : UnlistedCall) :
    (c.task env).Issues ClosesListings ∧ unlisting.Honours (c.task env) := by
  have hlisting : ∀ {α : Type} {p : BackendM α}, p.Issues LocksNothing →
      (forget p).Issues ClosesListings ∧ unlisting.Honours (forget p) := by
    intro α p hp
    have hforget : (forget p).Issues LocksNothing :=
      Prog.issues_bind hp fun _ => Prog.issues_ret _
    exact ⟨Prog.issues_mono (fun c hc => hc.1) hforget,
      Duties.honours_of_issues (Prog.issues_mono (fun c hc => hc.2) hforget)⟩
  cases c with
  | createOrder dto chainId =>
    exact hlisting (locksNothing_of_savesClosed (createOrder_savesClosed dto chainId))
  | replaceSellerListing oldOrderHash callerAddress dto chainId =>
    exact hlisting (replaceSellerListing_locksNothing oldOrderHash callerAddress dto chainId)
  | requestRedemptionBatch c =>
    constructor
    · exact Prog.issues_bind (requestRedemptionBatch_closes _ _ _) fun _ => Prog.issues_ret _
    · refine Duties.honours_settle_of_ret (requestRedemptionBatch_honours _ _ _) fun r => ?_
      cases r with
      | ok result => exact ⟨.ok (), rfl⟩
      | error e => exact ⟨.error e, rfl⟩

abbrev UnlistedReach (env : Env) (Ok : Allowed Backend.Store BackendCmd) (p q : OrderPool) : Prop :=
  Pool.Reach (backendHandler env) (UnlistedCall.task env) Ok p q

/-- In the runs in which no listing becomes active while its card is being redeemed, and every request
has locked the tokens of the active listings whose cards it marks, no card in redemption is listed
when all calls have ended. -/
theorem no_listing_of_redeeming_card (env : Env) (t : Tables) (ht : NoRedeemingAsk t) (q : OrderPool)
    (hq : UnlistedReach env (RedeemChecksHold env) (orderStart t) q)
    (hend : ∀ task ∈ q.tasks, ∃ r, task = .ret r) : NoRedeemingAsk q.shared.stored := by
  have hnone : ∀ i o, ¬ Locked ((Session.opened t : Backend.Store).pendingOf i) o :=
    fun i o => locked_nil
  obtain ⟨-, howed⟩ := Pool.owed_of_reach (I := fun _ => True)
    (fun i s x c r u hc _ hok hu => ⟨trivial, accounted_step hc hok hu⟩) unlistedTask_honours trivial
    hnone (fun o ho => ht o ho.1 ho.2.1 ho.2.2) hq
  exact fun o ho hask hredeeming => howed.settled hend o ⟨ho, hask, hredeeming⟩

section Runs

def payerListing : CreateOrderDto where
  side := .ask
  tokenContract := letteredContract
  tokenId := js "1"
  offerer := payer
  considerationAmount := js "100"
  parameters := {
    offer := [{ itemType := 2, token := letteredContract, identifierOrCriteria := js "1",
                startAmount := js "1", endAmount := js "1" }]
    consideration := [{ itemType := 1, token := js "0x00000000000000000000000000000000000000dd",
                        startAmount := js "100", endAmount := js "100", recipient := payer }]
    startTime := 1000
    endTime := 1050 }

def standardCards : Tables :=
  { twoCards with
    tokens := [{ registeredToken (js "1") (js "c1") with settlementPolicy := some .standard }] }

def unlistedWorld (i : ℕ) : World
  | .nextOrderId => i
  | .getOrderHash .. => .ok (ofNat i)
  | .ensureCollectionForListing .. => some (js "cards")
  | q => redeemWorld (ofNat i) q

def unlistedSteps (i n : ℕ) : List (Pool.Event UnlistedCall World) :=
  List.replicate n (.run i (unlistedWorld i))

/-- Whether each call has ended, and the status of card 1's listing and of its cycle. -/
def cardState (q : OrderPool) : List Bool × List OrderStatus × Option CycleStatus :=
  (q.tasks.map Prog.isSettled, q.shared.stored.orders.rows.map Order.status,
    (q.shared.stored.cycles.get (js "c1")).map VaultCycle.status)

/-- Card 1 is listed, and then redeemed. -/
theorem no_listing_of_redeeming_card_listed :
    ∃ q, UnlistedReach redeemEnv (RedeemChecksHold redeemEnv) (orderStart standardCards) q ∧
      cardState q = ([true, true], [.cancelled], some .redemptionRequested) ∧
      NoRedeemingAsk q.shared.stored := by
  have hrun : ∃ q, UnlistedReach redeemEnv (RedeemChecksHold redeemEnv)
      (orderStart standardCards) q ∧
        cardState q = ([true, true], [.cancelled], some .redemptionRequested) :=
    Pool.exists_reach_of_runSchedule
      (.spawn (.createOrder payerListing redeemV1ChainId) :: unlistedSteps 0 13 ++
        .spawn (.requestRedemptionBatch (cardRequest 1)) :: unlistedSteps 1 23) cardState (by decide)
  obtain ⟨q, hq, hstate⟩ := hrun
  have hend : ∀ task ∈ q.tasks, ∃ r, task = .ret r := by
    intro task htask
    have hsettled : task.isSettled ∈ q.tasks.map Prog.isSettled := List.mem_map_of_mem htask
    have hall : q.tasks.map Prog.isSettled = [true, true] := congrArg Prod.fst hstate
    rw [hall] at hsettled
    exact Prog.isSettled_iff.mp (by simpa using hsettled)
  have hnone : NoRedeemingAsk standardCards := fun o ho => by cases ho
  exact ⟨q, hq, hstate, no_listing_of_redeeming_card redeemEnv standardCards hnone q hq hend⟩

/-- The listing of card 1 passes its checks, a request redeems the card and finds no listing to cancel,
and the listing is inserted. -/
theorem redeeming_card_listed :
    NoRedeemingAsk standardCards ∧
      ∃ q, UnlistedReach redeemEnv anyStep (orderStart standardCards) q ∧
        (∀ task ∈ q.tasks, ∃ r, task = .ret r) ∧ ¬ NoRedeemingAsk q.shared.stored := by
  have hrun : ∃ q, UnlistedReach redeemEnv anyStep (orderStart standardCards) q ∧
      (q.tasks.all Prog.isSettled, decide (NoRedeemingAsk q.shared.stored)) = (true, false) :=
    Pool.exists_reach_of_runSchedule
      (.spawn (.createOrder payerListing redeemV1ChainId) :: unlistedSteps 0 3 ++
        .spawn (.requestRedemptionBatch (cardRequest 1)) :: unlistedSteps 1 21 ++ unlistedSteps 0 10)
      (fun q : OrderPool => (q.tasks.all Prog.isSettled, decide (NoRedeemingAsk q.shared.stored)))
      (by decide)
  obtain ⟨q, hq, hboth⟩ := hrun
  obtain ⟨hsettled, hlisted⟩ := Prod.mk.inj hboth
  refine ⟨fun o ho => (by cases ho), q, hq, fun task htask => ?_, of_decide_eq_false hlisted⟩
  exact Prog.isSettled_iff.mp (List.all_eq_true.mp hsettled task htask)

end Runs

end Redeem
