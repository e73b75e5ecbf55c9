import Tokenable.Orders.Commands

/-!
# The order service, one call at a time

What the shared steps of the operations do when no other call interleaves and the world does not
change: how they end, and the tables they leave.
-/

namespace Orders
open Js Platform Async Db Vault Settlement Backend

theorem outside_of_savesLoaded : ∀ c : BackendCmd, SavesLoaded c → Outside c := by
  intro c hc
  rcases c with (q | _ | _ | _) | q
  · trivial
  all_goals exact hc

theorem serve_of_savesLoaded {env : Env} {x : World} {t : Tables} {α : Type} {p : BackendM α}
    (hp : p.Issues SavesLoaded) : serve env x p t = p.play (solo env x) t :=
  serve_eq_play (Prog.issues_mono outside_of_savesLoaded hp)

theorem outside_of_quiet {α : Type} {p : BackendM α} (hp : p.Issues Quiet) : p.Issues Outside :=
  Prog.issues_mono (fun c hc => outside_of_savesLoaded c (savesLoaded_of_quiet c hc)) hp

theorem outside_db (q : Stmt) : (db q).Issues Outside := ⟨trivial, fun _ => trivial⟩

section Creation
variable {env : Env} {chainId : ℕ}

theorem cancelActiveAskIfOffererUnowned_outside (tokenContract tokenId : JsStr) :
    (cancelActiveAskIfOffererUnowned env tokenContract tokenId chainId).Issues Outside := by
  refine Prog.issues_bind (outside_db _) fun found => ?_
  cases found with
  | none => exact Prog.issues_ret _
  | some existing =>
    dsimp only
    generalize (if (normalizeDecimalTokenId tokenId).isEmpty then tokenId
      else normalizeDecimalTokenId tokenId) = tid
    refine Prog.issues_bind (outside_of_quiet (readOnChainRwaOwner_quiet _ tid _)) fun owner => ?_
    split_ifs
    · exact Prog.issues_ret _
    · have hsave : (saveOrder existing (supersede existing owner)).Issues Outside :=
        Prog.issues_bind (outside_of_quiet (quiet_rpc _)) fun _ =>
          Prog.issues_bind (outside_db _) fun _ => Prog.issues_ret _
      exact Prog.issues_bind hsave fun saved => outside_of_quiet (recordOwner_quiet _ _ _)

theorem assertNewAsk_outside (dto : CreateOrderDto) :
    (assertNewAsk env dto chainId).Issues Outside := by
  refine Prog.issues_bind (Prog.issues_ret _) fun _ => ?_
  refine Prog.issues_bind (outside_of_quiet (assertAskSettlementPolicy_quiet _ _)) fun _ => ?_
  refine Prog.issues_bind (outside_of_quiet (assertTokenRedeemableForListing_quiet _ _)) fun _ => ?_
  refine Prog.issues_bind (outside_of_quiet (assertAskOffererOwnsToken_quiet _ _)) fun _ => ?_
  refine Prog.issues_bind (cancelActiveAskIfOffererUnowned_outside _ _) fun _ => ?_
  refine Prog.issues_bind (outside_db _) fun existing => ?_
  cases existing <;> exact Prog.issues_ret _

theorem createOrder_outside (dto : CreateOrderDto) :
    (createOrder env dto chainId).Issues Outside := by
  have hchecks : (assertNewOrder env dto chainId).Issues Outside := by
    unfold assertNewOrder
    cases dto.side with
    | bid => exact outside_of_quiet (assertNewBid_quiet dto chainId)
    | ask => exact assertNewAsk_outside dto
  have hpersist : ∀ order, (persistOrderWith db order).Issues Outside := by
    intro order
    refine Prog.issues_bind (outside_db _) fun saved => ?_
    rcases saved with (_ | _) | _ <;> exact Prog.issues_ret _
  have hshow : ∀ order : Order, (orThrowAnswer (rpc (.listingDisplay order))).Issues Outside :=
    fun order => outside_of_quiet (quiet_orThrowAnswer (quiet_rpc _))
  refine Prog.issues_bind (outside_of_quiet (assertRwaOfChain_quiet _ _)) fun _ => ?_
  refine Prog.issues_bind hchecks fun _ => ?_
  refine Prog.issues_bind (outside_of_quiet (materializeOrderFromDto_quiet _ _)) fun order => ?_
  refine Prog.issues_bind (Prog.issues_throwIf _ _) fun _ => ?_
  refine Prog.issues_bind (hpersist order) fun saved => ?_
  split_ifs
  · refine Prog.issues_bind (outside_of_quiet (quiet_rpc _)) fun _ => ?_
    exact Prog.issues_bind (hshow saved) fun _ => Prog.issues_ret _
  · exact Prog.issues_bind (hshow saved) fun _ => Prog.issues_ret _

end Creation

variable {env : Env} {x : World} {t u : Tables} {α β : Type}

def shownOrder (x : World) (t : Tables) (orderHash : JsStr) : Except HttpError Order :=
  match t.orderByHash orderHash with
  | none => .error (.notFound (js "Order not found: " ++ orderHash))
  | some order => (x (.listingDisplay order)).map fun _ => order

theorem shownOrder_eq_ok {orderHash : JsStr} {o : Order} :
    shownOrder x t orderHash = .ok o ↔
      t.orderByHash orderHash = some o ∧ x (.listingDisplay o) = .ok () := by
  unfold shownOrder
  cases t.orderByHash orderHash with
  | none => simp
  | some order =>
    have hmap : (x (.listingDisplay order)).map (fun _ => order) = .ok o ↔
        order = o ∧ x (.listingDisplay order) = .ok () := by
      rcases x (.listingDisplay order) with e | v
      · simp [Except.map]
      · simp [Except.map]
    simp only [hmap, Option.some.injEq]
    constructor
    · rintro ⟨rfl, h⟩
      exact ⟨rfl, h⟩
    · rintro ⟨rfl, h⟩
      exact ⟨rfl, h⟩

theorem play_findByHash (orderHash : JsStr) :
    (findByHash orderHash).play (solo env x) t = (shownOrder x t orderHash, t) := by
  unfold findByHash shownOrder
  rw [Prog.play_bind, play_db]
  simp only [Stmt.answer, Stmt.changes, Bool.false_eq_true, if_false, Prog.onOk]
  cases t.orderByHash orderHash with
  | none => rfl
  | some order =>
    simp only [Prog.orThrow_some, Prog.play_bind, Prog.play_ret, Prog.onOk, orThrowAnswer]
    rw [play_rpc]
    dsimp only
    rcases x (.listingDisplay order) with e | v <;> rfl

theorem play_saveOrder (loaded row : Order) :
    (saveOrder loaded row).play (solo env x) t =
      (.ok { row with updatedAt := x .now },
        { t with orders := t.orders.save { row with updatedAt := x .now } }) := rfl

/-- A save and a continuation that changes no order. -/
theorem orders_saveOrder_bind {loaded row : Order} {f : Order → BackendM α}
    (hf : ∀ saved u, ((f saved).play (solo env x) u).2.orders = u.orders) :
    ((saveOrder loaded row >>= f).play (solo env x) t).2.orders =
      t.orders.save { row with updatedAt := x .now } := by
  rw [Prog.play_bind, play_saveOrder]
  exact hf _ _

theorem orders_recordOwner (tokenContract tokenId owner : JsStr) (a : α) :
    ((recordOwner tokenContract tokenId owner >>= fun _ => pure a).play (solo env x) t).2.orders =
      t.orders := by
  unfold recordOwner
  split_ifs <;> rfl

theorem play_throwIf (b : Bool) (e : HttpError) (f : Unit → BackendM α) :
    (Prog.throwIf b e >>= f).play (solo env x) t =
      if b then (.error e, t) else (f ()).play (solo env x) t := by
  cases b <;> rfl

theorem play_orThrow (e : HttpError) (o : Option α) (f : α → BackendM β) :
    (Prog.orThrow e o >>= f).play (solo env x) t =
      match o with
      | some a => (f a).play (solo env x) t
      | none => (.error e, t) := by
  cases o <;> rfl

theorem play_orThrowAnswer {p : BackendM (Except HttpError α)} {r : Except HttpError α}
    (f : α → BackendM β) (hp : p.play (solo env x) t = (.ok r, u)) :
    (orThrowAnswer p >>= f).play (solo env x) t = (Prog.onOk f r).play (solo env x) u := by
  rw [Prog.play_bind, orThrowAnswer, Prog.play_bind, hp]
  cases r <;> rfl

/-- What `readOnChainRwaOwner` answers. -/
def ownerSeen (env : Env) (x : World) (tokenContract tokenId : JsStr) (chainId : ℕ) :
    Except HttpError JsStr :=
  match toNumber (normalizeDecimalTokenId tokenId) with
  | none => .error (.badRequest (js "Invalid tokenId " ++ tokenId))
  | some tid =>
    match env.getRwaAddress chainId with
    | .error e => .error e
    | .ok expected =>
      if lower tokenContract = expected then
        ownerAnswer tid chainId expected (x (.ownerOf chainId expected tid))
      else .error (.badRequest (js "tokenContract must match RWA for chain " ++ ofNat chainId))

theorem play_readOnChainRwaOwner (tokenContract tokenId : JsStr) (chainId : ℕ) :
    (readOnChainRwaOwner env tokenContract tokenId chainId).play (solo env x) t =
      (ownerSeen env x tokenContract tokenId chainId, t) := by
  unfold readOnChainRwaOwner ownerSeen
  cases toNumber (normalizeDecimalTokenId tokenId) with
  | none => rfl
  | some tid =>
    cases env.getRwaAddress chainId with
    | error e => rfl
    | ok expected =>
      refine (play_throwIf (decide (lower tokenContract ≠ expected)) _ fun _ =>
        (rpc (.ownerOf chainId expected tid) : BackendM (Except JsStr JsStr)) >>= fun answer =>
          Prog.ret (ownerAnswer tid chainId expected answer)).trans ?_
      by_cases hcontract : lower tokenContract = expected
      · simp only [hcontract, if_true, ne_eq, not_true_eq_false, decide_false, Bool.false_eq_true,
          if_false]
        rfl
      · simp only [hcontract, if_false, ne_eq, not_false_eq_true, decide_true, if_true]

/-- An owner that is seen is the answer of `ownerOf` on a chain whose RWA contract is the one asked
about. -/
theorem ownerSeen_eq_ok {tokenContract tokenId owner : JsStr} {chainId : ℕ}
    (h : ownerSeen env x tokenContract tokenId chainId = .ok owner) :
    ∃ tid raw, toNumber (normalizeDecimalTokenId tokenId) = some tid ∧
      env.getRwaAddress chainId = .ok (lower tokenContract) ∧
      x (.ownerOf chainId (lower tokenContract) tid) = .ok raw ∧ owner = lower (trim raw) := by
  unfold ownerSeen at h
  cases htid : toNumber (normalizeDecimalTokenId tokenId) with
  | none => simp [htid] at h
  | some tid =>
    cases hrwa : env.getRwaAddress chainId with
    | error e => simp [htid, hrwa] at h
    | ok expected =>
      simp only [htid, hrwa] at h
      split_ifs at h with hcontract
      subst hcontract
      have hanswer : ∀ answer, ownerAnswer tid chainId (lower tokenContract) answer = .ok owner →
          ∃ raw, answer = .ok raw ∧ owner = lower (trim raw) := by
        intro answer hok
        rcases answer with message | raw
        · simp only [ownerAnswer] at hok
          split_ifs at hok
        · simp only [ownerAnswer] at hok
          split_ifs at hok
          exact ⟨raw, rfl, (Except.ok.inj hok).symm⟩
      obtain ⟨raw, hraw, howner⟩ := hanswer _ h
      exact ⟨tid, raw, rfl, rfl, hraw, howner⟩

end Orders
