import Tokenable.Orders.SingleCall

/-!
# Orders that third parties cancel

Anyone may report a dead bid or an unowned ask. The evidence is read on the chain of the request.
`invalidateUnownedAsk` accepts it only when the RWA contract of that chain is the contract of the
order; `invalidateDeadBid` does not compare the two.
-/

namespace Orders
open Js Platform Async Db Vault Settlement Backend

def IsOwnChain (env : Env) (o : Order) (chainId : ℕ) : Prop :=
  env.getRwaAddress chainId = .ok (lower o.tokenContract)

def offerAmount (o : Order) : ℤ := (toBigInt ((firstOfferAmount o).getD (js "0"))).getD 0

/-- The bid has expired, or the bidder cannot pay it on the chain. -/
def DeadOn (x : World) (chainId : ℕ) (o : Order) : Prop :=
  ∃ funding, x (.bidFunding chainId o.offerer) = .ok funding ∧
    (o.parameters.endTime ≤ funding.nowSec ∨ (funding.balance : ℤ) < offerAmount o ∨
      (funding.allowance : ℤ) < offerAmount o)

def UnownedOn (x : World) (chainId : ℕ) (o : Order) : Prop :=
  ∃ tid raw, toNumber (normalizeDecimalTokenId o.tokenId) = some tid ∧
    x (.ownerOf chainId (lower o.tokenContract) tid) = .ok raw ∧ lower (trim raw) ≠ lower o.offerer

/-- The verdict of `isDeadTokenBidFunding` on what the nodes of the chain answer. -/
def LooksDead (x : World) (chainId : ℕ) (o : Order) : Prop :=
  ∃ funding, x (.bidFunding chainId o.offerer) = .ok funding ∧
    (isDeadTokenBidFunding funding (offerAmount o) o.parameters.endTime).isSome

theorem deadOn_of_looksDead {x : World} {chainId : ℕ} {o : Order} (h : LooksDead x chainId o) :
    DeadOn x chainId o := by
  obtain ⟨funding, hfunding, hdead⟩ := h
  refine ⟨funding, hfunding, ?_⟩
  unfold isDeadTokenBidFunding at hdead
  split_ifs at hdead with hexpired hunder
  · simp only [Bool.and_eq_true, decide_eq_true_eq] at hexpired
    exact .inl hexpired.2
  · simp only [Bool.and_eq_true, Bool.or_eq_true, decide_eq_true_eq] at hunder
    exact .inr hunder.2
  · cases hdead

/-- The call takes the stored order out of ACTIVE. -/
def Closes (env : Env) (x : World) (t : Tables) (p : BackendM Order) (o : Order) : Prop :=
  ∃ y, (serve env x p t).2.orders.get o.id = some y ∧ y.status ≠ .active

/-- The request names an active token bid that looks dead on the chain of the request, and on no
chain of its contract is dead. -/
def MisjudgedBid (env : Env) (x : World) (t : Tables) (orderHash : JsStr) (chainId : ℕ) : Prop :=
  ∃ o, shownOrder x t orderHash = .ok o ∧ o.status = .active ∧ isTokenBidOrder o ∧
    LooksDead x chainId o ∧ ∀ own, IsOwnChain env o own → ¬ DeadOn x own o

variable {env : Env} {x : World} {t : Tables} {orderHash callerAddress : JsStr} {chainId : ℕ}

theorem mem_of_shownOrder {o : Order} (h : shownOrder x t orderHash = .ok o) : o ∈ t.orders.rows :=
  List.mem_of_find?_eq_some (shownOrder_eq_ok.mp h).1

/-- On the chain of its contract no bid is misjudged. -/
theorem not_misjudgedBid_of_isOwnChain
    (h : ∀ o, shownOrder x t orderHash = .ok o → IsOwnChain env o chainId) :
    ¬ MisjudgedBid env x t orderHash chainId := by
  rintro ⟨o, hshown, -, -, hdead, halive⟩
  exact halive chainId (h o hshown) (deadOn_of_looksDead hdead)

/-- A call that leaves the tables as they are closes no active order. -/
theorem not_closes_of_unchanged {p : BackendM Order} {o : Order} (ho : o ∈ t.orders.rows)
    (hactive : o.status = .active) (h : (serve env x p t).2.orders = t.orders) :
    ¬ Closes env x t p o := by
  rintro ⟨y, hy, hclosed⟩
  rw [h, Table.get_of_mem ho, Option.some.injEq] at hy
  exact hclosed (hy ▸ hactive)

/-- A call that saves one cancelled row closes the order of that row and no other. -/
theorem closes_iff_of_save {p : BackendM Order} {o o' row : Order} (ho : o ∈ t.orders.rows)
    (ho' : o' ∈ t.orders.rows) (hactive : o.status = .active) (hid : row.id = o'.id)
    (hrow : row.status = .cancelled)
    (h : (serve env x p t).2.orders = t.orders.save row) : Closes env x t p o ↔ o = o' := by
  constructor
  · rintro ⟨y, hy, hclosed⟩
    by_contra hne
    have hids : o.id ≠ row.id := by
      rw [hid]
      exact fun heq => hne (List.inj_on_of_nodup_map t.orders.nodup ho ho' heq)
    rw [h, Table.get_save_of_ne hids, Table.get_of_mem ho, Option.some.injEq] at hy
    exact hclosed (hy ▸ hactive)
  · rintro rfl
    refine ⟨row, ?_, by rw [hrow]; decide⟩
    rw [h, ← hid]
    exact Table.get_save_self _ _

/-- The call saves a cancelled copy of the row of `o` and changes no other order. -/
def CancelsRow (env : Env) (x : World) (t : Tables) (p : BackendM Order) (o : Order) : Prop :=
  ∃ row : Order, row.id = o.id ∧ row.status = .cancelled ∧
    (serve env x p t).2.orders = t.orders.save row

theorem closes_iff_of_cancelsRow {p : BackendM Order} {o o' : Order} (ho : o ∈ t.orders.rows)
    (ho' : o' ∈ t.orders.rows) (hactive : o.status = .active) (h : CancelsRow env x t p o') :
    Closes env x t p o ↔ o = o' := by
  obtain ⟨row, hid, hrow, horders⟩ := h
  exact closes_iff_of_save ho ho' hactive hid hrow horders

theorem invalidateDeadBid_cancels {o : Order} (hshown : shownOrder x t orderHash = .ok o)
    (hactive : o.status = .active) (hbid : isTokenBidOrder o) (hdead : LooksDead x chainId o) :
    CancelsRow env x t (invalidateDeadBid orderHash callerAddress chainId) o := by
  obtain ⟨funding, hfunding, hsome⟩ := hdead
  obtain ⟨reason, hreason⟩ := Option.isSome_iff_exists.mp hsome
  unfold CancelsRow
  rw [serve_of_savesLoaded (invalidateDeadBid_savesLoaded _ _ _), invalidateDeadBid,
    Prog.play_bind, play_findByHash, hshown]
  simp only [Prog.onOk, hactive, ne_eq, not_true_eq_false, if_false]
  rw [play_throwIf, hbid, play_orThrowAnswer _ (play_rpc (.bidFunding chainId o.offerer)), hfunding]
  simp only [Bool.not_true, Bool.false_eq_true, if_false, Prog.onOk]
  rw [play_orThrow, ← offerAmount, hreason]
  dsimp only
  rw [play_saveOrder]
  refine ⟨_, ?_, ?_, rfl⟩
  · rfl
  · exact rfl

theorem invalidateDeadBid_unchanged
    (h : ∀ o, shownOrder x t orderHash = .ok o → o.status = .active → isTokenBidOrder o →
      ¬ LooksDead x chainId o) :
    (serve env x (invalidateDeadBid orderHash callerAddress chainId) t).2 = t := by
  rw [serve_of_savesLoaded (invalidateDeadBid_savesLoaded _ _ _), invalidateDeadBid,
    Prog.play_bind, play_findByHash]
  cases hshown : shownOrder x t orderHash with
  | error e => rfl
  | ok o =>
    simp only [Prog.onOk]
    split_ifs with hactive
    · rfl
    · rw [play_throwIf]
      split_ifs with hbid
      · rfl
      · rw [play_orThrowAnswer _ (play_rpc (.bidFunding chainId o.offerer))]
        rcases hfunding : x (.bidFunding chainId o.offerer) with e | funding
        · rfl
        · simp only [Prog.onOk]
          rw [play_orThrow, ← offerAmount]
          cases hreason : isDeadTokenBidFunding funding (offerAmount o) o.parameters.endTime with
          | none => rfl
          | some reason =>
            have hlooks : LooksDead x chainId o := ⟨funding, hfunding, by rw [hreason]; rfl⟩
            exact absurd hlooks (h o hshown (by simpa using hactive) (by simpa using hbid))

/-- An active order is closed by `invalidateDeadBid` if and only if it is the token bid that the
request names and looks dead on the chain of the request. -/
theorem closes_invalidateDeadBid_iff {o : Order} (ho : o ∈ t.orders.rows)
    (hactive : o.status = .active) :
    Closes env x t (invalidateDeadBid orderHash callerAddress chainId) o ↔
      shownOrder x t orderHash = .ok o ∧ isTokenBidOrder o ∧ LooksDead x chainId o := by
  by_cases hdead : ∃ o', shownOrder x t orderHash = .ok o' ∧ o'.status = .active ∧
      isTokenBidOrder o' ∧ LooksDead x chainId o'
  · obtain ⟨o', hshown, hactive', hbid, hlooks⟩ := hdead
    have hcancels : CancelsRow env x t (invalidateDeadBid orderHash callerAddress chainId) o' :=
      invalidateDeadBid_cancels hshown hactive' hbid hlooks
    rw [closes_iff_of_cancelsRow ho (mem_of_shownOrder hshown) hactive hcancels]
    constructor
    · rintro rfl
      exact ⟨hshown, hbid, hlooks⟩
    · rintro ⟨hshown', -, -⟩
      exact (Except.ok.inj (hshown.symm.trans hshown')).symm
  · have hsame : (serve env x (invalidateDeadBid orderHash callerAddress chainId) t).2 = t :=
      invalidateDeadBid_unchanged fun o' h₁ h₂ h₃ h₄ => hdead ⟨o', h₁, h₂, h₃, h₄⟩
    constructor
    · exact fun hcloses => absurd hcloses (not_closes_of_unchanged ho hactive (by rw [hsame]))
    · rintro ⟨hshown, hbid, hlooks⟩
      exact absurd ⟨o, hshown, hactive, hbid, hlooks⟩ hdead

theorem invalidateUnownedAsk_effect (env : Env) (x : World) (t : Tables)
    (orderHash callerAddress : JsStr) (chainId : ℕ) :
    (∃ o owner, shownOrder x t orderHash = .ok o ∧
      ownerSeen env x o.tokenContract o.tokenId chainId = .ok owner ∧ owner ≠ lower o.offerer ∧
      CancelsRow env x t (invalidateUnownedAsk env orderHash callerAddress chainId) o) ∨
    (serve env x (invalidateUnownedAsk env orderHash callerAddress chainId) t).2 = t := by
  unfold CancelsRow
  rw [serve_of_savesLoaded (invalidateUnownedAsk_savesLoaded _ _ _), invalidateUnownedAsk,
    Prog.play_bind, play_findByHash]
  cases hshown : shownOrder x t orderHash with
  | error e => exact .inr rfl
  | ok o =>
    simp only [Prog.onOk]
    split_ifs with hactive
    · exact .inr rfl
    · rw [play_throwIf]
      split_ifs with hside
      · exact .inr rfl
      · rw [Prog.play_bind, play_readOnChainRwaOwner]
        cases howner : ownerSeen env x o.tokenContract o.tokenId chainId with
        | error e => exact .inr rfl
        | ok owner =>
          simp only [Prog.onOk]
          rw [play_throwIf]
          split_ifs with hsame
          · exact .inr rfl
          · refine .inl ⟨o, owner, rfl, howner, by simpa using hsame, _, ?_, ?_,
              orders_saveOrder_bind fun saved u => ?_⟩
            · rfl
            · rfl
            · exact orders_recordOwner _ _ _ saved

/-- Only an order without an owner behind it is closed by `invalidateUnownedAsk`. -/
theorem unowned_of_closes_invalidateUnownedAsk {o : Order} (ho : o ∈ t.orders.rows)
    (hactive : o.status = .active)
    (h : Closes env x t (invalidateUnownedAsk env orderHash callerAddress chainId) o) :
    IsOwnChain env o chainId ∧ UnownedOn x chainId o := by
  rcases invalidateUnownedAsk_effect env x t orderHash callerAddress chainId with
    ⟨o', owner, hshown, howner, hne, hcancels⟩ | hsame
  · obtain rfl := (closes_iff_of_cancelsRow ho (mem_of_shownOrder hshown) hactive hcancels).mp h
    obtain ⟨tid, raw, htid, hrwa, hraw, rfl⟩ := ownerSeen_eq_ok howner
    exact ⟨hrwa, tid, raw, htid, hraw, hne⟩
  · exact absurd h (not_closes_of_unchanged ho hactive (by rw [hsame]))

/-- Third parties cancel dead orders only, unless the request names a chain on which a live bid
looks dead. -/
theorem third_parties_cancel_dead_orders_iff (env : Env) (x : World) (t : Tables)
    (orderHash callerAddress : JsStr) (chainId : ℕ) :
    ((∀ o ∈ t.orders.rows, o.status = .active →
        Closes env x t (invalidateDeadBid orderHash callerAddress chainId) o →
          ∃ own, IsOwnChain env o own ∧ DeadOn x own o) ∧
      (∀ o ∈ t.orders.rows, o.status = .active →
        Closes env x t (invalidateUnownedAsk env orderHash callerAddress chainId) o →
          ∃ own, IsOwnChain env o own ∧ UnownedOn x own o)) ↔
      ¬ MisjudgedBid env x t orderHash chainId := by
  constructor
  · rintro ⟨hbids, -⟩ ⟨o, hshown, hactive, hbid, hlooks, halive⟩
    have ho := mem_of_shownOrder hshown
    have hcloses : Closes env x t (invalidateDeadBid orderHash callerAddress chainId) o :=
      (closes_invalidateDeadBid_iff ho hactive).mpr ⟨hshown, hbid, hlooks⟩
    obtain ⟨own, hown, hdead⟩ := hbids o ho hactive hcloses
    exact halive own hown hdead
  · intro hjudged
    constructor
    · intro o ho hactive hcloses
      obtain ⟨hshown, hbid, hlooks⟩ := (closes_invalidateDeadBid_iff ho hactive).mp hcloses
      by_contra halive
      exact hjudged ⟨o, hshown, hactive, hbid, hlooks, fun own hown hdead =>
        halive ⟨own, hown, hdead⟩⟩
    · intro o ho hactive hcloses
      exact ⟨chainId, unowned_of_closes_invalidateUnownedAsk ho hactive hcloses⟩

section Runs

def twoChains : Env where
  rwaAddresses := [(1, js "0x00000000000000000000000000000000000000cc"),
    (137, js "0x00000000000000000000000000000000000000c2")]

/-- A bid of 100 for card 7 of chain 1. -/
def mainnetBid : Order where
  id := 1
  orderHash := js "0xb1"
  offerer := js "0x00000000000000000000000000000000000000bb"
  side := .bid
  tokenContract := js "0x00000000000000000000000000000000000000cc"
  tokenId := js "7"
  considerationAmount := js "100"
  parameters := {
    offer := [{ itemType := 1, startAmount := js "100", endAmount := js "100" }]
    consideration := [{ itemType := 2, identifierOrCriteria := js "7" }]
    endTime := 50 }

def mainnetBook : Tables where
  orders := ⟨[mainnetBid], by decide⟩
  tokens := []
  holdings := []
  settlements := []
  assets := []
  cycles := Table.empty
  claims := Table.empty
  redemptions := Table.empty

def mainnetFunds : World
  | .bidFunding 1 _ => .ok ⟨100, 100, 10⟩
  | .bidFunding _ _ => .ok ⟨0, 0, 10⟩
  | q => idleWorld q

/-- A request that names chain 137 cancels a bid that chain 1 can fill. -/
theorem live_bid_cancelled :
    ¬ ((∀ o ∈ mainnetBook.orders.rows, o.status = .active →
        Closes twoChains mainnetFunds mainnetBook (invalidateDeadBid (js "0xb1") [] 137) o →
          ∃ own, IsOwnChain twoChains o own ∧ DeadOn mainnetFunds own o) ∧
      (∀ o ∈ mainnetBook.orders.rows, o.status = .active →
        Closes twoChains mainnetFunds mainnetBook
          (invalidateUnownedAsk twoChains (js "0xb1") [] 137) o →
          ∃ own, IsOwnChain twoChains o own ∧ UnownedOn mainnetFunds own o)) := by
  rintro ⟨hbids, -⟩
  have hcloses : Closes twoChains mainnetFunds mainnetBook
      (invalidateDeadBid (js "0xb1") [] 137) mainnetBid := by
    refine ⟨_, rfl, ?_⟩
    decide
  obtain ⟨own, hown, funding, hfunding, hdead⟩ := hbids mainnetBid (.head _) rfl hcloses
  have hone : own = 1 := by
    by_contra hne
    by_cases hpolygon : own = 137
    · subst hpolygon
      exact absurd (Except.ok.inj hown) (by decide)
    · have hnone : twoChains.rwaAddresses.find? (fun c => c.1 = own) = none := by
        simp [twoChains, Ne.symm hne, Ne.symm hpolygon]
      simp [IsOwnChain, Env.getRwaAddress, contractAddress, hnone] at hown
  subst hone
  obtain rfl : (⟨100, 100, 10⟩ : BidFunding) = funding := Except.ok.inj hfunding
  exact absurd hdead (by decide)

end Runs

end Orders
