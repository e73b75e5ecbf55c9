import Tokenable.Orders.Commands

/-!
# Orders leave ACTIVE once and for all

The guarded updates change active rows only. A save writes the status that its call computed from
the row it loaded, so it keeps the statuses of closed rows in the runs in which no stored row has
changed its status between the load and the save, `StillLoaded`. A replacement saves in a
transaction; until that commits, its row locks keep the statuses of the rows as it found them.
-/

namespace Orders
open Js Platform Async Db Vault Settlement Backend

def StatusKept (x y : Order) : Prop := x.status ≠ .active → y.status = x.status

theorem StatusKept.refl (x : Order) : StatusKept x x := fun _ => rfl

theorem StatusKept.trans (x y z : Order) (hxy : StatusKept x y) (hyz : StatusKept y z) :
    StatusKept x z := fun hx => (hyz (hxy hx ▸ hx)).trans (hxy hx)

def savedIds : Stmt → List ℕ
  | .saveOrders rows => rows.map (fun p => p.2.id)
  | .insertOrder row => [row.id]
  | _ => []

/-- The rows that an `UPDATE … WHERE status = 'active'` matches. -/
def guardedIds (t : Tables) : Stmt → List ℕ
  | .cancelActiveAsks contract tokenId except _ =>
    (t.orders.find (Tables.isActiveAsk contract tokenId except)).map Order.id
  | .expireOrders now => (t.orders.find (Tables.isDue now)).map Order.id
  | _ => []

variable {env : Env} {t : Tables} {q : Stmt} {k : ℕ}

theorem get_updateOrders {p : Order → Bool} {f : Order → Order} (hf : ∀ o, (f o).id = o.id) :
    (t.updateOrders p f hf).orders.get k =
      (t.orders.get k).map (fun o => if p o then f o else o) := by
  have hid : ∀ o : Order, (if p o then f o else o).id = o.id := fun o => by
    split_ifs
    · exact hf o
    · rfl
  have hkey : (fun o => decide (o.id = k)) ∘ (fun o => if p o then f o else o) =
      fun o => decide (o.id = k) := funext fun o => by simp [hid]
  simp only [Tables.updateOrders, Table.get, List.find?_map, hkey]

/-- A guarded update leaves the rows alone that it does not match. -/
theorem get_updateOrders_of_not_mem {p : Order → Bool} {f : Order → Order}
    (hf : ∀ o, (f o).id = o.id) (h : k ∉ (t.orders.find p).map Order.id) :
    (t.updateOrders p f hf).orders.get k = t.orders.get k := by
  rw [get_updateOrders]
  cases hx : t.orders.get k with
  | none => rfl
  | some x =>
    have hpx : p x = false := by
      by_contra hp
      have hmem : x ∈ t.orders.find p :=
        Table.mem_find.mpr ⟨Table.mem_of_get hx, by simpa using hp⟩
      exact h (List.mem_map.mpr ⟨x, hmem, Table.get_key hx⟩)
    simp [hpx]

theorem get_orders_apply (env : Env) (hsaved : k ∉ savedIds q) (hguarded : k ∉ guardedIds t q) :
    (q.apply env t).orders.get k = t.orders.get k := by
  cases q with
  | saveOrders rows => exact Table.get_saveAll_of_not_mem (by simpa [savedIds] using hsaved)
  | insertOrder row => exact Table.get_save_of_ne (by simpa [savedIds] using hsaved)
  | cancelActiveAsks =>
    refine get_updateOrders_of_not_mem ?_ hguarded
    exact fun _ => rfl
  | expireOrders =>
    refine get_updateOrders_of_not_mem ?_ hguarded
    exact fun _ => rfl
  | _ => rfl

theorem isSome_get_orders_apply (env : Env) (q : Stmt) (h : (t.orders.get k).isSome) :
    ((q.apply env t).orders.get k).isSome := by
  cases q with
  | saveOrders rows => exact Table.isSome_get_saveAll h
  | insertOrder row => exact Table.isSome_get_save h
  | cancelActiveAsks => simpa [Stmt.apply, get_updateOrders] using h
  | expireOrders => simpa [Stmt.apply, get_updateOrders] using h
  | _ => exact h

/-- Every statement locks the rows it changes. -/
theorem order_lock (h : k ∈ savedIds q ∨ k ∈ guardedIds t q) : .order k ∈ q.locks t := by
  cases q with
  | saveOrders rows => simpa [savedIds, guardedIds, Stmt.locks] using h
  | insertOrder row => simpa [savedIds, guardedIds, Stmt.locks] using h
  | cancelActiveAsks => simpa [savedIds, guardedIds, Stmt.locks] using h
  | expireOrders => simpa [savedIds, guardedIds, Stmt.locks] using h
  | _ => simp [savedIds, guardedIds] at h

theorem active_of_guarded {x : Order} (hx : t.orders.get k = some x) (h : k ∈ guardedIds t q) :
    x.status = .active := by
  have hmatch : ∀ p : Order → Bool, (∀ o, p o = true → o.status = .active) →
      k ∈ (t.orders.find p).map Order.id → x.status = .active := by
    intro p hp hk
    obtain ⟨y, hy, rfl⟩ := List.mem_map.mp hk
    obtain ⟨hmem, hpy⟩ := Table.mem_find.mp hy
    obtain rfl := Option.some.inj ((Table.get_of_mem hmem).symm.trans hx)
    exact hp y hpy
  cases q with
  | cancelActiveAsks => exact hmatch _ (by simp +contextual [Tables.isActiveAsk]) h
  | expireOrders => exact hmatch _ (by simp +contextual [Tables.isDue]) h
  | _ => simp [guardedIds] at h

/-- Every row that the call saves still has the status it had when the call loaded it. -/
def StillLoaded : Allowed Store BackendCmd := fun _ s c =>
  match c with
  | .inl (.auto (.saveOrders rows)) | .inl (.inTx (.saveOrders rows)) =>
    ∀ p ∈ rows, ∀ x ∈ s.stored.orders.get p.2.id, x.status = p.1.status
  | _ => True

instance (i : ℕ) (s : Store) (c : BackendCmd) : Decidable (StillLoaded i s c) := by
  unfold StillLoaded
  split <;> infer_instance

section Session
open Session

variable {i : ℕ} {s u : Store} {w : Stmt}

/-- The saved rows of a statement were active, or absent, when it ran. -/
def HitsActive (t : Tables) (q : Stmt) : Prop :=
  ∀ k ∈ savedIds q, ∀ x, t.orders.get k = some x → x.status = .active

/-- The open transactions save rows that are active or absent, no two of them the same row, and run
no guarded update. -/
structure BookInv (s : Store) : Prop where
  unguarded : ∀ v ∈ s.pending, ∀ t, guardedIds t v.2 = []
  active : ∀ v ∈ s.pending, HitsActive s.stored v.2
  apart : ∀ v ∈ s.pending, ∀ w ∈ s.pending, v.1 ≠ w.1 → ∀ k ∈ savedIds v.2, k ∉ savedIds w.2

theorem bookInv_opened (t : Tables) : BookInv (Session.opened t) :=
  ⟨fun _ h => (by cases h), fun _ h => (by cases h), fun _ h => (by cases h)⟩

/-- Where the stored rows that the open transactions save stay the same, their invariant holds. -/
theorem BookInv.of_get_eq (hs : BookInv s) (hsub : ∀ v ∈ u.pending, v ∈ s.pending)
    (hget : ∀ v ∈ u.pending, ∀ k ∈ savedIds v.2, u.stored.orders.get k = s.stored.orders.get k) :
    BookInv u where
  unguarded v hv := hs.unguarded v (hsub v hv)
  active v hv k hk x hx := hs.active v (hsub v hv) k hk x (hget v hv k hk ▸ hx)
  apart v hv w hw := hs.apart v (hsub v hv) w (hsub w hw)

theorem hitsActive_of_stillLoaded {rows : List (Order × Order)} (hrows : LoadedActive rows)
    (hok : ∀ p ∈ rows, ∀ x ∈ t.orders.get p.2.id, x.status = p.1.status) :
    HitsActive t (.saveOrders rows) := by
  intro k hk x hx
  obtain ⟨p, hp, rfl⟩ := List.mem_map.mp hk
  exact (hok p hp x hx).trans (hrows p hp)

theorem not_mem_savedIds_of_free {p : ℕ → Bool} (hfree : s.blocked (schema env) p w = false)
    {v : ℕ × Stmt} (hv : v ∈ s.pending) (hp : p v.1 = true) (hk : k ∈ savedIds v.2) :
    k ∉ savedIds w ∧ k ∉ guardedIds s.stored w := by
  have hwaits := not_waits_of_not_blocked hfree hv hp
  have hlocks : ∀ l ∈ w.locks s.stored, l ∉ v.2.locks s.stored := by
    simpa [schema] using hwaits
  constructor
  · exact fun hw => hlocks _ (order_lock (.inl hw)) (order_lock (.inl hk))
  · exact fun hw => hlocks _ (order_lock (.inr hw)) (order_lock (.inl hk))

/-- What the transaction of one task does to a row that it does not save: nothing. -/
theorem get_view (hs : BookInv s) (hk : ∀ v ∈ s.pendingOf i, k ∉ savedIds v.2) :
    (s.view (schema env) i).orders.get k = s.stored.orders.get k := by
  refine (schema env).replay_induction (P := fun t => t.orders.get k = s.stored.orders.get k) rfl
    fun v hv t ht => ?_
  have hnone : k ∉ guardedIds t v.2 := by
    simp [hs.unguarded v (mem_pendingOf.mp hv).1 t]
  exact (get_orders_apply env (hk v hv) hnone).trans ht

theorem isSome_get_view (env : Env) (i : ℕ) (h : (s.stored.orders.get k).isSome) :
    ((s.view (schema env) i).orders.get k).isSome :=
  (schema env).replay_induction (P := fun t => (t.orders.get k).isSome) h
    fun v _ _ ht => isSome_get_orders_apply env v.2 ht

theorem runAuto_keeps (hs : BookInv s) (hfree : s.blocked (schema env) (fun _ => true) w = false)
    (hw : HitsActive s.stored w) :
    BookInv (s.runAuto (schema env) i w) ∧
      Table.Keeps StatusKept s.stored.orders (s.runAuto (schema env) i w).stored.orders := by
  unfold runAuto
  split_ifs
  · refine ⟨hs.of_get_eq (fun _ h => h) fun v hv k hk => ?_, fun k x hx => ?_⟩
    · obtain ⟨hsaved, hguarded⟩ := not_mem_savedIds_of_free hfree hv rfl hk
      exact get_orders_apply env hsaved hguarded
    · obtain ⟨y, hy⟩ := Option.isSome_iff_exists.mp
        (isSome_get_orders_apply env w (Option.isSome_iff_exists.mpr ⟨x, hx⟩))
      refine ⟨y, hy, fun hclosed => ?_⟩
      have hsaved : k ∉ savedIds w := fun hk => hclosed (hw k hk x hx)
      have hguarded : k ∉ guardedIds s.stored w := fun hk => hclosed (active_of_guarded hx hk)
      have hget := (get_orders_apply env hsaved hguarded).symm.trans hy
      rw [Option.some.inj (hx.symm.trans hget)]
  · exact ⟨hs, Table.Keeps.refl StatusKept.refl _⟩

theorem runInTx_keeps (hs : BookInv s) (hfree : s.blocked (schema env) (· ≠ i) w = false)
    (hun : ∀ t, guardedIds t w = [])
    (hw : w.changes (s.view (schema env) i) = true → HitsActive s.stored w) :
    BookInv (s.runInTx (schema env) i w) := by
  unfold runInTx
  split_ifs with hch
  · have hother : ∀ v ∈ s.pending, v.1 ≠ i → ∀ k ∈ savedIds v.2, k ∉ savedIds w :=
      fun v hv hvi k hk => (not_mem_savedIds_of_free hfree hv (by simpa using hvi) hk).1
    refine ⟨?_, ?_, ?_⟩
    · intro v hv
      rcases List.mem_append.mp hv with hold | hnew
      · exact hs.unguarded v hold
      · obtain rfl := List.mem_singleton.mp hnew
        exact hun
    · intro v hv
      rcases List.mem_append.mp hv with hold | hnew
      · exact hs.active v hold
      · obtain rfl := List.mem_singleton.mp hnew
        exact hw hch
    · intro v hv v' hv' hne k hk hk'
      rcases List.mem_append.mp hv with hold | hnew <;>
        rcases List.mem_append.mp hv' with hold' | hnew'
      · exact hs.apart v hold v' hold' hne k hk hk'
      · obtain rfl := List.mem_singleton.mp hnew'
        exact hother v hold hne k hk hk'
      · obtain rfl := List.mem_singleton.mp hnew
        exact hother v' hold' (Ne.symm hne) k hk' hk
      · obtain rfl := List.mem_singleton.mp hnew
        obtain rfl := List.mem_singleton.mp hnew'
        exact hne rfl
  · exact hs

theorem commit_keeps (hs : BookInv s) :
    BookInv (s.commit (schema env) i) ∧
      Table.Keeps StatusKept s.stored.orders (s.commit (schema env) i).stored.orders := by
  constructor
  · refine hs.of_get_eq (fun v hv => (List.mem_filter.mp hv).1) fun v hv k hk => ?_
    obtain ⟨hmem, hvi⟩ := List.mem_filter.mp hv
    refine get_view hs fun v' hv' hk' => ?_
    obtain ⟨hmem', rfl⟩ := mem_pendingOf.mp hv'
    exact hs.apart v hmem v' hmem' (by simpa using hvi) k hk hk'
  · intro k x hx
    obtain ⟨y, hy⟩ := Option.isSome_iff_exists.mp
      (isSome_get_view env i (Option.isSome_iff_exists.mpr ⟨x, hx⟩))
    refine ⟨y, hy, fun hclosed => ?_⟩
    have hunsaved : ∀ v ∈ s.pendingOf i, k ∉ savedIds v.2 := fun v hv hk =>
      hclosed (hs.active v (mem_pendingOf.mp hv).1 k hk x hx)
    rw [Option.some.inj (hx.symm.trans ((get_view hs hunsaved).symm.trans hy))]

theorem rollback_keeps (hs : BookInv s) : BookInv (s.rollback i) :=
  hs.of_get_eq (fun _ hv => (List.mem_filter.mp hv).1) fun _ _ _ _ => rfl

/-- A row that is inserted was absent. -/
theorem hitsActive_insertOrder {row : Order}
    (hch : (Stmt.insertOrder row).changes (s.view (schema env) i) = true) :
    HitsActive s.stored (.insertOrder row) := by
  intro k hk x hx
  obtain rfl := List.mem_singleton.mp hk
  obtain ⟨y, hy⟩ := Option.isSome_iff_exists.mp
    (isSome_get_view env i (Option.isSome_iff_exists.mpr ⟨x, hx⟩))
  have habsent : ∀ o ∈ (s.view (schema env) i).orders.rows, o.id ≠ row.id := by
    intro o ho heq
    simp only [Stmt.changes, Bool.not_eq_true', List.any_eq_false] at hch
    simpa [heq] using hch o ho
  exact absurd (Table.get_key hy) (habsent y (Table.mem_of_get hy))

/-- One statement of an operation keeps the invariant and the statuses of the closed rows. -/
theorem exec_keeps {c : SqlCmd Stmt} {r : SqlRes Stmt.Res c} (hc : SavesActive (.inl c))
    (hok : StillLoaded i s (.inl c)) (hs : BookInv s)
    (h : s.exec (schema env) i c = some (r, u)) :
    BookInv u ∧ Table.Keeps StatusKept s.stored.orders u.stored.orders := by
  have hrefl := Table.Keeps.refl StatusKept.refl s.stored.orders
  rcases exec_cases h with ⟨w, rfl, hfree, rfl⟩ | ⟨w, rfl, hfree, rfl⟩ | ⟨rfl, rfl⟩ | ⟨rfl, rfl⟩
  · refine runAuto_keeps hs hfree ?_
    cases w with
    | saveOrders rows => exact hitsActive_of_stillLoaded hc hok
    | insertOrder row => exact hc.elim
    | _ => exact fun k hk => by simp [savedIds] at hk
  · have hstored : (s.runInTx (schema env) i w).stored = s.stored := by
      unfold runInTx
      split_ifs <;> rfl
    rw [hstored]
    refine ⟨runInTx_keeps hs hfree ?_ ?_, hrefl⟩
    · cases w with
      | cancelActiveAsks => exact hc.elim
      | expireOrders => exact hc.elim
      | _ => exact fun t => rfl
    · cases w with
      | saveOrders rows => exact fun _ => hitsActive_of_stillLoaded hc hok
      | insertOrder row => exact hitsActive_insertOrder
      | _ => exact fun _ k hk => by simp [savedIds] at hk
  · exact commit_keeps hs
  · exact ⟨rollback_keeps hs, hrefl⟩

end Session

/-- A call of one of the operations. The two wallet views reconcile the orders they find. -/
inductive OrderCall where
  | fulfillOrder (orderHash : JsStr) (buyerAddress : Option JsStr) (chainId : Option ℕ)
      (fillTxHash : Option JsStr)
  | fulfillMatchedPair (askHash bidHash : JsStr) (chainId : Option ℕ)
  | cancelOrder (orderHash callerAddress : JsStr)
  | replaceSellerListing (oldOrderHash callerAddress : JsStr) (dto : CreateOrderDto) (chainId : ℕ)
  | replaceBuyerBid (oldOrderHash callerAddress : JsStr) (dto : CreateOrderDto) (chainId : ℕ)
  | invalidateDeadBid (orderHash callerAddress : JsStr) (chainId : ℕ)
  | invalidateUnownedAsk (orderHash callerAddress : JsStr) (chainId : ℕ)
  | findActiveAsksByOfferer (offererAddress : JsStr) (limit : Option ℕ) (chainId : ℕ)
  | findCollectionBidsByOfferer (offererAddress : JsStr) (limit : Option ℕ) (chainId : ℕ)
  | expireOrders

def forget {α : Type} (p : BackendM α) : BackendM Unit := p >>= fun _ => pure ()

def OrderCall.task (env : Env) : OrderCall → BackendM Unit
  | fulfillOrder orderHash buyerAddress chainId fillTxHash =>
    forget (Orders.fulfillOrder env orderHash buyerAddress chainId fillTxHash)
  | fulfillMatchedPair askHash bidHash chainId =>
    forget (Orders.fulfillMatchedPair env askHash bidHash chainId)
  | cancelOrder orderHash callerAddress => forget (Orders.cancelOrder orderHash callerAddress)
  | replaceSellerListing oldOrderHash callerAddress dto chainId =>
    forget (Orders.replaceSellerListing env oldOrderHash callerAddress dto chainId)
  | replaceBuyerBid oldOrderHash callerAddress dto chainId =>
    forget (Orders.replaceBuyerBid env oldOrderHash callerAddress dto chainId)
  | invalidateDeadBid orderHash callerAddress chainId =>
    forget (Orders.invalidateDeadBid orderHash callerAddress chainId)
  | invalidateUnownedAsk orderHash callerAddress chainId =>
    forget (Orders.invalidateUnownedAsk env orderHash callerAddress chainId)
  | findActiveAsksByOfferer offererAddress limit chainId =>
    Orders.findActiveAsksByOfferer env offererAddress limit chainId
  | findCollectionBidsByOfferer offererAddress limit chainId =>
    Orders.findCollectionBidsByOfferer env offererAddress limit chainId
  | expireOrders => Orders.expireOrders

theorem task_savesActive (c : OrderCall) : (c.task env).Issues SavesActive := by
  have hforget : ∀ {α : Type} {p : BackendM α}, p.Issues SavesActive →
      (forget p).Issues SavesActive := fun hp => Prog.issues_bind hp fun _ => Prog.issues_ret _
  have hloaded : ∀ {α : Type} {p : BackendM α}, p.Issues SavesLoaded → p.Issues SavesActive :=
    fun hp => Prog.issues_mono savesActive_of_savesLoaded hp
  cases c with
  | fulfillOrder => exact hforget (hloaded (fulfillOrder_savesLoaded _ _ _ _))
  | fulfillMatchedPair => exact hforget (hloaded (fulfillMatchedPair_savesLoaded _ _ _))
  | cancelOrder => exact hforget (hloaded (cancelOrder_savesLoaded _ _))
  | replaceSellerListing => exact hforget (replaceSellerListing_savesActive _ _ _ _)
  | replaceBuyerBid => exact hforget (replaceBuyerBid_savesActive _ _ _ _)
  | invalidateDeadBid => exact hforget (hloaded (invalidateDeadBid_savesLoaded _ _ _))
  | invalidateUnownedAsk => exact hforget (hloaded (invalidateUnownedAsk_savesLoaded _ _ _))
  | findActiveAsksByOfferer => exact hloaded (findActiveAsksByOfferer_savesLoaded _ _ _)
  | findCollectionBidsByOfferer => exact hloaded (findCollectionBidsByOfferer_savesLoaded _ _ _)
  | expireOrders => exact hloaded expireOrders_savesLoaded

/-- The statuses of closed rows only accumulate. -/
def bookContract : Contract Store :=
  .ofPreorder BookInv (fun s u => Table.Keeps StatusKept s.stored.orders u.stored.orders)
    (fun _ => Table.Keeps.refl StatusKept.refl _) (fun _ _ _ => Table.Keeps.trans StatusKept.trans)

theorem task_keeps (c : OrderCall) (i : ℕ) (s : Store) :
    wp (backendHandler env) StillLoaded bookContract i (c.task env) anyEnd s := by
  have hstable : bookContract.Stable i (fun _ => True) := fun _ _ _ _ _ => trivial
  refine wp_mono (fun _ _ _ => trivial) (wp_of_issues hstable ?_ (task_savesActive c) trivial)
  intro c hc t x r u ht _ hok hu
  cases c with
  | inl c =>
    obtain ⟨hinv, hkept⟩ := exec_keeps hc hok ht hu
    exact ⟨hinv, hkept, trivial⟩
  | inr q =>
    obtain ⟨-, rfl⟩ := Prod.mk.inj (Option.some.inj hu)
    exact ⟨ht, bookContract.rely_refl i t, trivial⟩

abbrev OrderPool := Pool Store BackendCmd BackendRes HttpError Unit

def orderStart (t : Tables) : OrderPool := ⟨Session.opened t, []⟩

abbrev OrderReach (env : Env) (Ok : Allowed Store BackendCmd) (p q : OrderPool) : Prop :=
  Pool.Reach (backendHandler env) (OrderCall.task env) Ok p q

/-- In the runs in which every save finds the statuses that its call loaded, a row that has left
ACTIVE keeps its status for the rest of the run. -/
theorem orders_leave_active_once (env : Env) (t : Tables) (p q : OrderPool)
    (hp : OrderReach env StillLoaded (orderStart t) p) (hq : OrderReach env StillLoaded p q) :
    Table.Keeps StatusKept p.shared.stored.orders q.shared.stored.orders := by
  have hsafe : Pool.Safe (backendHandler env) StillLoaded bookContract (fun _ => anyEnd) p :=
    Pool.safe_reach stablePost_anyEnd (fun c i s _ => task_keeps c i s) hp
      (Pool.safe_nil (bookInv_opened t))
  exact Pool.evolves_of_reach stablePost_anyEnd (fun c i s _ => task_keeps c i s)
    (bookContract.rely_refl 0) (bookContract.rely_trans 0) (fun _ _ _ h => h) hsafe hq

section Runs

def seller : JsStr := js "0x00000000000000000000000000000000000000aa"

def listedCard : Order where
  id := 1
  orderHash := js "0xa1"
  offerer := seller
  side := .ask
  tokenContract := js "0x00000000000000000000000000000000000000cc"
  tokenId := js "7"
  considerationAmount := js "100"

def listedBook : Tables where
  orders := ⟨[listedCard], by decide⟩
  tokens := []
  holdings := []
  settlements := []
  assets := []
  cycles := Table.empty
  claims := Table.empty
  redemptions := Table.empty

def filledWorld : World
  | .getOrderHash .. => .ok (js "0xa1")
  | .getOrderStatus .. => .ok ⟨true, false, 1, 1⟩
  | q => idleWorld q

def orderSteps (i n : ℕ) : List (Pool.Event OrderCall World) :=
  List.replicate n (.run i filledWorld)

def statusOf (k : ℕ) (p : OrderPool) : Option OrderStatus :=
  (p.shared.stored.orders.get k).map Order.status

theorem not_keeps_of_statusOf {p q : OrderPool} {k : ℕ} {a b : OrderStatus}
    (hp : statusOf k p = some a) (hq : statusOf k q = some b) (ha : a ≠ .active) (hab : b ≠ a) :
    ¬ Table.Keeps StatusKept p.shared.stored.orders q.shared.stored.orders := by
  intro hkeeps
  obtain ⟨x, hx, rfl⟩ := Option.map_eq_some_iff.mp hp
  obtain ⟨y, hy, hxy⟩ := hkeeps k x hx
  have hyb : statusOf k q = some y.status := by simp [statusOf, hy]
  rw [hq, Option.some.injEq] at hyb
  exact hab (hyb.trans (hxy ha))

/-- The listing is fulfilled, and a later cancellation is rejected. -/
theorem orders_leave_active_once_lateCancel :
    ∃ p q, OrderReach {} StillLoaded (orderStart listedBook) p ∧ OrderReach {} StillLoaded p q ∧
      statusOf 1 p = some .fulfilled ∧
      Table.Keeps StatusKept p.shared.stored.orders q.shared.stored.orders := by
  have hplay : ∃ p q, OrderReach {} StillLoaded (orderStart listedBook) p ∧
      OrderReach {} StillLoaded p q ∧ statusOf 1 p = some .fulfilled ∧
      statusOf 1 q = some .fulfilled :=
    Pool.exists_reach_of_two_schedules
      (.spawn (.fulfillOrder (js "0xa1") none none none) :: orderSteps 0 6)
      (.spawn (.cancelOrder (js "0xa1") seller) :: orderSteps 1 2) (statusOf 1) (by decide)
  obtain ⟨p, q, hp, hq, hfulfilled, -⟩ := hplay
  exact ⟨p, q, hp, hq, hfulfilled, orders_leave_active_once {} listedBook p q hp hq⟩

/-- The cancellation loads the active row, the fulfilment runs, and the cancellation saves over it. -/
theorem fulfilled_order_cancelled :
    ∃ p q, OrderReach {} anyStep (orderStart listedBook) p ∧ OrderReach {} anyStep p q ∧
      ¬ Table.Keeps StatusKept p.shared.stored.orders q.shared.stored.orders := by
  have hplay : ∃ p q, OrderReach {} anyStep (orderStart listedBook) p ∧
      OrderReach {} anyStep p q ∧ statusOf 1 p = some .fulfilled ∧
      statusOf 1 q = some .cancelled :=
    Pool.exists_reach_of_two_schedules
      (.spawn (.cancelOrder (js "0xa1") seller) ::
        .spawn (.fulfillOrder (js "0xa1") none none none) :: orderSteps 0 3 ++ orderSteps 1 6)
      (orderSteps 0 1) (statusOf 1) (by decide)
  obtain ⟨p, q, hp, hq, hfulfilled, hcancelled⟩ := hplay
  exact ⟨p, q, hp, hq, not_keeps_of_statusOf hfulfilled hcancelled (by decide) (by decide)⟩

end Runs

end Orders
