import Tokenable.Async.Triple
import Tokenable.Orders.Commands

/-!
# What the fulfilment checks establish

The world outside changes during a run: `world n` are its answers at time `n`. Each command takes
some time, and a request is answered by the world at the time when it is performed. The evidence of
a fill consists of answers given between the start of the run and now, so it is never lost.

The checks are read-only, so their triples say what their success proves about these answers.
-/

namespace Orders
open Js Platform Async Db Vault Settlement Backend

/-- The answers of the world over time, the book at the start of a run and the time of the start. -/
structure History where
  env : Env
  world : ℕ → World
  book : Tables
  start : ℕ

abbrev Moment := Store × ℕ

namespace History

def handler (h : History) : Handler Moment ℕ BackendCmd BackendRes
  | i, s, d, .inl c => (s.1.exec (schema h.env) i c).map fun rt => (rt.1, (rt.2, s.2 + d))
  | _, s, d, .inr q => some (h.world (s.2 + d) q, (s.1, s.2 + d))

/-- The world has answered `r` between the start and time `n`. -/
def During (h : History) (n : ℕ) (q : Rpc) (r : q.Res) : Prop :=
  ∃ m, h.start ≤ m ∧ m ≤ n ∧ h.world m q = r

/-- `getOrderStatus` has reported the order fully filled. -/
def Filled (h : History) (n chainId : ℕ) (o : Order) : Prop :=
  ∃ hash status,
    h.During n (.getOrderHash chainId (seaportHashableParameters o.parameters)) (.ok hash) ∧
    h.During n (.getOrderStatus chainId (withHexPrefix (lower hash))) (.ok status) ∧
    seaportOrderIsFullyFilled status = true

/-- `ownerOf` has named the owner of the token of the row, on a chain whose contract the row names. -/
def OwnedBy (h : History) (n chainId : ℕ) (contract tokenId owner : JsStr) : Prop :=
  ∃ tid raw, toNumber (normalizeDecimalTokenId tokenId) = some tid ∧
    h.env.getRwaAddress chainId = .ok (lower contract) ∧
    h.During n (.ownerOf chainId (lower contract) tid) (.ok raw) ∧ owner = lower (trim raw)

/-- Somebody else than the seller has owned the token of the ask. -/
def Moved (h : History) (n chainId : ℕ) (ask : Order) : Prop :=
  ∃ owner, h.OwnedBy n chainId ask.tokenContract ask.tokenId owner ∧
    owner ≠ lower (trim ask.offerer)

def Received (h : History) (n chainId : ℕ) (bid ask : Order) : Prop :=
  h.OwnedBy n chainId ask.tokenContract ask.tokenId (lower (trim bid.offerer))

end History

/-- What the operations never change of a row. A fill completes a missing token id. -/
structure SameListing (x y : Order) : Prop where
  id : y.id = x.id
  orderHash : y.orderHash = x.orderHash
  offerer : y.offerer = x.offerer
  side : y.side = x.side
  tokenContract : y.tokenContract = x.tokenContract
  collectionKey : y.collectionKey = x.collectionKey
  parameters : seaportHashableParameters y.parameters = seaportHashableParameters x.parameters
  tokenId : y.tokenId = x.tokenId ∨ y.tokenId = (backfillAskTokenIdFromParameters x).tokenId

/-- A row of the book, as it was at the start or closed since. -/
def RowOf (book : Tables) (o : Order) : Prop :=
  ∃ x ∈ book.orders.rows, SameListing x o ∧ (o.status = .active → o = x)

def OnChain (env : Env) (chainId : ℕ) (o : Order) : Prop :=
  env.getRwaAddress chainId = .ok (lower o.tokenContract)

def SameCollection (a b : Order) : Prop :=
  (collectionOf a).isEmpty ∨ (collectionOf b).isEmpty ∨ collectionOf a = collectionOf b

/-- Why the order counts as filled: Seaport says so, or the listed token has left its seller, or the
bidder has the token of a listing of the collection that was filled or has left its seller. -/
inductive FillEvidence (h : History) (n : ℕ) (x : Order) : Prop where
  | filled (chainId : ℕ) (hchain : OnChain h.env chainId x) (hfilled : h.Filled n chainId x)
  | moved (chainId : ℕ) (hchain : OnChain h.env chainId x) (hside : x.side = .ask)
      (hmoved : h.Moved n chainId x)
  | received (chainId : ℕ) (hchain : OnChain h.env chainId x) (hside : x.side = .bid) (ask : Order)
      (hrow : RowOf h.book ask) (hask : ask.side = .ask)
      (hcontract : lower ask.tokenContract = lower x.tokenContract)
      (hcollection : SameCollection ask x)
      (hconsumed : h.Filled n chainId ask ∨ h.Moved n chainId ask)
      (hreceived : h.Received n chainId x ask)

/-- Every stored row is a row of the book; the active ones are untouched, and the fulfilled ones
were so at the start or have evidence. -/
structure FillInv (h : History) (s : Moment) : Prop where
  started : h.start ≤ s.2
  idle : s.1.pending = []
  rows : ∀ y ∈ s.1.stored.orders.rows, ∃ x ∈ h.book.orders.rows, SameListing x y ∧
    (y.status = .active → y = x) ∧
    (y.status = .fulfilled → x.status = .fulfilled ∨ FillEvidence h s.2 x)

def History.contract (h : History) : Contract Moment :=
  .ofPreorder (FillInv h) (fun s t => s.2 ≤ t.2) (fun _ => Nat.le_refl _)
    (fun _ _ _ => Nat.le_trans)

abbrev FillTriple {α : Type} (h : History) (K : Moment → Prop) (p : BackendM α)
    (F : α → Moment → Prop) : Prop :=
  Triple h.handler anyStep h.contract K p F

variable {h : History} {n m : ℕ} {chainId : ℕ}

section Mono

theorem History.During.mono {q : Rpc} {r : q.Res} (hnm : n ≤ m) (hr : h.During n q r) :
    h.During m q r := by
  obtain ⟨k, hstart, hk, hr⟩ := hr
  exact ⟨k, hstart, hk.trans hnm, hr⟩

theorem History.Filled.mono {o : Order} (hnm : n ≤ m) (ho : h.Filled n chainId o) :
    h.Filled m chainId o := by
  obtain ⟨hash, status, hhash, hstatus, hfull⟩ := ho
  exact ⟨hash, status, hhash.mono hnm, hstatus.mono hnm, hfull⟩

theorem History.OwnedBy.mono {contract tokenId owner : JsStr} (hnm : n ≤ m)
    (ho : h.OwnedBy n chainId contract tokenId owner) :
    h.OwnedBy m chainId contract tokenId owner := by
  obtain ⟨tid, raw, htid, hrwa, hraw, howner⟩ := ho
  exact ⟨tid, raw, htid, hrwa, hraw.mono hnm, howner⟩

theorem History.Moved.mono {ask : Order} (hnm : n ≤ m) (hm : h.Moved n chainId ask) :
    h.Moved m chainId ask := by
  obtain ⟨owner, howner, hne⟩ := hm
  exact ⟨owner, howner.mono hnm, hne⟩

theorem FillEvidence.mono {x : Order} (hnm : n ≤ m) (hx : FillEvidence h n x) :
    FillEvidence h m x := by
  cases hx with
  | filled chainId hchain hfilled => exact .filled chainId hchain (hfilled.mono hnm)
  | moved chainId hchain hside hmoved => exact .moved chainId hchain hside (hmoved.mono hnm)
  | received chainId hchain hside ask hrow hask hcontract hcollection hconsumed hreceived =>
    exact .received chainId hchain hside ask hrow hask hcontract hcollection
      (hconsumed.imp (History.Filled.mono hnm) (History.Moved.mono hnm))
      (History.OwnedBy.mono hnm hreceived)

/-- What was true once of the answers so far stays true. -/
theorem persistent_of_mono {P : ℕ → Prop} (hP : ∀ n m, n ≤ m → P n → P m) :
    h.contract.Persistent (fun s => P s.2) := by
  intro i s t hst hs
  exact hP s.2 t.2 (hst.elim id id) hs

end Mono

section Steps

theorem SameListing.refl (x : Order) : SameListing x x := ⟨rfl, rfl, rfl, rfl, rfl, rfl, rfl, .inl rfl⟩

/-- A row that only changes its status and its date is the same listing. -/
theorem SameListing.closed {x y : Order} (hxy : SameListing x y) (status : OrderStatus) (at_ : ℕ) :
    SameListing x { y with status := status, updatedAt := at_ } :=
  ⟨hxy.id, hxy.orderHash, hxy.offerer, hxy.side, hxy.tokenContract, hxy.collectionKey,
    hxy.parameters, hxy.tokenId⟩

theorem FillInv.rowOf {s : Moment} (hs : FillInv h s) {y : Order}
    (hy : y ∈ s.1.stored.orders.rows) : RowOf h.book y := by
  obtain ⟨x, hx, hsame, hactive, -⟩ := hs.rows y hy
  exact ⟨x, hx, hsame, hactive⟩

/-- A quiet statement leaves each row alone, or closes an active one as cancelled or expired. -/
theorem mem_orders_apply_of_quiet {env : Env} {t : Tables} {q : Stmt} (hq : Quiet (.inl (.auto q)))
    {y : Order} (hy : y ∈ (q.apply env t).orders.rows) :
    y ∈ t.orders.rows ∨ ∃ z ∈ t.orders.rows, ∃ status at_, status ≠ .active ∧
      status ≠ .fulfilled ∧ y = { z with status := status, updatedAt := at_ } := by
  have hupdate : ∀ (p : Order → Bool) (status : OrderStatus) (at_ : ℕ) (hf : ∀ o : Order,
      ({ o with status := status, updatedAt := at_ } : Order).id = o.id),
      status ≠ .active → status ≠ .fulfilled →
      y ∈ (t.updateOrders p (fun o => { o with status := status, updatedAt := at_ }) hf).orders.rows →
      y ∈ t.orders.rows ∨ ∃ z ∈ t.orders.rows, ∃ status at_, status ≠ .active ∧
        status ≠ .fulfilled ∧ y = { z with status := status, updatedAt := at_ } := by
    intro p status at_ hf hactive hfulfilled hy
    obtain ⟨z, hz, rfl⟩ := List.mem_map.mp hy
    by_cases hpz : p z = true
    · exact .inr ⟨z, hz, status, at_, hactive, hfulfilled, if_pos hpz⟩
    · exact .inl (by simpa [hpz] using hz)
  cases q with
  | saveOrders => exact hq.elim
  | insertOrder => exact hq.elim
  | cancelActiveAsks contract tokenId except at_ =>
    exact hupdate _ .cancelled at_ (fun _ => rfl) (by decide) (by decide) hy
  | expireOrders now => exact hupdate _ .expired now (fun _ => rfl) (by decide) (by decide) hy
  | _ => exact .inl hy

/-- A statement outside transactions runs on the stored tables. -/
theorem handler_auto {i d : ℕ} {s t : Moment} {q : Stmt} {r : q.Res}
    (hstep : h.handler i s d (.inl (.auto q)) = some (r, t)) :
    r = q.answer s.1.stored ∧ t = (s.1.runAuto (schema h.env) i q, s.2 + d) := by
  obtain ⟨⟨r', u⟩, hexec, heq⟩ := Option.map_eq_some_iff.mp hstep
  obtain ⟨rfl, rfl⟩ := Prod.mk.inj heq
  obtain ⟨-, rfl, rfl⟩ := exec_auto_eq_some.mp hexec
  exact ⟨rfl, rfl⟩

theorem handler_rpc {i d : ℕ} {s t : Moment} {q : Rpc} {r : q.Res}
    (hstep : h.handler i s d (.inr q) = some (r, t)) :
    r = h.world (s.2 + d) q ∧ t = (s.1, s.2 + d) := by
  obtain ⟨rfl, rfl⟩ := Prod.mk.inj (Option.some.inj hstep)
  exact ⟨rfl, rfl⟩

/-- The invariant of a later moment, from what became of the rows. -/
theorem FillInv.later {s t : Moment} (hs : FillInv h s) (hst : s.2 ≤ t.2) (hidle : t.1.pending = [])
    (hrows : ∀ y ∈ t.1.stored.orders.rows, y ∈ s.1.stored.orders.rows ∨
      ∃ x ∈ h.book.orders.rows, SameListing x y ∧ y.status ≠ .active ∧
        (y.status = .fulfilled → x.status = .fulfilled ∨ FillEvidence h t.2 x)) : FillInv h t where
  started := hs.started.trans hst
  idle := hidle
  rows y hy := by
    rcases hrows y hy with hold | ⟨x, hx, hsame, hactive, hfulfilled⟩
    · obtain ⟨x, hx, hsame, hactive, hfulfilled⟩ := hs.rows y hold
      exact ⟨x, hx, hsame, hactive, fun hy => (hfulfilled hy).imp_right (FillEvidence.mono hst)⟩
    · exact ⟨x, hx, hsame, fun hy => absurd hy hactive, hfulfilled⟩

theorem mem_orders_runAuto {s : Store} {i : ℕ} {q : Stmt} {env : Env} {y : Order}
    (hy : y ∈ (s.runAuto (schema env) i q).stored.orders.rows) :
    y ∈ s.stored.orders.rows ∨ y ∈ (q.apply env s.stored).orders.rows := by
  unfold Session.runAuto at hy
  split_ifs at hy
  · exact .inr hy
  · exact .inl hy

theorem quiet_keeps {c : BackendCmd} (hc : Quiet c) (i : ℕ) (s : Moment) (d : ℕ)
    (r : BackendRes c) (t : Moment) (hs : FillInv h s) (hstep : h.handler i s d c = some (r, t)) :
    FillInv h t ∧ s.2 ≤ t.2 := by
  rcases c with (q | _ | _ | _) | q
  · obtain ⟨-, rfl⟩ := handler_auto hstep
    refine ⟨hs.later (Nat.le_add_right _ _) ((runAuto_pending _).trans hs.idle) fun y hy => ?_,
      Nat.le_add_right _ _⟩
    rcases mem_orders_runAuto hy with hold | hnew
    · exact .inl hold
    · rcases mem_orders_apply_of_quiet hc hnew with hold | ⟨z, hz, status, at_, ha, hf, rfl⟩
      · exact .inl hold
      · obtain ⟨x, hx, hsame, -⟩ := hs.rows z hz
        exact .inr ⟨x, hx, hsame.closed status at_, ha, fun h => absurd h hf⟩
  · exact hc.elim
  · exact hc.elim
  · exact hc.elim
  · obtain ⟨-, rfl⟩ := handler_rpc hstep
    exact ⟨hs.later (Nat.le_add_right _ _) hs.idle fun y hy => .inl hy, Nat.le_add_right _ _⟩

end Steps

section Checks

variable {K : Moment → Prop} {α : Type} {F : α → Moment → Prop}

theorem FillTriple.weaken {p : BackendM α} (hp : FillTriple h (fun _ => True) p F) :
    FillTriple h K p F := triple_conseq hp (fun _ _ => trivial) fun _ _ hF => hF

theorem triple_quiet {p : BackendM α} (hK : h.contract.Persistent K) (hp : p.Issues Quiet) :
    FillTriple h K p (fun _ => K) :=
  triple_of_issues hK (fun _ hc i t x r u ht _ hu => quiet_keeps hc i t x r u ht hu) hp

theorem triple_rpc (q : Rpc) : FillTriple h K (rpc q) (fun r s => h.During s.2 q r) := by
  refine FillTriple.weaken (triple_call (persistent_const True) fun i t ht _ _ d r u hu => ?_)
  obtain ⟨hinv, hle⟩ := quiet_keeps (c := .inr q) trivial i t d r u ht hu
  obtain ⟨rfl, rfl⟩ := handler_rpc hu
  refine ⟨hinv, hle, fun a ha => ?_⟩
  obtain rfl := Except.ok.inj ha
  exact ⟨t.2 + d, hinv.started, Nat.le_refl _, rfl⟩

/-- A read of the stored tables. -/
theorem triple_read {q : Stmt} (hq : Quiet (.inl (.auto q))) {G : q.Res → Prop}
    (hG : ∀ s, FillInv h s → G (q.answer s.1.stored)) :
    FillTriple h K (db q) (fun r _ => G r) := by
  refine FillTriple.weaken (triple_call (persistent_const True) fun i t ht _ _ d r u hu => ?_)
  obtain ⟨hinv, hle⟩ := quiet_keeps (c := .inl (.auto q)) hq i t d r u ht hu
  obtain ⟨rfl, rfl⟩ := handler_auto hu
  refine ⟨hinv, hle, fun a ha => ?_⟩
  obtain rfl := Except.ok.inj ha
  exact hG t ht

theorem persistent_during {q : Rpc} {r : q.Res} :
    h.contract.Persistent (fun s => h.During s.2 q r) :=
  persistent_of_mono (P := fun n => h.During n q r) fun _ _ hnm hr => hr.mono hnm

theorem persistent_moved {ask : Order} :
    h.contract.Persistent (fun s => h.Filled s.2 chainId ask ∨ h.Moved s.2 chainId ask) :=
  persistent_of_mono (P := fun n => h.Filled n chainId ask ∨ h.Moved n chainId ask)
    fun _ _ hnm => Or.imp (History.Filled.mono hnm) (History.Moved.mono hnm)

theorem readSeaportFilled_triple (order : Order) (chainId : ℕ) :
    FillTriple h K (readSeaportFilled order chainId)
      (fun filled s => filled = .ok true → h.Filled s.2 chainId order) := by
  refine triple_bind (triple_rpc _) fun hash => ?_
  cases hash with
  | error message => exact triple_ok fun s _ hok => by cases hok
  | ok hash =>
    refine triple_seq persistent_during (triple_rpc _) fun status => triple_ok fun s hs hok => ?_
    cases status with
    | error message => cases hok
    | ok status => exact ⟨hash, status, hs.2, hs.1, Except.ok.inj hok⟩

theorem isSeaportOrderFullyFilledOnChain_triple (order : Order) (chainId : ℕ) :
    FillTriple h K (isSeaportOrderFullyFilledOnChain order chainId)
      (fun b s => b = true → h.Filled s.2 chainId order) := by
  refine triple_bind (readSeaportFilled_triple order chainId) fun filled => ?_
  refine triple_ok fun s hs hb => hs ?_
  rcases filled with message | b
  · simp [Except.toOption] at hb
  · simpa [Except.toOption] using hb

theorem assertSeaportOrderFilledOnChain_triple (order : Order) (chainId : ℕ) :
    FillTriple h K (assertSeaportOrderFilledOnChain order chainId)
      (fun _ s => h.Filled s.2 chainId order) := by
  refine triple_bind (readSeaportFilled_triple order chainId) fun filled => ?_
  rcases filled with message | b
  · exact triple_error
  · cases b with
    | true => exact triple_ok fun s hs => hs rfl
    | false => exact triple_error

theorem ownerAnswer_eq_ok {tid : ℕ} {expected owner : JsStr} {answer : Except JsStr JsStr}
    (ho : ownerAnswer tid chainId expected answer = .ok owner) :
    ∃ raw, answer = .ok raw ∧ owner = lower (trim raw) := by
  cases answer with
  | ok raw =>
    simp only [ownerAnswer] at ho
    split_ifs at ho
    exact ⟨raw, rfl, (Except.ok.inj ho).symm⟩
  | error message =>
    simp only [ownerAnswer] at ho
    split_ifs at ho

theorem readOnChainRwaOwner_triple (tokenContract tokenId : JsStr) (chainId : ℕ) :
    FillTriple h K (readOnChainRwaOwner h.env tokenContract tokenId chainId)
      (fun owner s => h.OwnedBy s.2 chainId tokenContract tokenId owner) := by
  refine triple_bind (F := fun tid _ => toNumber (normalizeDecimalTokenId tokenId) = some tid)
    (triple_orThrow fun tid htid _ _ => htid) fun tid => ?_
  refine triple_seq (F := fun expected _ => h.env.getRwaAddress chainId = .ok expected)
    (persistent_const _) (triple_ret fun expected hexp _ _ => hexp) fun expected => ?_
  refine triple_bind (triple_throwIf (G := fun _ => lower tokenContract = expected ∧
    h.env.getRwaAddress chainId = .ok expected ∧
      toNumber (normalizeDecimalTokenId tokenId) = some tid)
    fun hb s hs => ⟨by simpa using hb, hs⟩) fun _ => ?_
  refine triple_seq (persistent_const _) (triple_rpc _) fun answer => ?_
  refine triple_ret fun owner howner s hs => ?_
  obtain ⟨hanswer, rfl, hexp, htid⟩ := hs
  obtain ⟨raw, rfl, rfl⟩ := ownerAnswer_eq_ok howner
  exact ⟨tid, raw, htid, hexp, hanswer, rfl⟩

theorem ownedBy_normalized {contract tokenId owner : JsStr}
    (ho : h.OwnedBy n chainId contract (normalizeDecimalTokenId tokenId) owner) :
    h.OwnedBy n chainId contract tokenId owner := by
  obtain ⟨tid, raw, htid, hrest⟩ := ho
  exact ⟨tid, raw, normalizeDecimalTokenId_idem tokenId ▸ htid, hrest⟩

theorem askOwnerIs_triple (ask : Order) (chainId : ℕ) (test : JsStr → Bool) :
    FillTriple h K (askOwnerIs h.env ask chainId test) (fun b s => b = true → ∃ owner,
      h.OwnedBy s.2 chainId ask.tokenContract ask.tokenId owner ∧ test owner = true) := by
  refine FillTriple.weaken ?_
  unfold askOwnerIs
  dsimp only
  split_ifs
  · exact triple_ok fun s _ hb => by cases hb
  · refine triple_settle (persistent_const True) (readOnChainRwaOwner_triple _ _ _) ?_ ?_
    · exact fun owner => triple_ok fun s hs hb => ⟨owner, ownedBy_normalized hs, hb⟩
    · exact fun e => triple_ok fun s _ hb => by cases hb

/-- `p || q`, where the truth of each establishes something. -/
theorem orElse_triple {p q : BackendM Bool} {G : Moment → Prop} (hK : h.contract.Persistent K)
    (hp : FillTriple h K p (fun b s => b = true → G s))
    (hq : FillTriple h K q (fun b s => b = true → G s)) :
    FillTriple h K (orElse p q) (fun b s => b = true → G s) := by
  refine triple_seq hK hp fun b => ?_
  cases b with
  | true => exact triple_ok fun s hs _ => hs.1 rfl
  | false => exact triple_conseq hq (fun s hs => hs.2) fun _ _ hG => hG

theorem isAskListingConsumedOnChain_triple (ask : Order) (chainId : ℕ) :
    FillTriple h K (isAskListingConsumedOnChain h.env ask chainId)
      (fun b s => b = true → h.Filled s.2 chainId ask ∨ h.Moved s.2 chainId ask) := by
  refine FillTriple.weaken (orElse_triple (persistent_const True) ?_ ?_)
  · exact triple_conseq (isSeaportOrderFullyFilledOnChain_triple ask chainId) (fun _ hs => hs)
      fun b s hs hb => .inl (hs hb)
  · refine triple_conseq (askOwnerIs_triple ask chainId _) (fun _ hs => hs) fun b s hs hb => ?_
    obtain ⟨owner, howner, hne⟩ := hs hb
    exact .inr ⟨owner, howner, by simpa using hne⟩

theorem isBidSettledForAsk_triple (bid ask : Order) (chainId : ℕ) :
    FillTriple h K (isBidSettledForAsk h.env bid ask chainId)
      (fun b s => b = true → h.Filled s.2 chainId bid ∨ h.Received s.2 chainId bid ask) := by
  refine FillTriple.weaken (orElse_triple (persistent_const True) ?_ ?_)
  · exact triple_conseq (isSeaportOrderFullyFilledOnChain_triple bid chainId) (fun _ hs => hs)
      fun b s hs hb => .inl (hs hb)
  · refine triple_conseq (askOwnerIs_triple ask chainId _) (fun _ hs => hs) fun b s hs hb => ?_
    obtain ⟨owner, howner, heq⟩ := hs hb
    obtain rfl : owner = lower (trim bid.offerer) := by simpa using heq
    exact .inr howner

/-- Seaport has filled the bid, or its bidder has the token of one of the asks, and that ask was
filled or its token has left the seller. -/
def SettledByOne (h : History) (n chainId : ℕ) (bid : Order) (asks : List Order) : Prop :=
  h.Filled n chainId bid ∨ ∃ ask ∈ asks, (h.Filled n chainId ask ∨ h.Moved n chainId ask) ∧
    h.Received n chainId bid ask

theorem anySettledAsk_triple (bid : Order) (chainId : ℕ) (asks : List Order) :
    FillTriple h K (anySettledAsk h.env bid chainId asks)
      (fun b s => b = true → SettledByOne h s.2 chainId bid asks) := by
  refine FillTriple.weaken ?_
  induction asks with
  | nil => exact triple_ok fun s _ hb => by cases hb
  | cons ask asks ih =>
    have hrest : ∀ {K : Moment → Prop}, FillTriple h K (anySettledAsk h.env bid chainId asks)
        (fun b s => b = true → SettledByOne h s.2 chainId bid (ask :: asks)) := by
      intro K
      refine triple_conseq ih (fun _ _ => trivial) fun b s hs hb => ?_
      rcases hs hb with hfilled | ⟨a, ha, hsettled⟩
      · exact .inl hfilled
      · exact .inr ⟨a, .tail _ ha, hsettled⟩
    refine triple_bind (isAskListingConsumedOnChain_triple ask chainId) fun consumed => ?_
    cases consumed with
    | false => exact hrest
    | true =>
      refine triple_conseq (orElse_triple persistent_moved ?_ hrest) (fun s hs => hs rfl)
        fun _ _ hG => hG
      refine triple_conseq (triple_frame persistent_moved (isBidSettledForAsk_triple bid ask chainId))
        (fun s hs => ⟨hs, hs⟩) fun b s hs hb => ?_
      exact (hs.1 hb).imp id fun hreceived => ⟨ask, .head _, hs.2, hreceived⟩

end Checks

end Orders
