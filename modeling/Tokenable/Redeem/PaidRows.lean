import Tokenable.Redeem.RedeemTargets

/-!
# The transaction of a paid batch

Each statement of `createPaidRedemptionBatch` in turn: the row of a token is inserted exactly when the
token comes to a free cycle, and the batch exactly when all do, each to its own.
-/

namespace Redeem
open Js Platform Async Db Vault Orders Backend
open Cycles (TxTables inTransaction rejectsCycle clash isOpen)

section Runs
variable {env : Env} {vaultRef : JsStr → JsStr} {t : Tables} {u : TxTables} {chainId : ℕ}
  {item : PaidItem} {token : RwaToken} {cert : JsStr} {α : Type}

abbrev PayRuns (env : Env) (vaultRef : JsStr → JsStr) (p : BackendM α) (s : TxTables)
    (o : Except HttpError α) (u : TxTables) : Prop :=
  p.Runs (inTransaction env) (Fresh vaultRef) s o u

def Fails (o : Except HttpError α) (u : TxTables) : Prop := (∃ e, o = .error e) ∨ u.failed = true

/-- What follows a statement of the transaction runs on the tables after it. -/
theorem runs_tx_bind {q : Stmt} {f : q.Res → BackendM α} {b b' : Bool} {t' : Tables} {a : q.Res}
    {o : Except HttpError α} (h : PayRuns env vaultRef (tx q >>= f) ⟨t, b⟩ o u) (ha : q.answer t = a)
    (ht : (if q.changes t then q.apply env t else t) = t')
    (hb : (b || Cycles.failsTx t (fun q => idleWorld q) (.inl (.inTx q))) = b') :
    PayRuns env vaultRef (f a) ⟨t', b'⟩ o u := by
  obtain ⟨x, -, h⟩ := h
  have hsame : Cycles.failsTx t x (.inl (.inTx q)) =
      Cycles.failsTx t (fun q => idleWorld q) (.inl (.inTx q)) := by
    cases q <;> rfl
  subst ha ht hb
  rw [← hsame]
  exact h

/-- A read changes nothing. -/
theorem runs_read_bind {q : Stmt} {f : q.Res → BackendM α} {b : Bool} {a : q.Res}
    {o : Except HttpError α} (h : PayRuns env vaultRef (tx q >>= f) ⟨t, b⟩ o u) (ha : q.answer t = a)
    (ht : (if q.changes t then q.apply env t else t) = t)
    (hb : Cycles.failsTx t (fun q => idleWorld q) (.inl (.inTx q)) = false) :
    PayRuns env vaultRef (f a) ⟨t, b⟩ o u :=
  runs_tx_bind h ha ht (by rw [hb, Bool.or_false])

theorem runs_uuid_bind {f : JsStr → BackendM α} {o : Except HttpError α} {b : Bool}
    (h : PayRuns env vaultRef (rpc .uuid >>= f) ⟨t, b⟩ o u) :
    ∃ id, id ∉ usedIds t ∧ PayRuns env vaultRef (f id) ⟨t, b⟩ o u := by
  obtain ⟨x, hfresh, h⟩ := h
  refine ⟨x .uuid, hfresh, ?_⟩
  have hnew : t.cycles.get (x .uuid) = none := by
    apply Table.get_eq_none.mpr
    intro c hc heq
    exact hfresh (heq ▸ mem_usedIds_cycle hc)
  change PayRuns env vaultRef (f (x .uuid)) ⟨t, b || (t.cycles.get (x .uuid)).isSome⟩ o u at h
  rw [hnew, Option.isSome_none, Bool.or_false] at h
  exact h

theorem runs_rpc_bind {q : Rpc} {f : q.Res → BackendM α} {o : Except HttpError α} {b : Bool}
    (hq : q ≠ .uuid) (h : PayRuns env vaultRef (rpc q >>= f) ⟨t, b⟩ o u) :
    ∃ x : World, Fresh vaultRef ⟨t, b⟩ x (.inr q) ∧ PayRuns env vaultRef (f (x q)) ⟨t, b⟩ o u := by
  obtain ⟨x, hfresh, h⟩ := h
  refine ⟨x, hfresh, ?_⟩
  have hsame : (⟨t, b || Cycles.failsTx t x (.inr q)⟩ : TxTables) = ⟨t, b⟩ := by
    cases q with
    | uuid => exact absurd rfl hq
    | _ => simp [Cycles.failsTx]
  change PayRuns env vaultRef (f (x q)) ⟨t, b || Cycles.failsTx t x (.inr q)⟩ o u at h
  rw [hsame] at h
  exact h

/-- The tables with the asset of a card, which they may have had. -/
structure WithAsset (vaultRef : JsStr → JsStr) (t t' : Tables) (chainId : ℕ) (cert : JsStr)
    (asset : VaultAsset) : Prop where
  indexed : Indexed vaultRef t'
  asset : t'.assetOf cert = some asset
  tokens : t'.tokens = t.tokens
  cycles : t'.cycles = t.cycles
  redemptions : t'.redemptions = t.redemptions
  cards : ∀ other, cardCycle t' chainId other = cardCycle t chainId other
  numbers : ∀ other, (Target.card other).IsFree t' ↔ (Target.card other).IsFree t
  used : ∀ id ∈ usedIds t, id ∈ usedIds t'

theorem withAsset_refl {asset : VaultAsset} (hindexed : Indexed vaultRef t)
    (hasset : t.assetOf cert = some asset) : WithAsset vaultRef t t chainId cert asset where
  indexed := hindexed
  asset := hasset
  tokens := rfl
  cycles := rfl
  redemptions := rfl
  cards _ := rfl
  numbers _ := Iff.rfl
  used _ h := h

theorem withAsset_addAsset {asset : VaultAsset} (hindexed : Indexed vaultRef t)
    (hnone : t.assetOf asset.externalCertNumber = none) (hfresh : asset.id ∉ usedIds t)
    (href : asset.vaultRef = vaultRef asset.externalCertNumber) :
    WithAsset vaultRef t (addAsset t asset) chainId asset.externalCertNumber asset where
  indexed := indexed_addAsset hfresh hindexed href
  asset := by rw [assetOf_addAsset hnone, if_pos rfl]
  tokens := rfl
  cycles := rfl
  redemptions := rfl
  cards := cardCycle_addAsset hnone hfresh
  numbers := isFree_card_addAsset hnone hfresh
  used id h := by
    have hassets : (addAsset t asset).assets.map VaultAsset.id = t.assets.map VaultAsset.id ++ [asset.id] :=
      List.map_append
    simp only [usedIds, List.mem_append] at h ⊢
    rw [hassets, List.mem_append]
    tauto

section WithAsset
variable {t' : Tables} {asset : VaultAsset} (h : WithAsset vaultRef t t' chainId cert asset)
include h

theorem WithAsset.findRwaToken (other : PaidItem) :
    Settlement.findRwaToken t'.ledger other.tokenContract other.tokenId =
      Settlement.findRwaToken t.ledger other.tokenContract other.tokenId := by
  have htokens : t'.ledger.tokens = t.ledger.tokens := h.tokens
  rw [Settlement.findRwaToken, htokens, Settlement.findRwaToken]

theorem WithAsset.openRedemptionOf (k : JsStr) : t'.openRedemptionOf k = t.openRedemptionOf k := by
  rw [Tables.openRedemptionOf, h.redemptions, Tables.openRedemptionOf]

theorem WithAsset.moved (item : PaidItem) (id : JsStr) : Moved t t' chainId item (.cycle id) id where
  tokens other _ := h.findRwaToken other
  cards other := by rw [if_neg Target.noConfusion, h.cards]
  numbers other _ := h.numbers other
  cycles k _ := by rw [h.cycles]
  redemptions k _ := h.openRedemptionOf k
  came := .inl rfl

/-- The open cycle of the card. -/
theorem WithAsset.cardCycle_eq :
    cardCycle t chainId cert = (t'.openCycleOf asset.id chainId).map VaultCycle.id := by
  rw [← h.cards, cardCycle, h.asset, Option.bind_some]

theorem WithAsset.isFree_cycle (id : JsStr) :
    (Target.cycle id).IsFree t' ↔ (Target.cycle id).IsFree t := by
  rw [Target.IsFree, h.cycles, h.openRedemptionOf, Target.IsFree]

variable {c : VaultCycle} (hopen : t'.openCycleOf asset.id chainId = none) (hnew : c.id ∉ usedIds t')
  (hof : c.vaultAssetId = asset.id)
include hnew

omit h in
theorem get_eq_none_of_new : t'.cycles.get c.id = none := by
  apply Table.get_eq_none.mpr
  intro d hd heq
  exact hnew (heq ▸ mem_usedIds_cycle hd)

include hopen hof

theorem WithAsset.moved_addCycle (item : PaidItem) (hchain : c.chainId = chainId)
    (hminted : c.status = .minted) :
    Moved t (addCycle t' c) chainId item (.card cert) c.id where
  tokens other _ := h.findRwaToken other
  cards other := by
    have hisOpen : isOpen c = true := by simp [isOpen, hminted]
    rw [cardCycle_addCycle h.indexed.assetIds h.asset hof (get_eq_none_of_new hnew) hchain hisOpen hopen,
      h.cards]
    simp only [Target.card.injEq, eq_comm]
  numbers other hne := by
    have hother : other ≠ cert := fun heq => hne (congrArg Target.card heq.symm)
    exact (isFree_card_addCycle h.indexed.assetIds h.asset hof (get_eq_none_of_new hnew) hother).trans
      (h.numbers other)
  cycles k hk := by
    have hkept : (addCycle t' c).cycles.get k = t'.cycles.get k := Table.get_save_of_ne hk
    rw [hkept, h.cycles]
  redemptions k _ := h.openRedemptionOf k
  came := by
    refine .inr ⟨⟨cert, rfl, ?_⟩, fun hused => hnew (h.used _ hused)⟩
    rw [h.cardCycle_eq, hopen]
    rfl

omit h hopen hof in
theorem isFree_addCycle (hminted : c.status = .minted) : (Target.cycle c.id).IsFree (addCycle t' c) := by
  constructor
  · have hstored : (addCycle t' c).cycles.get c.id = some c := Table.get_save_self t'.cycles c
    rw [hstored, Option.map_some, hminted]
  · apply List.find?_eq_none.mpr
    intro r hr hfound
    rw [Bool.and_eq_true, decide_eq_true_eq] at hfound
    exact hnew (hfound.1 ▸ (mem_usedIds_redemption (t := t') hr).2)

end WithAsset

/-- A card's asset is found, or made with the card's reference. -/
theorem runs_findOrCreateAsset (chainId : ℕ) (hindexed : Indexed vaultRef t)
    (hinj : Function.Injective vaultRef) {f : VaultAsset → BackendM α} {o : Except HttpError α}
    (h : PayRuns env vaultRef (findOrCreateAsset token cert >>= f) ⟨t, false⟩ o u) :
    ∃ asset t', WithAsset vaultRef t t' chainId cert asset ∧
      PayRuns env vaultRef (f asset) ⟨t', false⟩ o u := by
  cases hasset : t.assetOf cert with
  | some asset =>
    have hfound := runs_read_bind (q := .lockAsset cert) h hasset rfl rfl
    exact ⟨asset, t, withAsset_refl hindexed hasset, hfound⟩
  | none =>
    have hfound := runs_read_bind (q := .lockAsset cert) h hasset rfl rfl
    obtain ⟨x, href, hrest⟩ := runs_rpc_bind (q := .computeVaultRef cert) (by simp) hfound
    obtain ⟨id, hnew, hrest⟩ := runs_uuid_bind hrest
    change x (.computeVaultRef cert) = vaultRef cert at href
    rw [href] at hrest
    let asset : VaultAsset := {
      id := id
      externalCertNumber := cert
      vaultRef := vaultRef cert
      displayName := (token.displayName.map trim).filter (fun n => !n.isEmpty) }
    have hchanges : (Stmt.insertAsset asset).changes t = true := by
      change (!t.assets.any fun a => a.id = id || a.externalCertNumber = cert ||
        a.vaultRef = vaultRef cert) = true
      rw [Bool.not_eq_true', List.any_eq_false]
      intro a ha
      have hid : a.id ≠ id := fun heq => hnew (heq ▸ mem_usedIds_asset ha)
      have hcert : a.externalCertNumber ≠ cert := by
        intro heq
        have hnot := List.find?_eq_none.mp hasset a ha
        simp [heq] at hnot
      have href' : a.vaultRef ≠ vaultRef cert := by
        intro heq
        rw [hindexed.assetRefs a ha] at heq
        exact hcert (hinj heq)
      simp [hid, hcert, href']
    have hanswer : (Stmt.insertAsset asset).answer t = .ok () := by
      change Stmt.orUniqueViolation ((Stmt.insertAsset asset).changes t) = .ok ()
      rw [hchanges]
      rfl
    have hinsert : PayRuns env vaultRef (f asset) ⟨addAsset t asset, false⟩ o u :=
      runs_tx_bind (q := .insertAsset asset) hrest hanswer (by rw [if_pos hchanges]; rfl) rfl
    have hwith : WithAsset vaultRef t (addAsset t asset) chainId cert asset :=
      withAsset_addAsset hindexed hasset hnew rfl
    exact ⟨asset, _, hwith, hinsert⟩

/-- The open cycle of the asset is taken when it is minted; without one a cycle is made. -/
theorem runs_findOrCreateMintedCycle {assetId : JsStr} {f : VaultCycle → BackendM α}
    {o : Except HttpError α}
    (h : PayRuns env vaultRef (findOrCreateMintedCycle assetId chainId >>= f) ⟨t, false⟩ o u) :
    (∃ c, t.openCycleOf assetId chainId = some c ∧ c.status ≠ .minted ∧ ∃ e, o = .error e) ∨
    (∃ c, t.openCycleOf assetId chainId = some c ∧ c.status = .minted ∧
      PayRuns env vaultRef (f c) ⟨t, false⟩ o u) ∨
    (t.openCycleOf assetId chainId = none ∧ ∃ c : VaultCycle, c.id ∉ usedIds t ∧
      c.vaultAssetId = assetId ∧ c.chainId = chainId ∧ c.status = .minted ∧
      c.cycleNumber = (cyclesOf t assetId).length + 1 ∧
      PayRuns env vaultRef (f c) ⟨addCycle t c, rejectsCycle t c⟩ o u) := by
  cases hopen : t.openCycleOf assetId chainId with
  | some c =>
    have hfound : PayRuns env vaultRef ((if c.status ≠ .minted then throw (notRedeemable c.status.text)
        else pure c : BackendM VaultCycle) >>= f) ⟨t, false⟩ o u :=
      runs_read_bind (q := .lockOpenCycle assetId chainId) h hopen rfl rfl
    by_cases hminted : c.status = .minted
    · rw [if_neg (not_not.mpr hminted)] at hfound
      exact .inr (.inl ⟨c, rfl, hminted, hfound⟩)
    · rw [if_pos hminted] at hfound
      exact .inl ⟨c, rfl, hminted, _, hfound.1.symm⟩
  | none =>
    have hfound := runs_read_bind (q := .lockOpenCycle assetId chainId) h hopen rfl rfl
    have hcount := runs_read_bind (q := .countCycles assetId) hfound rfl rfl rfl
    obtain ⟨id, hnew, hrest⟩ := runs_uuid_bind hcount
    let c : VaultCycle := {
      id := id
      vaultAssetId := assetId
      chainId := chainId
      cycleNumber := (cyclesOf t assetId).length + 1
      status := .minted }
    have hsave : PayRuns env vaultRef (f c) ⟨addCycle t c, rejectsCycle t c⟩ o u :=
      runs_tx_bind (q := .saveCycle c) hrest rfl rfl (Bool.false_or _)
    exact .inr (.inr ⟨rfl, c, hnew, rfl, rfl, rfl, rfl, hsave⟩)

/-- A transaction that has failed stays failed. -/
theorem runs_failed {p : BackendM α} {o : Except HttpError α} (h : PayRuns env vaultRef p ⟨t, true⟩ o u) :
    u.failed = true := by
  have hall : p.Issues fun _ => True := by
    clear h
    induction p with
    | ret r => trivial
    | call c next ih => exact ⟨trivial, ih⟩
  refine Prog.runs_keeps (K := fun s => s.failed = true) (fun c _ s x _ hs => ?_) hall h rfl
  change (s.failed || _) = true
  rw [hs]
  rfl

/-- A new cycle of the card is rejected when its number is taken. -/
theorem rejectsCycle_new {assetId : JsStr} {c : VaultCycle} (hopen : t.openCycleOf assetId chainId = none)
    (hnew : c.id ∉ usedIds t) (hof : c.vaultAssetId = assetId) (hchain : c.chainId = chainId) :
    rejectsCycle t c = false ↔ ∀ d ∈ cyclesOf t assetId, d.cycleNumber ≠ c.cycleNumber := by
  unfold rejectsCycle
  rw [List.any_eq_false]
  have hclash : ∀ d ∈ t.cycles.rows, (¬ clash c d = true ↔
      (d.vaultAssetId = assetId → d.cycleNumber ≠ c.cycleNumber)) := by
    intro d hd
    have hid : d.id ≠ c.id := fun heq => hnew (heq ▸ mem_usedIds_cycle hd)
    have hclosed : d.vaultAssetId = assetId → d.chainId = chainId → isOpen d = false := by
      intro hasset hchain'
      have hnot := List.find?_eq_none.mp hopen d hd
      rw [Bool.not_eq_true] at hnot
      simpa [hasset, hchain', isOpen] using hnot
    by_cases hasset : d.vaultAssetId = assetId
    · by_cases hchain' : d.chainId = chainId
      · simp [clash, hid, hasset, hof, hclosed hasset hchain']
      · simp [clash, hid, hasset, hof, hchain', hchain]
    · simp [clash, hasset, hof]
  constructor
  · intro h d hd
    obtain ⟨hmem, hasset⟩ := Table.mem_find.mp hd
    exact (hclash d hmem).mp (h d hmem) (of_decide_eq_true hasset)
  · intro h d hd
    apply (hclash d hd).mpr
    intro hasset
    exact h d (Table.mem_find.mpr ⟨hd, decide_eq_true hasset⟩)

/-- Two statements in a row. -/
theorem bind_bind {β γ : Type} (p : BackendM α) (g : α → BackendM β) (f : β → BackendM γ) :
    (p >>= g) >>= f = p >>= fun a => g a >>= f := by
  rw [Prog.bind_eq_settle, Prog.bind_eq_settle, Prog.bind_eq_settle, Prog.settle_settle]
  congr 1
  funext r
  cases r <;> rfl

/-- The tables in which the card has come to the cycle `id`, as free as its target was. -/
structure CameTo (vaultRef : JsStr → JsStr) (t t' : Tables) (chainId : ℕ) (item : PaidItem)
    (target : Target) (id : JsStr) : Prop where
  moved : Moved t t' chainId item target id
  indexed : Indexed vaultRef t'
  free : (Target.cycle id).IsFree t' ↔ target.IsFree t

theorem targetOf_of_link {id : JsStr} (hlink : token.vaultCycleId = some id) :
    targetOf t chainId token = some (.cycle id) := by
  rw [targetOf, hlink]

theorem targetOf_of_cert (t : Tables) (chainId : ℕ) (hlink : token.vaultCycleId = none)
    (hcert : (trim (token.certNumber.getD [])).isEmpty = false) :
    targetOf t chainId token =
      some (((cardCycle t chainId (normalizeCert (trim (token.certNumber.getD [])))).map Target.cycle).getD
        (.card (normalizeCert (trim (token.certNumber.getD []))))) := by
  rw [targetOf, hlink]
  dsimp only
  rw [hcert, if_neg Bool.false_ne_true]

def withCycle (token : RwaToken) (cycleId vaultRef : JsStr) : RwaToken :=
  { token with
    vaultCycleId := some cycleId
    vaultRef := if truthy token.vaultRef then token.vaultRef else some vaultRef }

/-- The last statements of `backfillCycleForToken`, and what comes after it. -/
def linkCycle (token : RwaToken) (cert : JsStr) (f : JsStr → BackendM α) (cycle : VaultCycle) :
    BackendM α := do
  let vaultRef ← (rpc (.computeVaultRef cert) : BackendM JsStr)
  tx (.saveToken (withCycle token cycle.id vaultRef))
  f cycle.id

theorem backfillCycleForToken_bind (hcert : (trim (token.certNumber.getD [])).isEmpty = false)
    (f : JsStr → BackendM α) :
    (backfillCycleForToken token chainId >>= f) =
      (findOrCreateAsset token (normalizeCert (trim (token.certNumber.getD []))) >>= fun asset =>
        findOrCreateMintedCycle asset.id chainId >>=
          linkCycle token (normalizeCert (trim (token.certNumber.getD []))) f) := by
  unfold backfillCycleForToken
  dsimp only
  rw [hcert]
  simp only [bind_bind, Prog.pure_bind_eq]
  rfl

theorem runs_linkCycle {f : JsStr → BackendM α} {c : VaultCycle} {o : Except HttpError α}
    (h : PayRuns env vaultRef (linkCycle token cert f c) ⟨t, false⟩ o u) :
    ∃ ref, PayRuns env vaultRef (f c.id) ⟨t.saveToken (withCycle token c.id ref), false⟩ o u := by
  obtain ⟨x, -, hsave⟩ := runs_rpc_bind (q := .computeVaultRef cert) (by simp) h
  exact ⟨x (.computeVaultRef cert), runs_tx_bind hsave rfl rfl rfl⟩

/-- The cycle of a token without one, found or made, is linked to it. -/
theorem runs_backfillCycleForToken (hindexed : Indexed vaultRef t) (hinj : Function.Injective vaultRef)
    (hcontract : lower token.tokenContract = lower item.tokenContract)
    (hid : normalizeDecimalTokenId token.tokenId = normalizeDecimalTokenId item.tokenId)
    (hlink : token.vaultCycleId = none) {f : JsStr → BackendM α} {o : Except HttpError α}
    (h : PayRuns env vaultRef (backfillCycleForToken token chainId >>= f) ⟨t, false⟩ o u) :
    (Fails o u ∧ ∀ target, targetOf t chainId token = some target → ¬ target.IsFree t) ∨
    ∃ target id t', targetOf t chainId token = some target ∧
      CameTo vaultRef t t' chainId item target id ∧ PayRuns env vaultRef (f id) ⟨t', false⟩ o u := by
  cases hcert : (trim (token.certNumber.getD [])).isEmpty with
  | true =>
    refine .inl ⟨.inl ?_, ?_⟩
    · unfold backfillCycleForToken at h
      dsimp only at h
      rw [hcert] at h
      exact ⟨_, h.1.symm⟩
    · intro target htarget
      rw [targetOf, hlink] at htarget
      dsimp only at htarget
      rw [hcert] at htarget
      cases htarget
  | false =>
    have htarget := targetOf_of_cert t chainId hlink hcert
    rw [backfillCycleForToken_bind hcert] at h
    generalize normalizeCert (trim (token.certNumber.getD [])) = cert at h htarget
    obtain ⟨asset, t', hwith, hcycle⟩ := runs_findOrCreateAsset chainId hindexed hinj h
    have hcard := hwith.cardCycle_eq
    rcases runs_findOrCreateMintedCycle hcycle with ⟨c, hopen, hminted, herror⟩ |
      ⟨c, hopen, hminted, hrest⟩ | ⟨hopen, c, hnew, hof, hchain, hminted, hnumber, hrest⟩
    · rw [hcard, hopen] at htarget
      refine .inl ⟨.inl herror, ?_⟩
      intro target htarget' hfree
      obtain rfl := Option.some.inj (htarget.symm.trans htarget')
      obtain ⟨hstatus, -⟩ := (hwith.isFree_cycle c.id).mpr hfree
      rw [get_cycle_of_openCycleOf hopen] at hstatus
      exact hminted (Option.some.inj hstatus)
    · rw [hcard, hopen] at htarget
      obtain ⟨ref, hend⟩ := runs_linkCycle hrest
      have hmoved := (hwith.moved item c.id).saveToken (withCycle token c.id ref) hcontract hid
      have hkept : Indexed vaultRef (t'.saveToken (withCycle token c.id ref)) :=
        ⟨hwith.indexed.assetIds, hwith.indexed.assetRefs, hwith.indexed.cycles⟩
      exact .inr ⟨_, _, _, htarget, ⟨hmoved, hkept, hwith.isFree_cycle c.id⟩, hend⟩
    · rw [hcard, hopen] at htarget
      have hrejects := rejectsCycle_new hopen hnew hof hchain
      cases hrejected : rejectsCycle t' c with
      | true =>
        rw [hrejected] at hrest hrejects
        refine .inl ⟨.inr (runs_failed hrest), ?_⟩
        intro target htarget' hfree
        obtain rfl := Option.some.inj (htarget.symm.trans htarget')
        have hnumbers := (hwith.numbers cert).mpr hfree asset hwith.asset
        rw [← hnumber] at hnumbers
        cases hrejects.mpr hnumbers
      | false =>
        rw [hrejected] at hrest
        obtain ⟨ref, hend⟩ := runs_linkCycle hrest
        have hmoved := (hwith.moved_addCycle hopen hnew hof item hchain hminted).saveToken
          (withCycle token c.id ref) hcontract hid
        have hkept : Indexed vaultRef ((addCycle t' c).saveToken (withCycle token c.id ref)) :=
          ⟨hwith.indexed.assetIds, hwith.indexed.assetRefs, cycles_save hwith.indexed.cycles hrejected⟩
        have hfree : (Target.card cert).IsFree t := by
          apply (hwith.numbers cert).mp
          intro other hother
          obtain rfl := Option.some.inj (hwith.asset.symm.trans hother)
          rw [← hnumber]
          exact hrejects.mp hrejected
        exact .inr ⟨_, _, _, htarget, ⟨hmoved, hkept, iff_of_true (isFree_addCycle hnew hminted) hfree⟩,
          hend⟩

theorem mem_of_findRwaToken {tokenContract tokenId : JsStr}
    (h : Settlement.findRwaToken t.ledger tokenContract tokenId = some token) :
    lower token.tokenContract = lower tokenContract ∧
      normalizeDecimalTokenId token.tokenId = normalizeDecimalTokenId tokenId := by
  have hmatches := List.find?_some h
  rw [Bool.and_eq_true, decide_eq_true_eq, decide_eq_true_eq] at hmatches
  exact hmatches

/-- Every token is linked to a cycle, its own or the one of its card. -/
theorem runs_cycleIdOf (hindexed : Indexed vaultRef t) (hinj : Function.Injective vaultRef)
    (htoken : Settlement.findRwaToken t.ledger item.tokenContract item.tokenId = some token)
    {f : JsStr → BackendM α} {o : Except HttpError α}
    (h : PayRuns env vaultRef (cycleIdOf token chainId >>= f) ⟨t, false⟩ o u) :
    (Fails o u ∧ ∀ target, targetOf t chainId token = some target → ¬ target.IsFree t) ∨
    ∃ target id t', targetOf t chainId token = some target ∧
      CameTo vaultRef t t' chainId item target id ∧ PayRuns env vaultRef (f id) ⟨t', false⟩ o u := by
  unfold cycleIdOf at h
  cases hlink : token.vaultCycleId with
  | some id =>
    rw [hlink] at h
    exact .inr ⟨_, id, t, targetOf_of_link hlink, ⟨moved_refl t chainId item id, hindexed, Iff.rfl⟩, h⟩
  | none =>
    rw [hlink] at h
    obtain ⟨hcontract, hid⟩ := mem_of_findRwaToken htoken
    exact runs_backfillCycleForToken hindexed hinj hcontract hid hlink h

def requested (t : Tables) (row : VaultRedemption) (c : VaultCycle) : Tables :=
  addCycle { t with redemptions := t.redemptions.save row } { c with status := .redemptionRequested }

section Requested
variable {t' : Tables} {target : Target} {id : JsStr} {c : VaultCycle} {row : VaultRedemption}
  (h : CameTo vaultRef t t' chainId item target id) (hget : t'.cycles.get id = some c)
  (hminted : c.status = .minted)
include h hget hminted

theorem CameTo.moved_requested (hfresh : t'.redemptions.get row.id = none)
    (hrow : row.vaultCycleId = id) : Moved t (requested t' row c) chainId item target id := by
  have hid : c.id = id := Table.get_key hget
  have hstored : t'.cycles.get c.id = some c := by rw [hid, hget]
  have hisOpen : isOpen c = true := by simp [isOpen, hminted]
  constructor
  · exact h.moved.tokens
  · intro cert
    rw [← h.moved.cards]
    exact cardCycle_request hstored hisOpen cert
  · intro cert hne
    exact (isFree_card_request hstored cert).trans (h.moved.numbers cert hne)
  · intro k hk
    have hkept : (requested t' row c).cycles.get k = t'.cycles.get k :=
      Table.get_save_of_ne (hid.symm ▸ hk)
    rw [hkept, h.moved.cycles k hk]
  · intro k hk
    rw [← h.moved.redemptions k hk]
    exact openRedemptionOf_insert hfresh (hrow.symm ▸ hk.symm)
  · exact h.moved.came

theorem CameTo.indexed_requested : Indexed vaultRef (requested t' row c) := by
  have hisOpen : isOpen c = true := by simp [isOpen, hminted]
  have hkept := rejectsCycle_request hisOpen (h.indexed.cycles c (Table.mem_of_get hget))
  exact ⟨h.indexed.assetIds, h.indexed.assetRefs, cycles_save h.indexed.cycles hkept⟩

end Requested

/-- The token of a card is there and not burned. -/
theorem runs_lockRedeemableToken {f : RwaToken → BackendM α} {o : Except HttpError α}
    (h : PayRuns env vaultRef (lockRedeemableToken item >>= f) ⟨t, false⟩ o u) :
    ((∃ e, o = .error e) ∧ itemTarget t chainId item = none) ∨
    ∃ token, Settlement.findRwaToken t.ledger item.tokenContract item.tokenId = some token ∧
      itemTarget t chainId item = targetOf t chainId token ∧
      PayRuns env vaultRef (f token) ⟨t, false⟩ o u := by
  unfold itemTarget
  cases htoken : Settlement.findRwaToken t.ledger item.tokenContract item.tokenId with
  | none =>
    have hfound := runs_read_bind (q := .lockToken item.tokenContract item.tokenId) h htoken rfl rfl
    exact .inl ⟨⟨_, hfound.1.symm⟩, rfl⟩
  | some token =>
    have hfound := runs_read_bind (q := .lockToken item.tokenContract item.tokenId) h htoken rfl rfl
    rw [Option.bind_some]
    cases hburned : token.burnedAt.isSome with
    | true =>
      change PayRuns env vaultRef ((Prog.throwIf token.burnedAt.isSome
        (.badRequest (js "Token has already been redeemed")) >>= fun _ => pure token) >>= f)
        ⟨t, false⟩ o u at hfound
      rw [hburned] at hfound
      exact .inl ⟨⟨_, hfound.1.symm⟩, rfl⟩
    | false =>
      change PayRuns env vaultRef ((Prog.throwIf token.burnedAt.isSome
        (.badRequest (js "Token has already been redeemed")) >>= fun _ => pure token) >>= f)
        ⟨t, false⟩ o u at hfound
      rw [hburned] at hfound
      exact .inr ⟨token, rfl, rfl, hfound⟩

/-- The rest of `lockMintedCycle` for the cycle of a token. -/
def lockIfMinted (cycleId : JsStr) : BackendM VaultCycle := do
  let found ← (tx (.lockCycle cycleId) : BackendM (Option VaultCycle))
  let cycle ← Prog.orThrow (notRedeemable (js "unknown")) found
  Prog.throwIf (cycle.status ≠ .minted) (notRedeemable cycle.status.text)
  pure cycle

theorem runs_lockIfMinted {id : JsStr} {f : VaultCycle → BackendM α} {o : Except HttpError α}
    (h : PayRuns env vaultRef (lockIfMinted id >>= f) ⟨t, false⟩ o u) :
    ((∃ e, o = .error e) ∧ (t.cycles.get id).map VaultCycle.status ≠ some .minted) ∨
    ∃ c, t.cycles.get id = some c ∧ c.status = .minted ∧
      PayRuns env vaultRef (f c) ⟨t, false⟩ o u := by
  cases hget : t.cycles.get id with
  | none =>
    have hfound := runs_read_bind (q := .lockCycle id) h hget rfl rfl
    exact .inl ⟨⟨_, hfound.1.symm⟩, by simp⟩
  | some c =>
    have hfound : PayRuns env vaultRef ((Prog.throwIf (c.status ≠ .minted)
        (notRedeemable c.status.text) >>= fun _ => pure c) >>= f) ⟨t, false⟩ o u :=
      runs_read_bind (q := .lockCycle id) h hget rfl rfl
    by_cases hminted : c.status = .minted
    · rw [decide_eq_false (not_not.mpr hminted)] at hfound
      exact .inr ⟨c, rfl, hminted, hfound⟩
    · rw [decide_eq_true hminted] at hfound
      refine .inl ⟨⟨_, hfound.1.symm⟩, ?_⟩
      rw [Option.map_some, ne_eq, Option.some.injEq]
      exact hminted

/-- The rest of `insertPaidRedemptionRow` for the locked cycle. -/
def requestCycle (p : PaidBatch) (item : PaidItem) (cycle : VaultCycle) : BackendM VaultRedemption := do
  let existingOpen ← (tx (.lockOpenRedemption cycle.id) : BackendM (Option VaultRedemption))
  match existingOpen with
  | some open_ => throw (.conflict (js "Token #" ++ item.tokenId ++
      js " already has an open redemption (" ++ open_.id ++ js ")"))
  | none => do
    let id ← (rpc .uuid : BackendM JsStr)
    let at_ ← (rpc .now : BackendM ℕ)
    let row := p.row item cycle id at_
    let saved ← (tx (.insertRedemption row) : BackendM (Except PgError Unit))
    orQueryFailed saved
    tx (.saveCycle { cycle with status := .redemptionRequested })
    pure row

theorem runs_requestCycle {p : PaidBatch} {c : VaultCycle} {f : VaultRedemption → BackendM α}
    {o : Except HttpError α} (hindexed : Indexed vaultRef t) (hget : t.cycles.get c.id = some c)
    (hminted : c.status = .minted)
    (h : PayRuns env vaultRef (requestCycle p item c >>= f) ⟨t, false⟩ o u) :
    ((∃ e, o = .error e) ∧ t.openRedemptionOf c.id ≠ none) ∨
    ∃ row, t.openRedemptionOf c.id = none ∧ t.redemptions.get row.id = none ∧
      row.vaultCycleId = c.id ∧ PayRuns env vaultRef (f row) ⟨requested t row c, false⟩ o u := by
  cases hopen : t.openRedemptionOf c.id with
  | some r =>
    have hfound := runs_read_bind (q := .lockOpenRedemption c.id) h hopen rfl rfl
    exact .inl ⟨⟨_, hfound.1.symm⟩, by simp⟩
  | none =>
    have hfound := runs_read_bind (q := .lockOpenRedemption c.id) h hopen rfl rfl
    obtain ⟨id, hnew, hrest⟩ := runs_uuid_bind hfound
    obtain ⟨x, -, hrest⟩ := runs_rpc_bind (q := .now) (by simp) hrest
    let row := p.row item c id (x .now)
    have hfresh : t.redemptions.get row.id = none := by
      apply Table.get_eq_none.mpr
      intro r hr heq
      have hid : r.id = id := heq
      exact hnew (hid ▸ (mem_usedIds_redemption hr).1)
    have hchanges : (Stmt.insertRedemption row).changes t = true := by
      rw [Stmt.changes, hfresh]
      rfl
    have hanswer : (Stmt.insertRedemption row).answer t = .ok () := by
      rw [Stmt.answer, hchanges]
      rfl
    have hinsert := runs_tx_bind (q := .insertRedemption row) hrest hanswer (if_pos hchanges) rfl
    have hisOpen : isOpen c = true := by simp [isOpen, hminted]
    have hrejects : rejectsCycle t { c with status := .redemptionRequested } = false :=
      rejectsCycle_request hisOpen (hindexed.cycles c (Table.mem_of_get hget))
    have hsave : PayRuns env vaultRef (f row) ⟨requested t row c, false⟩ o u :=
      runs_tx_bind (q := .saveCycle { c with status := .redemptionRequested }) hinsert rfl rfl hrejects
    exact .inr ⟨row, rfl, hfresh, rfl, hsave⟩

/-- The row of a card is inserted when the card comes to a free cycle. -/
theorem runs_insertPaidRedemptionRow (hindexed : Indexed vaultRef t) (hinj : Function.Injective vaultRef)
    {p : PaidBatch} {f : VaultRedemption → BackendM α} {o : Except HttpError α}
    (h : PayRuns env vaultRef (insertPaidRedemptionRow p item >>= f) ⟨t, false⟩ o u) :
    (Fails o u ∧ ∀ target, itemTarget t p.chainId item = some target → ¬ target.IsFree t) ∨
    ∃ target id t' row, itemTarget t p.chainId item = some target ∧ target.IsFree t ∧
      Moved t t' p.chainId item target id ∧ Indexed vaultRef t' ∧
      (t'.cycles.get id).map VaultCycle.status = some .redemptionRequested ∧
      PayRuns env vaultRef (f row) ⟨t', false⟩ o u := by
  have hparts : (insertPaidRedemptionRow p item >>= f) = lockRedeemableToken item >>= fun token =>
      cycleIdOf token p.chainId >>= fun id => lockIfMinted id >>= fun cycle =>
        requestCycle p item cycle >>= f := by
    have hrow : insertPaidRedemptionRow p item = lockRedeemableToken item >>= fun token =>
        (cycleIdOf token p.chainId >>= lockIfMinted) >>= requestCycle p item := rfl
    simp only [hrow, bind_bind]
  rw [hparts] at h
  rcases runs_lockRedeemableToken h with ⟨herror, hnone⟩ | ⟨token, htoken, htarget, hlink⟩
  · refine .inl ⟨.inl herror, ?_⟩
    intro target hsome
    rw [hnone] at hsome
    cases hsome
  rw [htarget]
  rcases runs_cycleIdOf hindexed hinj htoken hlink with hfails | ⟨target, id, t', hsome, hcame, hlock⟩
  · exact .inl hfails
  rw [hsome]
  have hbusy : ¬ (Target.cycle id).IsFree t' → ∀ other, some target = some other → ¬ other.IsFree t := by
    rintro hnot other heq hfree
    obtain rfl := Option.some.inj heq
    exact hnot (hcame.free.mpr hfree)
  rcases runs_lockIfMinted hlock with ⟨herror, hstatus⟩ | ⟨c, hget, hminted, hrequest⟩
  · exact .inl ⟨.inl herror, hbusy fun hfree => hstatus hfree.1⟩
  obtain rfl : c.id = id := Table.get_key hget
  rcases runs_requestCycle hcame.indexed hget hminted hrequest with ⟨herror, hopen⟩ |
    ⟨row, hopen, hfresh, hof, hend⟩
  · exact .inl ⟨.inl herror, hbusy fun hfree => hopen hfree.2⟩
  · have hfree : (Target.cycle c.id).IsFree t' := ⟨by rw [hget, Option.map_some, hminted], hopen⟩
    have hstored : (requested t' row c).cycles.get c.id = some { c with status := .redemptionRequested } :=
      Table.get_save_self t'.cycles { c with status := .redemptionRequested }
    refine .inr ⟨target, c.id, _, row, rfl, hcame.free.mp hfree,
      hcame.moved_requested hget hminted hfresh hof, hcame.indexed_requested hget hminted, ?_, hend⟩
    rw [hstored]
    rfl

def Succeeds (o : Except HttpError α) (u : TxTables) : Prop := (∃ a, o = .ok a) ∧ u.failed = false

theorem not_succeeds_of_fails {o : Except HttpError α} (h : Fails o u) : ¬ Succeeds o u := by
  rintro ⟨⟨a, rfl⟩, hkept⟩
  rcases h with ⟨e, he⟩ | hfailed
  · cases he
  · rw [hkept] at hfailed
    cases hfailed

/-- The rows of a batch are inserted exactly when it is payable. -/
theorem runs_insertPaidRedemptionRows (hinj : Function.Injective vaultRef) {p : PaidBatch}
    {items : List PaidItem} (hitems : items.Pairwise fun a b => ¬ SameToken a b)
    {o : Except HttpError (List VaultRedemption)} (hindexed : Indexed vaultRef t)
    (h : PayRuns env vaultRef (insertPaidRedemptionRows p items) ⟨t, false⟩ o u) :
    Succeeds o u ↔ Payable t p.chainId items := by
  induction items generalizing t o u with
  | nil =>
    obtain ⟨rfl, rfl⟩ := h
    exact iff_of_true ⟨⟨_, rfl⟩, rfl⟩ ⟨fun _ hitem => (nomatch hitem), List.nodup_nil⟩
  | cons item items ih =>
    obtain ⟨hothers, hrest⟩ := List.pairwise_cons.mp hitems
    rcases runs_insertPaidRedemptionRow hindexed hinj h with ⟨hfails, hbusy⟩ |
      ⟨target, id, t', row, htarget, hfree, hmoved, hindexed', htaken, h⟩
    · refine iff_of_false (not_succeeds_of_fails hfails) ?_
      intro hpay
      obtain ⟨target, htarget, hfree⟩ := hpay.free item List.mem_cons_self
      exact hbusy target htarget hfree
    · rw [payable_cons hmoved htaken htarget hfree hothers]
      rcases Prog.runs_bind.mp h with ⟨rows, v, hrows, hend⟩ | ⟨e, herror, rfl⟩
      · obtain ⟨rfl, rfl⟩ := Prog.runs_pure.mp hend
        rw [← ih hrest hindexed' hrows]
        exact and_congr_left fun _ => iff_of_true ⟨_, rfl⟩ ⟨_, rfl⟩
      · exact ih hrest hindexed' herror

/-- A payment with a hash and a batch id that no claim has. -/
structure FreshPayment (t : Tables) (params : PaidBatch) : Prop where
  hash : (lower (trim params.paymentTxHash)).isEmpty = false
  batch : (trim params.paymentBatchId).isEmpty = false
  unclaimed : t.claims.get (lower (trim params.paymentTxHash)) = none
  unfunded : ∀ c ∈ t.claims.rows, c.paymentBatchId ≠ trim params.paymentBatchId

theorem runs_insertPaymentClaimOrConflict {claim : PaymentClaim} {f : Unit → BackendM α}
    {o : Except HttpError α} (hunclaimed : t.claims.get claim.paymentTxHash = none)
    (hunfunded : ∀ c ∈ t.claims.rows, c.paymentBatchId ≠ claim.paymentBatchId)
    (h : PayRuns env vaultRef (insertPaymentClaimOrConflict claim >>= f) ⟨t, false⟩ o u) :
    PayRuns env vaultRef (f ()) ⟨{ t with claims := t.claims.save claim }, false⟩ o u := by
  have hfound := runs_read_bind (q := .findClaim claim.paymentTxHash) h hunclaimed rfl rfl
  have hbatch : t.batchClaimed claim = false := by
    apply List.any_eq_false.mpr
    intro c hc
    simp [hunfunded c hc]
  have hchanges : (Stmt.insertClaim claim).changes t = true := by
    rw [Stmt.changes, hunclaimed, hbatch]
    rfl
  have hanswer : (Stmt.insertClaim claim).answer t = .ok () := by
    rw [Stmt.answer, hchanges]
    rfl
  exact runs_tx_bind (q := .insertClaim claim) hfound hanswer (if_pos hchanges) rfl

def PaidBatch.normalized (params : PaidBatch) : PaidBatch :=
  { params with
    paymentTxHash := lower (trim params.paymentTxHash)
    paymentBatchId := trim params.paymentBatchId }

theorem runs_paymentTransaction (hinj : Function.Injective vaultRef) {params : PaidBatch}
    (hfresh : FreshPayment t params) (hitems : params.items.Pairwise fun a b => ¬ SameToken a b)
    {o : Except HttpError (List VaultRedemption)} (hindexed : Indexed vaultRef t)
    (h : PayRuns env vaultRef (transaction (insertPaymentClaimOrConflict params.normalized.claim >>=
      fun _ => insertPaidRedemptionRows params.normalized params.items)) ⟨t, false⟩ o u) :
    Succeeds o u ↔ Payable t params.chainId params.items := by
  obtain ⟨r, v, hbody, hend⟩ := Prog.runs_settle.mp h
  have hrows := runs_insertPaymentClaimOrConflict hfresh.unclaimed hfresh.unfunded hbody
  have hindexed' : Indexed vaultRef { t with claims := t.claims.save params.normalized.claim } :=
    ⟨hindexed.assetIds, hindexed.assetRefs, hindexed.cycles⟩
  have hpays := runs_insertPaidRedemptionRows hinj hitems hindexed' hrows
  have hended : Succeeds o u ↔ Succeeds r v := by
    cases r with
    | ok rows =>
      obtain ⟨x, -, rfl, rfl⟩ := hend
      exact and_congr_right fun _ => by simp [inTransaction, Cycles.failsTx]
    | error e =>
      obtain ⟨x, -, rfl, rfl⟩ := hend
      exact iff_of_false (not_succeeds_of_fails (.inl ⟨e, rfl⟩)) (not_succeeds_of_fails (.inl ⟨e, rfl⟩))
  rw [hended, hpays]
  exact ⟨fun hpay => ⟨hpay.free, hpay.distinct⟩, fun hpay => ⟨hpay.free, hpay.distinct⟩⟩

/-- A call with a new payment succeeds exactly when its batch has items and is payable. -/
theorem runs_createPaidRedemptionBatch (hinj : Function.Injective vaultRef) {params : PaidBatch}
    (hfresh : FreshPayment t params) (hitems : params.items.Pairwise fun a b => ¬ SameToken a b)
    {o : Except HttpError (List VaultRedemption)} (hindexed : Indexed vaultRef t)
    (h : PayRuns env vaultRef (createPaidRedemptionBatch params) ⟨t, false⟩ o u) :
    Succeeds o u ↔ params.items ≠ [] ∧ Payable t params.chainId params.items := by
  unfold createPaidRedemptionBatch at h
  dsimp only at h
  rw [hfresh.hash, hfresh.batch] at h
  cases hempty : params.items.isEmpty with
  | true =>
    rw [hempty] at h
    refine iff_of_false (not_succeeds_of_fails (.inl ⟨_, h.1.symm⟩)) ?_
    exact fun hsome => hsome.1 (List.isEmpty_iff.mp hempty)
  | false =>
    rw [hempty] at h
    rw [and_iff_right (List.isEmpty_eq_false_iff.mp hempty)]
    exact runs_paymentTransaction hinj hfresh hitems hindexed h

end Runs

end Redeem
