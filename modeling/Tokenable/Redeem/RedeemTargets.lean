import Tokenable.Vault.CycleStates

/-!
# The cycles that a paid batch comes to

`createPaidRedemptionBatch` takes a vault cycle for every token: the token's own, the open one of its
card, or a new one. What is written for one token leaves the cycles of the others as they were, so a
batch is payable when its first token comes to a free cycle and the rest is payable after it.
-/

namespace Redeem
open Js Platform Async Db Vault Orders Backend
open Cycles (TxTables inTransaction rejectsCycle clash isOpen)

section Targets

/-- The vault cycle that a token is redeemed in: one that is there, or a new one of the card. -/
inductive Target where
  | cycle (id : JsStr)
  | card (certNumber : JsStr)
  deriving DecidableEq

def cardCycle (t : Tables) (chainId : ℕ) (cert : JsStr) : Option JsStr :=
  ((t.assetOf cert).bind fun asset => t.openCycleOf asset.id chainId).map VaultCycle.id

/-- A token without a cycle of its own is redeemed in the one of its card. -/
def targetOf (t : Tables) (chainId : ℕ) (token : RwaToken) : Option Target :=
  match token.vaultCycleId with
  | some id => some (.cycle id)
  | none =>
    let cert := trim (token.certNumber.getD [])
    if cert.isEmpty then none
    else some (((cardCycle t chainId (normalizeCert cert)).map Target.cycle).getD
      (.card (normalizeCert cert)))

/-- The cycle of the row that is locked for a card, unless it is burned. -/
def itemTarget (t : Tables) (chainId : ℕ) (item : PaidItem) : Option Target :=
  (Settlement.findRwaToken t.ledger item.tokenContract item.tokenId).bind fun token =>
    if token.burnedAt.isSome then none else targetOf t chainId token

def cyclesOf (t : Tables) (assetId : JsStr) : List VaultCycle :=
  t.cycles.find fun c => c.vaultAssetId = assetId

/-- The cycle is minted and no redemption of it is open; a new one gets a number of its own. -/
def Target.IsFree (t : Tables) : Target → Prop
  | .cycle id => (t.cycles.get id).map VaultCycle.status = some .minted ∧ t.openRedemptionOf id = none
  | .card cert => ∀ asset, t.assetOf cert = some asset →
    ∀ c ∈ cyclesOf t asset.id, c.cycleNumber ≠ (cyclesOf t asset.id).length + 1

/-- Every card comes to a free cycle, and no two to one. -/
structure Payable (t : Tables) (chainId : ℕ) (items : List PaidItem) : Prop where
  free : ∀ item ∈ items, ∃ target, itemTarget t chainId item = some target ∧ target.IsFree t
  distinct : (items.map (itemTarget t chainId)).Nodup

end Targets

section Database

def usedIds (t : Tables) : List JsStr :=
  t.assets.map VaultAsset.id ++ t.cycles.rows.map VaultCycle.id ++
    t.cycles.rows.map VaultCycle.vaultAssetId ++ t.tokens.filterMap RwaToken.vaultCycleId ++
    t.redemptions.rows.map VaultRedemption.id ++ t.redemptions.rows.map VaultRedemption.vaultCycleId

/-- A drawn id is new, and `computeVaultRef` is a function. -/
def Fresh (vaultRef : JsStr → JsStr) : AllowedStep TxTables World BackendCmd := fun s x c =>
  match c with
  | .inr .uuid => x .uuid ∉ usedIds s.tables
  | .inr (.computeVaultRef cert) => x (.computeVaultRef cert) = vaultRef cert
  | _ => True

structure Indexed (vaultRef : JsStr → JsStr) (t : Tables) : Prop where
  assetIds : (t.assets.map VaultAsset.id).Nodup
  assetRefs : ∀ a ∈ t.assets, a.vaultRef = vaultRef a.externalCertNumber
  cycles : ∀ c ∈ t.cycles.rows, rejectsCycle t c = false

end Database

section Frame
variable {vaultRef : JsStr → JsStr} {t u : Tables} {chainId : ℕ} {item other : PaidItem} {token : RwaToken}
  {target : Target} {id : JsStr}

def SameToken (a b : PaidItem) : Prop :=
  lower a.tokenContract = lower b.tokenContract ∧
    normalizeDecimalTokenId a.tokenId = normalizeDecimalTokenId b.tokenId

theorem mem_usedIds_cycle {c : VaultCycle} (h : c ∈ t.cycles.rows) : c.id ∈ usedIds t := by
  simp only [usedIds, List.mem_append]
  exact .inl (.inl (.inl (.inl (.inr (List.mem_map_of_mem h)))))

theorem mem_usedIds_assetOf {c : VaultCycle} (h : c ∈ t.cycles.rows) : c.vaultAssetId ∈ usedIds t := by
  simp only [usedIds, List.mem_append]
  exact .inl (.inl (.inl (.inr (List.mem_map_of_mem h))))

theorem mem_usedIds_asset {a : VaultAsset} (h : a ∈ t.assets) : a.id ∈ usedIds t := by
  simp only [usedIds, List.mem_append]
  exact .inl (.inl (.inl (.inl (.inl (List.mem_map_of_mem h)))))

theorem mem_usedIds_token (h : token ∈ t.tokens) (hid : token.vaultCycleId = some id) :
    id ∈ usedIds t := by
  simp only [usedIds, List.mem_append]
  exact .inl (.inl (.inr (List.mem_filterMap.mpr ⟨token, h, hid⟩)))

theorem mem_usedIds_redemption {r : VaultRedemption} (h : r ∈ t.redemptions.rows) :
    r.id ∈ usedIds t ∧ r.vaultCycleId ∈ usedIds t := by
  simp only [usedIds, List.mem_append]
  exact ⟨.inl (.inr (List.mem_map_of_mem h)), .inr (List.mem_map_of_mem h)⟩

theorem openCycleOf_spec {assetId : JsStr} {c : VaultCycle} (h : t.openCycleOf assetId chainId = some c) :
    c ∈ t.cycles.rows ∧ c.vaultAssetId = assetId ∧ c.chainId = chainId ∧ isOpen c = true := by
  have hc := List.find?_some h
  simp only [Bool.and_eq_true, decide_eq_true_eq] at hc
  refine ⟨List.mem_of_find?_eq_some h, hc.1.1.1, hc.1.1.2, ?_⟩
  simp [isOpen, hc.1.2, hc.2]

/-- The ids of targets are in use. -/
theorem mem_usedIds_of_targetOf (hmem : token ∈ t.tokens)
    (h : targetOf t chainId token = some (.cycle id)) : id ∈ usedIds t := by
  unfold targetOf at h
  split at h
  · rename_i k hk
    obtain rfl := Target.cycle.inj (Option.some.inj h)
    exact mem_usedIds_token hmem hk
  · dsimp only at h
    split_ifs at h
    cases hcard : cardCycle t chainId (normalizeCert (trim (token.certNumber.getD []))) with
    | none =>
      rw [hcard] at h
      cases h
    | some k =>
      rw [hcard] at h
      obtain rfl := Target.cycle.inj (Option.some.inj h)
      obtain ⟨c, hc, rfl⟩ := Option.map_eq_some_iff.mp hcard
      obtain ⟨asset, -, hopen⟩ := Option.bind_eq_some_iff.mp hc
      exact mem_usedIds_cycle (openCycleOf_spec hopen).1

/-- What the other items see of the writes for an item with this target, which came to the cycle `id`. -/
structure Moved (t u : Tables) (chainId : ℕ) (item : PaidItem) (target : Target) (id : JsStr) :
    Prop where
  tokens : ∀ other, ¬ SameToken item other →
    Settlement.findRwaToken u.ledger other.tokenContract other.tokenId =
      Settlement.findRwaToken t.ledger other.tokenContract other.tokenId
  cards : ∀ cert, cardCycle u chainId cert =
    if target = .card cert then some id else cardCycle t chainId cert
  numbers : ∀ cert, target ≠ .card cert → ((Target.card cert).IsFree u ↔ (Target.card cert).IsFree t)
  cycles : ∀ k, k ≠ id → (u.cycles.get k).map VaultCycle.status = (t.cycles.get k).map VaultCycle.status
  redemptions : ∀ k, k ≠ id → u.openRedemptionOf k = t.openRedemptionOf k
  came : target = .cycle id ∨
    ((∃ cert, target = .card cert ∧ cardCycle t chainId cert = none) ∧ id ∉ usedIds t)

theorem Moved.eq_of_cycle (h : Moved t u chainId item target id) {k : JsStr} (hk : target = .cycle k) :
    k = id := by
  rcases h.came with heq | ⟨⟨cert, hcert, -⟩, -⟩
  · rw [hk] at heq
    exact Target.cycle.inj heq
  · rw [hk] at hcert
    cases hcert

/-- The token of another item comes to the taken cycle when it had the same target. -/
theorem Moved.targetOf_eq (h : Moved t u chainId item target id) (token : RwaToken) :
    targetOf u chainId token =
      if targetOf t chainId token = some target then some (.cycle id) else targetOf t chainId token := by
  unfold targetOf
  cases hown : token.vaultCycleId with
  | some k =>
    dsimp only
    split_ifs with hsame
    · rw [h.eq_of_cycle (Option.some.inj hsame).symm]
    · rfl
  | none =>
    dsimp only
    by_cases hblank : (trim (token.certNumber.getD [])).isEmpty = true
    · simp [hblank]
    · rw [if_neg hblank, if_neg hblank, h.cards]
      generalize normalizeCert (trim (token.certNumber.getD [])) = cert
      by_cases hcert : target = .card cert
      · have hnone : cardCycle t chainId cert = none := by
          rcases h.came with heq | ⟨⟨cert', hcert', hnone⟩, -⟩
          · rw [hcert] at heq
            cases heq
          · rw [hcert] at hcert'
            rw [Target.card.inj hcert']
            exact hnone
        simp [hcert, hnone]
      · rw [if_neg hcert]
        cases hcard : cardCycle t chainId cert with
        | none => simp [Ne.symm hcert]
        | some k =>
          by_cases hk : target = .cycle k
          · simp [hk, h.eq_of_cycle hk]
          · simp [Ne.symm hk]

theorem Moved.itemTarget_eq (h : Moved t u chainId item target id) (hother : ¬ SameToken item other) :
    itemTarget u chainId other =
      if itemTarget t chainId other = some target then some (.cycle id)
      else itemTarget t chainId other := by
  unfold itemTarget
  rw [h.tokens other hother]
  cases Settlement.findRwaToken t.ledger other.tokenContract other.tokenId with
  | none => simp
  | some token =>
    by_cases hburned : token.burnedAt.isSome = true
    · simp [hburned]
    · simp [hburned, h.targetOf_eq token]

theorem mem_usedIds_of_itemTarget (h : itemTarget t chainId item = some (.cycle id)) :
    id ∈ usedIds t := by
  obtain ⟨token, htoken, htarget⟩ := Option.bind_eq_some_iff.mp h
  split_ifs at htarget
  exact mem_usedIds_of_targetOf (List.mem_of_find?_eq_some htoken) htarget

/-- The other targets are as free as before. -/
theorem Moved.isFree_iff (h : Moved t u chainId item target id) {target' : Target}
    (htarget : itemTarget t chainId other = some target') (hne : target' ≠ target) :
    target'.IsFree u ↔ target'.IsFree t := by
  cases target' with
  | card cert => exact h.numbers cert (Ne.symm hne)
  | cycle k =>
    have hk : k ≠ id := by
      rintro rfl
      rcases h.came with heq | ⟨-, hnew⟩
      · exact hne heq.symm
      · exact hnew (mem_usedIds_of_itemTarget htarget)
    simp only [Target.IsFree]
    rw [h.cycles k hk, h.redemptions k hk]

theorem not_isFree_of_requested
    (h : (u.cycles.get id).map VaultCycle.status = some .redemptionRequested) :
    ¬ (Target.cycle id).IsFree u := by
  rintro ⟨hminted, -⟩
  rw [h] at hminted
  cases hminted

/-- A batch is payable when its first card is, and the others are after it. -/
theorem payable_cons {items : List PaidItem} (h : Moved t u chainId item target id)
    (htaken : (u.cycles.get id).map VaultCycle.status = some .redemptionRequested)
    (htarget : itemTarget t chainId item = some target) (hfree : target.IsFree t)
    (hothers : ∀ other ∈ items, ¬ SameToken item other) :
    Payable t chainId (item :: items) ↔ Payable u chainId items := by
  constructor
  · intro hpay
    have hdistinct := hpay.distinct
    rw [List.map_cons, List.nodup_cons] at hdistinct
    have hsame : ∀ other ∈ items, itemTarget t chainId other ≠ some target := by
      intro other hother heq
      apply hdistinct.1
      rw [htarget, ← heq]
      exact List.mem_map_of_mem hother
    have heq : ∀ other ∈ items, itemTarget u chainId other = itemTarget t chainId other := by
      intro other hother
      rw [h.itemTarget_eq (hothers other hother), if_neg (hsame other hother)]
    constructor
    · intro other hother
      obtain ⟨target', htarget', hfree'⟩ := hpay.free other (List.mem_cons_of_mem _ hother)
      refine ⟨target', (heq other hother).trans htarget', ?_⟩
      apply (h.isFree_iff htarget' _).mpr hfree'
      rintro rfl
      exact hsame other hother htarget'
    · rw [List.map_congr_left heq]
      exact hdistinct.2
  · intro hpay
    have hsame : ∀ other ∈ items, itemTarget t chainId other ≠ some target := by
      intro other hother heq
      obtain ⟨target', htarget', hfree'⟩ := hpay.free other hother
      rw [h.itemTarget_eq (hothers other hother), if_pos heq] at htarget'
      obtain rfl := Option.some.inj htarget'
      exact not_isFree_of_requested htaken hfree'
    have heq : ∀ other ∈ items, itemTarget u chainId other = itemTarget t chainId other := by
      intro other hother
      rw [h.itemTarget_eq (hothers other hother), if_neg (hsame other hother)]
    constructor
    · intro other hother
      rcases List.mem_cons.mp hother with rfl | hother
      · exact ⟨target, htarget, hfree⟩
      · obtain ⟨target', htarget', hfree'⟩ := hpay.free other hother
        have hold := (heq other hother).symm.trans htarget'
        refine ⟨target', hold, (h.isFree_iff hold ?_).mp hfree'⟩
        rintro rfl
        exact hsame other hother hold
    · rw [List.map_cons, List.nodup_cons, ← List.map_congr_left heq]
      refine ⟨fun hmem => ?_, hpay.distinct⟩
      obtain ⟨other, hother, hsame'⟩ := List.mem_map.mp hmem
      rw [heq other hother, htarget] at hsame'
      exact hsame other hother hsame'

end Frame

section Rows
variable {vaultRef : JsStr → JsStr} {t u : Tables} {chainId : ℕ} {item other : PaidItem}
  {token : RwaToken} {id : JsStr} {c : VaultCycle}

/-- The save of a token row is nothing to the other tokens. -/
theorem findRwaToken_saveToken {saved : RwaToken} {tokenContract tokenId : JsStr}
    (hne : ¬ (lower saved.tokenContract = lower tokenContract ∧
      normalizeDecimalTokenId saved.tokenId = normalizeDecimalTokenId tokenId)) :
    Settlement.findRwaToken (t.saveToken saved).ledger tokenContract tokenId =
      Settlement.findRwaToken t.ledger tokenContract tokenId := by
  unfold Settlement.findRwaToken
  change (t.tokens.map fun r => if r.key = saved.key then saved else r).find? _ = t.tokens.find? _
  generalize t.tokens = rows
  induction rows with
  | nil => rfl
  | cons r rows ih =>
    by_cases hkey : r.key = saved.key
    · obtain ⟨hcontract, hid⟩ := Prod.mk.inj hkey
      have hsaved : (decide (lower saved.tokenContract = lower tokenContract) &&
          decide (normalizeDecimalTokenId saved.tokenId = normalizeDecimalTokenId tokenId)) = false := by
        rw [Bool.and_eq_false_iff, decide_eq_false_iff_not, decide_eq_false_iff_not]
        exact not_and_or.mp hne
      have hold := hsaved
      rw [← hcontract, ← hid] at hold
      rw [List.map_cons, if_pos hkey, List.find?_cons_of_neg (by rw [hsaved]; exact Bool.false_ne_true),
        List.find?_cons_of_neg (by rw [hold]; exact Bool.false_ne_true)]
      exact ih
    · rw [List.map_cons, if_neg hkey, List.find?_cons, List.find?_cons, ih]

theorem get_cycle_of_openCycleOf {assetId : JsStr} (h : t.openCycleOf assetId chainId = some c) :
    t.cycles.get c.id = some c := Table.get_of_mem (openCycleOf_spec h).1

theorem moved_refl (t : Tables) (chainId : ℕ) (item : PaidItem) (id : JsStr) :
    Moved t t chainId item (.cycle id) id where
  tokens _ _ := rfl
  cards _ := (if_neg Target.noConfusion).symm
  numbers _ _ := Iff.rfl
  cycles _ _ := rfl
  redemptions _ _ := rfl
  came := .inl rfl

variable {target : Target}

/-- The row of the item's own token may be saved. -/
theorem Moved.saveToken (h : Moved t u chainId item target id) (saved : RwaToken)
    (hcontract : lower saved.tokenContract = lower item.tokenContract)
    (hid : normalizeDecimalTokenId saved.tokenId = normalizeDecimalTokenId item.tokenId) :
    Moved t (u.saveToken saved) chainId item target id where
  tokens other hother := by
    rw [findRwaToken_saveToken, h.tokens other hother]
    rintro ⟨hcontract', hid'⟩
    exact hother ⟨hcontract.symm.trans hcontract', hid.symm.trans hid'⟩
  cards := h.cards
  numbers := h.numbers
  cycles := h.cycles
  redemptions := h.redemptions
  came := h.came

theorem assetOf_spec {cert : JsStr} {asset : VaultAsset} (h : t.assetOf cert = some asset) :
    asset ∈ t.assets ∧ asset.externalCertNumber = cert := by
  refine ⟨List.mem_of_find?_eq_some h, ?_⟩
  have hcert := List.find?_some h
  rwa [decide_eq_true_eq] at hcert

def addAsset (t : Tables) (asset : VaultAsset) : Tables := { t with assets := t.assets ++ [asset] }

def addCycle (t : Tables) (c : VaultCycle) : Tables := { t with cycles := t.cycles.save c }

section AddAsset
variable {asset : VaultAsset} (hnone : t.assetOf asset.externalCertNumber = none)
  (hfresh : asset.id ∉ usedIds t)
include hnone

theorem assetOf_addAsset (cert : JsStr) : (addAsset t asset).assetOf cert =
    if cert = asset.externalCertNumber then some asset else t.assetOf cert := by
  change (t.assets ++ [asset]).find? _ = _
  rw [List.find?_append]
  split_ifs with hcert
  · have hold : t.assets.find? (fun a => a.externalCertNumber = cert) = none := by
      rw [hcert]
      exact hnone
    rw [hold, Option.none_or, List.find?_cons_of_pos (by simp [hcert])]
  · rw [List.find?_cons_of_neg (by simpa using Ne.symm hcert), List.find?_nil, Option.or_none]
    rfl

include hfresh

theorem cardCycle_addAsset (cert : JsStr) :
    cardCycle (addAsset t asset) chainId cert = cardCycle t chainId cert := by
  unfold cardCycle
  rw [assetOf_addAsset hnone]
  split_ifs with hcert
  · have hopen : t.openCycleOf asset.id chainId = none := by
      cases hfound : t.openCycleOf asset.id chainId with
      | none => rfl
      | some c =>
        obtain ⟨hmem, hasset, -⟩ := openCycleOf_spec hfound
        rw [← hasset] at hfresh
        exact absurd (mem_usedIds_assetOf hmem) hfresh
    rw [hcert, hnone]
    change (t.openCycleOf asset.id chainId).map VaultCycle.id = none
    rw [hopen]
    rfl
  · rfl

theorem isFree_card_addAsset (cert : JsStr) :
    (Target.card cert).IsFree (addAsset t asset) ↔ (Target.card cert).IsFree t := by
  simp only [Target.IsFree]
  rw [assetOf_addAsset hnone]
  split_ifs with hcert
  · rw [hcert, hnone]
    constructor
    · intro _ other hother
      cases hother
    · intro _ other hother d hd
      obtain rfl := Option.some.inj hother
      obtain ⟨hmem, hof⟩ := Table.mem_find.mp hd
      rw [← of_decide_eq_true hof] at hfresh
      exact absurd (mem_usedIds_assetOf (t := t) hmem) hfresh
  · exact Iff.rfl

omit hnone in
theorem indexed_addAsset (hindexed : Indexed vaultRef t)
    (href : asset.vaultRef = vaultRef asset.externalCertNumber) :
    Indexed vaultRef (addAsset t asset) where
  assetIds := by
    change ((t.assets ++ [asset]).map VaultAsset.id).Nodup
    rw [List.map_append, List.map_singleton]
    apply List.nodup_append.mpr
    refine ⟨hindexed.assetIds, List.nodup_singleton _, ?_⟩
    intro k hk l hl hkl
    obtain ⟨a, ha, rfl⟩ := List.mem_map.mp hk
    rw [List.mem_singleton.mp hl] at hkl
    rw [← hkl] at hfresh
    exact hfresh (mem_usedIds_asset ha)
  assetRefs a ha := by
    rcases List.mem_append.mp ha with hold | hnew
    · exact hindexed.assetRefs a hold
    · rw [List.mem_singleton.mp hnew]
      exact href
  cycles := hindexed.cycles

end AddAsset

theorem clash_comm (c d : VaultCycle) : clash c d = clash d c := by
  unfold clash
  rw [decide_eq_decide.mpr (ne_comm (a := d.id)), decide_eq_decide.mpr (eq_comm (a := d.vaultAssetId)),
    decide_eq_decide.mpr (eq_comm (a := d.cycleNumber)), decide_eq_decide.mpr (eq_comm (a := d.chainId)),
    Bool.and_assoc (decide (c.chainId = d.chainId)), Bool.and_comm (isOpen c), ← Bool.and_assoc]

theorem cycles_save (h : ∀ d ∈ t.cycles.rows, rejectsCycle t d = false)
    (hc : rejectsCycle t c = false) :
    ∀ d ∈ (addCycle t c).cycles.rows, rejectsCycle (addCycle t c) d = false := by
  have hnew : ∀ d ∈ t.cycles.rows, clash c d = false :=
    fun d hd => Bool.eq_false_iff.mpr (List.any_eq_false.mp hc d hd)
  intro d hd
  apply List.any_eq_false.mpr
  intro e he
  rw [Bool.not_eq_true]
  rcases Table.mem_save.mp hd with rfl | ⟨hold, -⟩
  · rcases Table.mem_save.mp he with rfl | ⟨hold', -⟩
    · simp [clash]
    · exact hnew e hold'
  · rcases Table.mem_save.mp he with rfl | ⟨hold', -⟩
    · rw [clash_comm]
      exact hnew d hold
    · exact Bool.eq_false_iff.mpr (List.any_eq_false.mp (h d hold) e hold')

section AddCycle
variable {asset : VaultAsset} {cert : JsStr} (hids : (t.assets.map VaultAsset.id).Nodup)
  (hasset : t.assetOf cert = some asset) (hof : c.vaultAssetId = asset.id)
  (hnew : t.cycles.get c.id = none)
include hids hasset hof

/-- Another card has another asset, and so another list of cycles. -/
theorem assetId_ne {cert' : JsStr} {other : VaultAsset} (hother : t.assetOf cert' = some other)
    (hne : cert' ≠ cert) : c.vaultAssetId ≠ other.id := by
  intro hsame
  obtain ⟨hmem, hcert⟩ := assetOf_spec hasset
  obtain ⟨hmem', hcert'⟩ := assetOf_spec hother
  have heq := List.inj_on_of_nodup_map hids hmem hmem' (hof.symm.trans hsame)
  rw [heq, hcert'] at hcert
  exact hne hcert

include hnew

theorem cardCycle_addCycle (hchain : c.chainId = chainId) (hopen : isOpen c = true)
    (hnone : t.openCycleOf asset.id chainId = none) (cert' : JsStr) :
    cardCycle (addCycle t c) chainId cert' =
      if cert' = cert then some c.id else cardCycle t chainId cert' := by
  have hfind : ∀ id, (addCycle t c).openCycleOf id chainId =
      (t.openCycleOf id chainId).or (if c.vaultAssetId = id then some c else none) := by
    intro id
    rw [isOpen, Bool.and_eq_true, decide_eq_true_eq, decide_eq_true_eq] at hopen
    refine (Table.find?_save_of_get_eq_none hnew _).trans ?_
    simp only [hchain, hopen.1, hopen.2, ne_eq, not_false_eq_true, decide_true, Bool.and_true,
      decide_eq_true_eq]
    rfl
  unfold cardCycle
  change ((t.assetOf cert').bind fun a => (addCycle t c).openCycleOf a.id chainId).map VaultCycle.id = _
  by_cases hcert : cert' = cert
  · rw [if_pos hcert, hcert, hasset, Option.bind_some, hfind, hnone, if_pos hof]
    rfl
  · rw [if_neg hcert]
    cases hother : t.assetOf cert' with
    | none => rfl
    | some other =>
      rw [Option.bind_some, Option.bind_some, hfind, if_neg (assetId_ne hids hasset hof hother hcert),
        Option.or_none]

theorem isFree_card_addCycle {cert' : JsStr} (hne : cert' ≠ cert) :
    (Target.card cert').IsFree (addCycle t c) ↔ (Target.card cert').IsFree t := by
  have hcycles : ∀ other, t.assetOf cert' = some other →
      cyclesOf (addCycle t c) other.id = cyclesOf t other.id := by
    intro other hother
    have hfalse := assetId_ne hids hasset hof hother hne
    refine (Table.find_save_of_get_eq_none hnew _).trans ?_
    simp [hfalse, cyclesOf]
  constructor
  · intro h other hother
    rw [← hcycles other hother]
    exact h other hother
  · intro h other hother
    rw [hcycles other hother]
    exact h other hother

end AddCycle

section Request
variable (hget : t.cycles.get c.id = some c)
include hget

/-- The cycle with its redemption requested is as open as before. -/
theorem cardCycle_request (hopen : isOpen c = true) (cert : JsStr) :
    cardCycle (addCycle t { c with status := .redemptionRequested }) chainId cert =
      cardCycle t chainId cert := by
  have hfind : ∀ id,
      ((addCycle t { c with status := .redemptionRequested }).openCycleOf id chainId).map VaultCycle.id =
        (t.openCycleOf id chainId).map VaultCycle.id := by
    intro id
    rw [isOpen, Bool.and_eq_true, decide_eq_true_eq, decide_eq_true_eq] at hopen
    have hsave := Table.find?_save_of_get_eq_some (r := { c with status := .redemptionRequested }) hget
      (p := fun d => d.vaultAssetId = id && d.chainId = chainId && d.status ≠ .redeemed &&
        d.status ≠ .cancelled) (by simp [hopen.1, hopen.2])
    refine (congrArg (Option.map VaultCycle.id) hsave).trans ?_
    rw [Option.map_map]
    change (t.openCycleOf id chainId).map _ = _
    congr 1
    funext d
    rw [Function.comp_apply]
    split_ifs with hd
    · exact hd.symm
    · rfl
  unfold cardCycle
  rw [Option.map_bind, Option.map_bind]
  congr 1
  funext asset
  exact hfind asset.id

theorem isFree_card_request (cert : JsStr) :
    (Target.card cert).IsFree (addCycle t { c with status := .redemptionRequested }) ↔
      (Target.card cert).IsFree t := by
  have hcycles : ∀ id, (cyclesOf (addCycle t { c with status := .redemptionRequested }) id).map
      VaultCycle.cycleNumber = (cyclesOf t id).map VaultCycle.cycleNumber := by
    intro id
    have hsave := Table.find_save_of_get_eq_some (r := { c with status := .redemptionRequested }) (x := c)
      hget (p := fun d => d.vaultAssetId = id) rfl
    refine (congrArg (List.map VaultCycle.cycleNumber) hsave).trans ?_
    rw [List.map_map]
    apply List.map_congr_left
    intro d hd
    rw [Function.comp_apply]
    split_ifs with hid
    · have hmem := (Table.mem_find.mp hd).1
      rw [Table.key_inj hmem (Table.mem_of_get hget) hid]
    · rfl
  have hiff : ∀ id, (∀ d ∈ cyclesOf (addCycle t { c with status := .redemptionRequested }) id,
      d.cycleNumber ≠ (cyclesOf (addCycle t { c with status := .redemptionRequested }) id).length + 1) ↔
        ∀ d ∈ cyclesOf t id, d.cycleNumber ≠ (cyclesOf t id).length + 1 := by
    intro id
    have hlength := congrArg List.length (hcycles id)
    rw [List.length_map, List.length_map] at hlength
    have hforall := List.forall_mem_map (f := VaultCycle.cycleNumber) (l := cyclesOf t id)
      (P := fun n => n ≠ (cyclesOf t id).length + 1)
    rw [hlength, ← hforall, ← hcycles id, List.forall_mem_map]
  exact forall_congr' fun asset => forall_congr' fun _ => hiff asset.id

omit hget in
theorem rejectsCycle_request (hopen : isOpen c = true) (h : rejectsCycle t c = false) :
    rejectsCycle t { c with status := .redemptionRequested } = false := by
  rw [← h]
  unfold rejectsCycle
  congr 1
  funext d
  have hopen' : isOpen { c with status := .redemptionRequested } = true := rfl
  simp only [clash, hopen, hopen']

end Request

theorem openRedemptionOf_insert {row : VaultRedemption} {k : JsStr}
    (hfresh : t.redemptions.get row.id = none) (hne : row.vaultCycleId ≠ k) :
    ({ t with redemptions := t.redemptions.save row } : Tables).openRedemptionOf k =
      t.openRedemptionOf k := by
  refine (Table.find?_save_of_get_eq_none hfresh _).trans ?_
  simp [hne, Tables.openRedemptionOf]

end Rows

end Redeem
