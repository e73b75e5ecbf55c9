import Tokenable.Redeem.FeeCalculator

/-!
# The fees of an estimate add up

With amounts of whole cents no rounding loses anything: each card is in one shipment, each shipment
is charged its shipping once, and the totals by card and by shipment both add up to the total that is
paid.
-/

namespace Redeem.Fee
open Js Platform Vault

theorem nodup_uniqueIds (tokenIds : List ℚ) : (uniqueIds tokenIds).Nodup := nodup_eraseDups _

section Grouping

/-- The groups hold the cards, each group under its key and with one card at least. -/
structure Grouped (groups : OrderedMap JsStr Group) (metas : List TokenMeta) : Prop where
  perm : (groups.values.flatMap Group.tokens).Perm metas
  keyed : ∀ e ∈ groups.entries, e.2.key = e.1
  filled : ∀ e ∈ groups.entries, e.2.tokens ≠ []
  sorted : ∀ e ∈ groups.entries, ∀ m ∈ e.2.tokens, m.groupKey = e.1

theorem grouped_empty : Grouped .empty [] := ⟨.nil, nofun, nofun, nofun⟩

/-- A card opens a group of its own, or joins the one that is there. -/
theorem addToGroup_cases (groups : OrderedMap JsStr Group) (m : TokenMeta) :
    (addToGroup groups m).entries = groups.entries ++ [(m.groupKey, m.newGroup.push m)] ∨
      ∃ front g back, groups.entries = front ++ (m.groupKey, g) :: back ∧
        (addToGroup groups m).entries = front ++ (m.groupKey, g.push m) :: back := by
  rcases groups.set_cases m.groupKey (((groups.get? m.groupKey).getD m.newGroup).push m) with
    ⟨hnone, hentries⟩ | ⟨front, g, back, hsome, hold, hentries⟩
  · left
    rw [hnone] at hentries
    rw [addToGroup, hnone]
    exact hentries
  · right
    rw [hsome] at hentries
    refine ⟨front, g, back, hold, ?_⟩
    rw [addToGroup, hsome]
    exact hentries

theorem Grouped.addToGroup {groups : OrderedMap JsStr Group} {metas : List TokenMeta}
    (h : Grouped groups metas) (m : TokenMeta) : Grouped (addToGroup groups m) (metas ++ [m]) := by
  rcases addToGroup_cases groups m with hentries | ⟨front, g, back, hold, hentries⟩
  · refine ⟨?_, ?_, ?_, ?_⟩
    · rw [OrderedMap.values, hentries, List.map_append, List.flatMap_append]
      exact h.perm.append (.refl [m])
    all_goals
      intro e he
      rw [hentries, List.mem_append, List.mem_singleton] at he
      rcases he with he | rfl
    · exact h.keyed e he
    · rfl
    · exact h.filled e he
    · simp [Group.push]
    · exact h.sorted e he
    · simp [Group.push, TokenMeta.newGroup]
  · have hg : (m.groupKey, g) ∈ groups.entries := by
      rw [hold]
      exact List.mem_append_right _ List.mem_cons_self
    have hcases : ∀ e ∈ (Fee.addToGroup groups m).entries,
        e ∈ groups.entries ∨ e = (m.groupKey, g.push m) := by
      intro e he
      rw [hentries, List.mem_append, List.mem_cons] at he
      rw [hold, List.mem_append, List.mem_cons]
      tauto
    refine ⟨?_, fun e he => ?_, fun e he => ?_, fun e he => ?_⟩
    · have hperm := h.perm
      rw [OrderedMap.values, hold] at hperm
      rw [OrderedMap.values, hentries]
      simp only [List.map_append, List.map_cons, List.flatMap_append, List.flatMap_cons,
        Group.push] at hperm ⊢
      refine .trans ?_ (hperm.append_right [m])
      simp only [List.append_assoc]
      exact (List.perm_append_comm.append_left _).append_left _
    · rcases hcases e he with he | rfl
      · exact h.keyed e he
      · change g.key = m.groupKey
        exact h.keyed _ hg
    · rcases hcases e he with he | rfl
      · exact h.filled e he
      · simp [Group.push]
    · rcases hcases e he with he | rfl
      · exact h.sorted e he
      · intro t ht
        rcases List.mem_append.1 ht with ht | ht
        · exact h.sorted _ hg t ht
        · rw [List.mem_singleton.1 ht]

theorem grouped_groupTokens (metas : List TokenMeta) : Grouped (groupTokens metas) metas := by
  have hrun : ∀ (metas done : List TokenMeta) (groups : OrderedMap JsStr Group),
      Grouped groups done → Grouped (metas.foldl addToGroup groups) (done ++ metas) := by
    intro metas
    induction metas with
    | nil =>
        intro done groups h
        rw [List.append_nil]
        exact h
    | cons m metas ih =>
        intro done groups h
        rw [List.append_cons]
        exact ih _ _ (h.addToGroup m)
  exact hrun metas [] .empty grouped_empty

end Grouping

section Lines

/-- A fee line of whole cents whose total is the sum of its three amounts. -/
structure ExactLine (c : RedeemCardFeeLine) : Prop where
  retrieval : WholeCents c.retrievalUsd
  early : WholeCents c.earlyWithdrawalUsd
  shipping : WholeCents c.shippingUsd
  total : c.totalUsd = c.retrievalUsd + c.earlyWithdrawalUsd + c.shippingUsd

variable {cfg : PsaVaultFeeConfig} {country : RedeemCountry} {key : JsStr}

theorem exactLine_psaLine (hcfg : cfg.WholeCents) (tokenId : ℕ) (vaultedAt : Option ℕ)
    (isFirst : Bool) (now : ℕ) :
    ExactLine (psaLine cfg country key tokenId vaultedAt isFirst now) := by
  have hearly : WholeCents (psaLine cfg country key tokenId vaultedAt isFirst now).earlyWithdrawalUsd := by
    change WholeCents (if isPsaEarlyWithdrawal vaultedAt cfg.earlyDays now then cfg.earlyUsd else 0)
    split_ifs
    · exact hcfg.early
    · exact wholeCents_zero
  have hshipping : WholeCents (psaLine cfg country key tokenId vaultedAt isFirst now).shippingUsd := by
    change WholeCents (if isFirst then psaShippingUsd cfg country else 0)
    split_ifs
    · exact hcfg.shipping country
    · exact wholeCents_zero
  exact ⟨hcfg.retrieval, hearly, hshipping,
    ((hcfg.retrieval.add hearly).add hshipping).roundUsd_eq⟩

theorem exactLine_partnerLine {quote : ShippingRateQuote} (hquote : WholeCents quote.shippingUsd)
    (m : TokenMeta) (isFirst : Bool) : ExactLine (partnerLine quote key m isFirst) := by
  have hshipping : WholeCents (partnerLine quote key m isFirst).shippingUsd := by
    change WholeCents (if isFirst then quote.shippingUsd else 0)
    split_ifs
    · exact hquote
    · exact wholeCents_zero
  refine ⟨wholeCents_zero, wholeCents_zero, hshipping, ?_⟩
  change roundUsd (partnerLine quote key m isFirst).shippingUsd = 0 + 0 + _
  rw [hshipping.roundUsd_eq]
  ring

theorem wholeCents_sumOf {f : RedeemCardFeeLine → ℚ} {cards : List RedeemCardFeeLine}
    (h : ∀ c ∈ cards, WholeCents (f c)) : WholeCents (sumOf f cards) := by
  apply wholeCents_sum
  intro x hx
  obtain ⟨c, hc, rfl⟩ := List.mem_map.1 hx
  exact h c hc

theorem sumOf_total {cards : List RedeemCardFeeLine} (h : ∀ c ∈ cards, ExactLine c) :
    sumOf (·.totalUsd) cards = sumOf (·.retrievalUsd) cards + sumOf (·.earlyWithdrawalUsd) cards +
      sumOf (·.shippingUsd) cards := by
  induction cards with
  | nil => norm_num [sumOf]
  | cons c cards ih =>
      have hc := (h c List.mem_cons_self).total
      have hcards := ih fun d hd => h d (List.mem_cons_of_mem c hd)
      simp only [sumOf, List.map_cons, List.sum_cons] at hcards ⊢
      linarith

end Lines

section Shipments

/-- The first card bears the whole charge. -/
def ChargedOnce (charge : ℚ) (cards : List RedeemCardFeeLine) : Prop :=
  ∃ first rest, cards = first :: rest ∧ first.shippingUsd = charge ∧ ∀ c ∈ rest, c.shippingUsd = 0

theorem ChargedOnce.sumOf_shipping {charge : ℚ} {cards : List RedeemCardFeeLine}
    (h : ChargedOnce charge cards) : sumOf (·.shippingUsd) cards = charge := by
  obtain ⟨first, rest, rfl, rfl, hrest⟩ := h
  have hzero : sumOf (·.shippingUsd) rest = 0 := by
    apply List.sum_eq_zero
    intro x hx
    obtain ⟨c, hc, rfl⟩ := List.mem_map.1 hx
    exact hrest c hc
  simp only [sumOf, List.map_cons, List.sum_cons] at hzero ⊢
  rw [hzero, add_zero]

/-- The lines of the cards in their order, where only the first one bears `charge`. -/
theorem chargedOnce_mapIdx (line : Bool → TokenMeta → RedeemCardFeeLine)
    {tokens : List TokenMeta} {charge : ℚ} (hne : tokens ≠ [])
    (hfirst : ∀ m, (line true m).shippingUsd = charge) (hrest : ∀ m, (line false m).shippingUsd = 0) :
    ChargedOnce charge (tokens.mapIdx fun index m => line (index = 0) m) := by
  cases tokens with
  | nil => exact absurd rfl hne
  | cons m tokens =>
      refine ⟨line true m, tokens.mapIdx fun index m => line (index + 1 = 0) m, List.mapIdx_cons,
        hfirst m, fun c hc => ?_⟩
      obtain ⟨i, hi, rfl⟩ := List.mem_mapIdx.1 hc
      exact hrest _

/-- A shipment whose amounts are the sums over its cards, which bear its key. -/
structure ExactShipment (s : RedeemShipmentEstimate) : Prop where
  lines : ∀ c ∈ s.cards, ExactLine c
  keys : ∀ c ∈ s.cards, c.shipmentKey = s.key
  charged : ChargedOnce s.shippingUsd s.cards
  retrieval : s.retrievalFeeTotalUsd = sumOf (·.retrievalUsd) s.cards
  early : s.earlyWithdrawalFeeTotalUsd = sumOf (·.earlyWithdrawalUsd) s.cards
  total : s.totalUsd = s.shippingUsd + s.retrievalFeeTotalUsd + s.earlyWithdrawalFeeTotalUsd

variable {s : RedeemShipmentEstimate}

theorem ExactShipment.wholeCents_shipping (h : ExactShipment s) : WholeCents s.shippingUsd := by
  rw [← h.charged.sumOf_shipping]
  exact wholeCents_sumOf fun c hc => (h.lines c hc).shipping

theorem ExactShipment.wholeCents_retrieval (h : ExactShipment s) :
    WholeCents s.retrievalFeeTotalUsd := by
  rw [h.retrieval]
  exact wholeCents_sumOf fun c hc => (h.lines c hc).retrieval

theorem ExactShipment.wholeCents_early (h : ExactShipment s) :
    WholeCents s.earlyWithdrawalFeeTotalUsd := by
  rw [h.early]
  exact wholeCents_sumOf fun c hc => (h.lines c hc).early

/-- The cards of a shipment add up to its total. -/
theorem ExactShipment.sumOf_total (h : ExactShipment s) : sumOf (·.totalUsd) s.cards = s.totalUsd := by
  have hsum := Fee.sumOf_total h.lines
  rw [h.charged.sumOf_shipping, ← h.retrieval, ← h.early] at hsum
  rw [hsum, h.total]
  ring

variable {svc : Services} {cfg : PsaVaultFeeConfig} {p : EstimateParams} {g : Group}

theorem chargedOnce_psaShipment (country : RedeemCountry) (hne : g.tokens ≠ []) :
    ChargedOnce (psaShippingUsd cfg country) (psaShipment svc cfg country g).cards :=
  chargedOnce_mapIdx (fun isFirst m =>
    psaLine cfg country g.key m.tokenId m.vaultedAt isFirst (svc.now m.tokenId)) hne
    (fun _ => rfl) (fun _ => rfl)

theorem psaShipment_shippingUsd (hcfg : cfg.WholeCents) (country : RedeemCountry)
    (hne : g.tokens ≠ []) :
    (psaShipment svc cfg country g).shippingUsd = psaShippingUsd cfg country := by
  have honce : ChargedOnce _ (psaShipment svc cfg country g).cards :=
    chargedOnce_psaShipment country hne
  have hcents : WholeCents (psaShippingUsd cfg country) := hcfg.shipping country
  change roundUsd (sumOf (·.shippingUsd) (psaShipment svc cfg country g).cards) = _
  rw [honce.sumOf_shipping, hcents.roundUsd_eq]

theorem exactShipment_psaShipment (hcfg : cfg.WholeCents) (country : RedeemCountry)
    (hne : g.tokens ≠ []) : ExactShipment (psaShipment svc cfg country g) := by
  have hlines : ∀ c ∈ (psaShipment svc cfg country g).cards, ExactLine c ∧ c.shipmentKey = g.key := by
    intro c hc
    obtain ⟨i, hi, rfl⟩ := List.mem_mapIdx.1 hc
    exact ⟨exactLine_psaLine hcfg _ _ _ _, rfl⟩
  have hretrieval := (wholeCents_sumOf fun c hc => (hlines c hc).1.retrieval).roundUsd_eq
  have hearly := (wholeCents_sumOf fun c hc => (hlines c hc).1.early).roundUsd_eq
  have honce : ChargedOnce _ (psaShipment svc cfg country g).cards :=
    chargedOnce_psaShipment country hne
  have hshipping : (psaShipment svc cfg country g).shippingUsd = _ :=
    psaShipment_shippingUsd hcfg country hne
  have hcents : WholeCents (psaShippingUsd cfg country) := hcfg.shipping country
  refine ⟨fun c hc => (hlines c hc).1, fun c hc => (hlines c hc).2, ?_, hretrieval, hearly, ?_⟩
  · rw [hshipping]
    exact honce
  · change roundUsd (sumOf (·.shippingUsd) (psaShipment svc cfg country g).cards +
      (psaShipment svc cfg country g).retrievalFeeTotalUsd +
        (psaShipment svc cfg country g).earlyWithdrawalFeeTotalUsd) = _
    have hretrievalCents : WholeCents (psaShipment svc cfg country g).retrievalFeeTotalUsd :=
      wholeCents_roundUsd (sumOf (·.retrievalUsd) (psaShipment svc cfg country g).cards)
    have hearlyCents : WholeCents (psaShipment svc cfg country g).earlyWithdrawalFeeTotalUsd :=
      wholeCents_roundUsd (sumOf (·.earlyWithdrawalUsd) (psaShipment svc cfg country g).cards)
    rw [honce.sumOf_shipping, hshipping]
    exact ((hcents.add hretrievalCents).add hearlyCents).roundUsd_eq

theorem exactShipment_partnerShipment {quote : ShippingRateQuote}
    (hquote : WholeCents quote.shippingUsd) (partnerId iso : JsStr) (hne : g.tokens ≠ []) :
    ExactShipment (partnerShipment quote partnerId iso g) := by
  have hzero : ∀ f : RedeemCardFeeLine → ℚ,
      (∀ c ∈ (partnerShipment quote partnerId iso g).cards, f c = 0) →
      0 = sumOf f (partnerShipment quote partnerId iso g).cards := by
    intro f hf
    symm
    apply List.sum_eq_zero
    intro x hx
    obtain ⟨c, hc, rfl⟩ := List.mem_map.1 hx
    exact hf c hc
  have hshipping : (partnerShipment quote partnerId iso g).shippingUsd = quote.shippingUsd :=
    hquote.roundUsd_eq
  refine ⟨?_, ?_, ?_, ?_, ?_, ?_⟩
  · intro c hc
    obtain ⟨i, hi, rfl⟩ := List.mem_mapIdx.1 hc
    exact exactLine_partnerLine hquote _ _
  · intro c hc
    obtain ⟨i, hi, rfl⟩ := List.mem_mapIdx.1 hc
    rfl
  · rw [hshipping]
    exact chargedOnce_mapIdx (fun isFirst m => partnerLine quote g.key m isFirst) hne
      (fun _ => rfl) (fun _ => rfl)
  · apply hzero
    intro c hc
    obtain ⟨i, hi, rfl⟩ := List.mem_mapIdx.1 hc
    rfl
  · apply hzero
    intro c hc
    obtain ⟨i, hi, rfl⟩ := List.mem_mapIdx.1 hc
    rfl
  · change (partnerShipment quote partnerId iso g).shippingUsd =
      (partnerShipment quote partnerId iso g).shippingUsd + 0 + 0
    ring

/-- What a shipment is charged for its shipping: the published rate, or the carrier's quote for all
of its cards. -/
def ChargedAtRate (svc : Services) (cfg : PsaVaultFeeConfig) (country : RedeemCountry)
    (s : RedeemShipmentEstimate) : Prop :=
  match s.provider with
  | .psaVault => s.shippingUsd = psaShippingUsd cfg country
  | .partner => ∃ input quote, svc.quote input = .ok quote ∧ input.packageCount = s.cards.length ∧
      s.shippingUsd = quote.shippingUsd

/-- The shipment of a group: its key and its cards are those of the group. -/
structure ShipmentOf (svc : Services) (cfg : PsaVaultFeeConfig) (country : RedeemCountry)
    (g : Group) (s : RedeemShipmentEstimate) : Prop where
  exact_ : ExactShipment s
  key : s.key = g.key
  ids : s.cards.map (·.tokenId) = g.tokens.map TokenMeta.tokenId
  rate : ChargedAtRate svc cfg country s

theorem shipmentOf_quoteGroup (hcfg : cfg.WholeCents)
    (hquotes : ∀ input quote, svc.quote input = .ok quote → WholeCents quote.shippingUsd)
    (hne : g.tokens ≠ []) {iso : Option JsStr} (h : quoteGroup svc cfg p iso g = .ok s) :
    ShipmentOf svc cfg p.country g s := by
  unfold quoteGroup at h
  cases hprovider : g.provider with
  | psaVault =>
      rw [hprovider] at h
      obtain rfl := Except.ok.inj h
      refine ⟨exactShipment_psaShipment hcfg p.country hne, rfl, ?_, ?_⟩
      · apply List.ext_getElem
        · simp [psaShipment]
        · intro i hi hi'
          simp [psaShipment, psaLine]
      · exact psaShipment_shippingUsd hcfg p.country hne
  | partner =>
      rw [hprovider] at h
      simp only [quotePartner, bind_eq_ok] at h
      obtain ⟨originRow, -, h⟩ := h
      cases originRow with
      | none => cases h
      | some origin =>
          cases iso with
          | none => cases h
          | some iso =>
              simp only [bind_eq_ok] at h
              obtain ⟨quote, hquote, h⟩ := h
              obtain rfl := Except.ok.inj h
              have hcents := hquotes _ _ hquote
              refine ⟨exactShipment_partnerShipment hcents _ _ hne, rfl, ?_, ?_⟩
              · apply List.ext_getElem
                · simp [partnerShipment]
                · intro i hi hi'
                  simp [partnerShipment, partnerLine]
              · refine ⟨_, quote, hquote, ?_, hcents.roundUsd_eq⟩
                simp [rateInput, partnerShipment]

end Shipments

section Estimate

variable {env : Env} {svc : Services} {cfg : PsaVaultFeeConfig} {p : EstimateParams}

theorem map_tokenId_of_tokenMetas {custody : List VaultCustodyRow} {ages : List (JsStr × Option ℕ)}
    {ids : List ℕ} {metas : List TokenMeta} (h : tokenMetas custody ages ids = .ok metas) :
    metas.map TokenMeta.tokenId = ids := by
  induction ids generalizing metas with
  | nil =>
      obtain rfl := Except.ok.inj h
      rfl
  | cons id ids ih =>
      simp only [tokenMetas, bind_eq_ok] at h
      obtain ⟨m, hm, ms, hms, h⟩ := h
      obtain rfl := Except.ok.inj h
      have hid : m.tokenId = id := by
        unfold tokenMeta at hm
        split at hm
        · cases hm
        · split at hm
          · obtain rfl := Except.ok.inj hm
            rfl
          · cases hm
      rw [List.map_cons, hid, ih hms]

theorem shipmentsOf_quoteGroups (hcfg : cfg.WholeCents)
    (hquotes : ∀ input quote, svc.quote input = .ok quote → WholeCents quote.shippingUsd)
    {iso : Option JsStr} {groups : List Group} {shipments : List RedeemShipmentEstimate}
    (hne : ∀ g ∈ groups, g.tokens ≠ []) (h : quoteGroups svc cfg p iso groups = .ok shipments) :
    List.Forall₂ (ShipmentOf svc cfg p.country) groups shipments := by
  induction groups generalizing shipments with
  | nil =>
      obtain rfl := Except.ok.inj h
      exact .nil
  | cons g groups ih =>
      simp only [quoteGroups, bind_eq_ok] at h
      obtain ⟨s, hs, ss, hss, h⟩ := h
      obtain rfl := Except.ok.inj h
      apply List.Forall₂.cons
      · exact shipmentOf_quoteGroup hcfg hquotes (hne g List.mem_cons_self) hs
      · exact ih (fun g' hg' => hne g' (List.mem_cons_of_mem g hg')) hss

section Shipped

variable {country : RedeemCountry} {groups : List Group} {shipments : List RedeemShipmentEstimate}

theorem map_key_of_shipped (h : List.Forall₂ (ShipmentOf svc cfg country) groups shipments) :
    shipments.map (·.key) = groups.map Group.key := by
  induction h with
  | nil => rfl
  | cons hs _ ih => rw [List.map_cons, List.map_cons, hs.key, ih]

theorem map_tokenId_of_shipped (h : List.Forall₂ (ShipmentOf svc cfg country) groups shipments) :
    (shipments.flatMap (·.cards)).map (·.tokenId) =
      (groups.flatMap Group.tokens).map TokenMeta.tokenId := by
  induction h with
  | nil => rfl
  | cons hs _ ih =>
      rw [List.flatMap_cons, List.flatMap_cons, List.map_append, List.map_append, hs.ids, ih]

theorem of_mem_shipped (h : List.Forall₂ (ShipmentOf svc cfg country) groups shipments) :
    ∀ s ∈ shipments, ExactShipment s ∧ ChargedAtRate svc cfg country s := by
  induction h with
  | nil => exact fun s hs => absurd hs List.not_mem_nil
  | cons hs _ ih =>
      intro s' hs'
      rcases List.mem_cons.1 hs' with rfl | hs'
      · exact ⟨hs.exact_, hs.rate⟩
      · exact ih s' hs'

end Shipped

theorem wholeCents_sumOver {f : RedeemShipmentEstimate → ℚ} {shipments : List RedeemShipmentEstimate}
    (h : ∀ s ∈ shipments, WholeCents (f s)) : WholeCents (sumOver f shipments) := by
  apply wholeCents_sum
  intro x hx
  obtain ⟨s, hs, rfl⟩ := List.mem_map.1 hx
  exact h s hs

/-- The total of a shipment is the sum of its three parts, and so are the sums over all of them. -/
theorem sumOver_total {shipments : List RedeemShipmentEstimate}
    (h : ∀ s ∈ shipments, ExactShipment s) :
    sumOver (·.totalUsd) shipments = sumOver (·.shippingUsd) shipments +
      (sumOver (·.retrievalFeeTotalUsd) shipments +
        sumOver (·.earlyWithdrawalFeeTotalUsd) shipments) := by
  induction shipments with
  | nil => norm_num [sumOver]
  | cons s shipments ih =>
      have hs := (h s List.mem_cons_self).total
      have hrest := ih fun s' hs' => h s' (List.mem_cons_of_mem s hs')
      simp only [sumOver, List.map_cons, List.sum_cons] at hrest ⊢
      linarith

theorem sumOf_flatMap_cards {shipments : List RedeemShipmentEstimate}
    (h : ∀ s ∈ shipments, ExactShipment s) :
    sumOf (·.totalUsd) (shipments.flatMap (·.cards)) = sumOver (·.totalUsd) shipments := by
  induction shipments with
  | nil => rfl
  | cons s shipments ih =>
      have hs := (h s List.mem_cons_self).sumOf_total
      have hrest := ih fun s' hs' => h s' (List.mem_cons_of_mem s hs')
      simp only [sumOf, sumOver, List.flatMap_cons, List.map_append, List.sum_append,
        List.map_cons, List.sum_cons] at hs hrest ⊢
      rw [hs, hrest]

/-- The total of an estimate is the sum over its shipments, in whole cents. -/
theorem totalUsd_summarize (cfg : PsaVaultFeeConfig) {shipments : List RedeemShipmentEstimate}
    (payTo : Option JsStr) (country : RedeemCountry) (h : ∀ s ∈ shipments, ExactShipment s) :
    (summarize cfg country payTo shipments).totalUsd = sumOver (·.totalUsd) shipments ∧
      (summarize cfg country payTo shipments).shippingUsd = sumOver (·.shippingUsd) shipments := by
  have hshipping : WholeCents (sumOver (·.shippingUsd) shipments) :=
    wholeCents_sumOver fun s hs => (h s hs).wholeCents_shipping
  have hretrieval : WholeCents (sumOver (·.retrievalFeeTotalUsd) shipments) :=
    wholeCents_sumOver fun s hs => (h s hs).wholeCents_retrieval
  have hearly : WholeCents (sumOver (·.earlyWithdrawalFeeTotalUsd) shipments) :=
    wholeCents_sumOver fun s hs => (h s hs).wholeCents_early
  refine ⟨?_, hshipping.roundUsd_eq⟩
  change roundUsd (roundUsd (sumOver (·.shippingUsd) shipments) +
    roundUsd (roundUsd (sumOver (·.retrievalFeeTotalUsd) shipments) +
      roundUsd (sumOver (·.earlyWithdrawalFeeTotalUsd) shipments))) = _
  rw [hshipping.roundUsd_eq, hretrieval.roundUsd_eq, hearly.roundUsd_eq,
    (hretrieval.add hearly).roundUsd_eq, (hshipping.add (hretrieval.add hearly)).roundUsd_eq,
    sumOver_total h]

/-- What an estimate of the tokens `ids` owes: each card in exactly one shipment, shipping charged
once per shipment and at its rate, and the same total by card, by shipment and in micros. -/
structure Conserved (svc : Services) (cfg : PsaVaultFeeConfig) (country : RedeemCountry)
    (ids : List ℕ) (e : RedeemEstimate) : Prop where
  listed : e.cards = e.shipments.flatMap (·.cards)
  perm : (e.cards.map (·.tokenId)).Perm ids
  placed : ∀ id ∈ ids, ∃! s, s ∈ e.shipments ∧ id ∈ s.cards.map (·.tokenId)
  keys : (e.shipments.map (·.key)).Nodup
  ownKey : ∀ s ∈ e.shipments, ∀ c ∈ s.cards, c.shipmentKey = s.key
  charged : ∀ s ∈ e.shipments, ChargedOnce s.shippingUsd s.cards ∧ ChargedAtRate svc cfg country s
  shipping : sumOver (·.shippingUsd) e.shipments = e.shippingUsd
  cardTotals : sumOf (·.totalUsd) e.cards = e.totalUsd
  shipmentTotals : sumOver (·.totalUsd) e.shipments = e.totalUsd
  micros : ∃ cents : ℤ, e.totalUsd = cents / 100 ∧ e.totalUsdcMicros = 10 ^ 4 * cents

/-- Where the cards are listed once, a card is in one shipment only. -/
theorem existsUnique_shipment {shipments : List RedeemShipmentEstimate} {ids : List ℕ} {id : ℕ}
    (hids : ((shipments.flatMap (·.cards)).map (·.tokenId)).Perm ids) (hnodup : ids.Nodup)
    (hid : id ∈ ids) : ∃! s, s ∈ shipments ∧ id ∈ s.cards.map (·.tokenId) := by
  have hlisted : (shipments.flatMap fun s => s.cards.map (·.tokenId)).Nodup := by
    rw [← List.map_flatMap]
    exact hids.nodup_iff.2 hnodup
  have hmem : id ∈ shipments.flatMap fun s => s.cards.map (·.tokenId) := by
    rw [← List.map_flatMap]
    exact hids.mem_iff.2 hid
  obtain ⟨s, hs, hids⟩ := List.mem_flatMap.1 hmem
  refine ⟨s, ⟨hs, hids⟩, ?_⟩
  rintro t ⟨ht, htids⟩
  by_contra hne
  have hdisjoint := (List.nodup_flatMap.1 hlisted).2
  have : Std.Symm (Function.onFun List.Disjoint
      fun s : RedeemShipmentEstimate => s.cards.map (·.tokenId)) := ⟨fun _ _ h => h.symm⟩
  exact hdisjoint.forall ht hs hne htids hids

theorem estimate_conserved (env : Env) (svc : Services) (cfg : PsaVaultFeeConfig)
    (p : EstimateParams) (hcfg : cfg.WholeCents)
    (hquotes : ∀ input quote, svc.quote input = .ok quote → WholeCents quote.shippingUsd)
    (hids : uniqueIds p.tokenIds ≠ []) {e : RedeemEstimate} (h : estimate env svc cfg p = .ok e) :
    Conserved svc cfg p.country (uniqueIds p.tokenIds) e := by
  have hempty : (uniqueIds p.tokenIds).isEmpty = false := by
    cases hcase : uniqueIds p.tokenIds with
    | nil => exact absurd hcase hids
    | cons id ids => rfl
  rw [estimate, hempty] at h
  cases hchain : p.chainId with
  | none =>
      rw [hchain] at h
      cases h
  | some chainId =>
      rw [hchain] at h
      simp only [Bool.false_eq_true, if_false, estimateTokens, bind_eq_ok] at h
      obtain ⟨contract, -, custody, -, ages, -, -, -, metas, hmetas, -, -, iso, -, shipments,
        hshipments, h⟩ := h
      obtain rfl := Except.ok.inj h
      have hgrouped := grouped_groupTokens metas
      have hne : ∀ g ∈ (groupTokens metas).values, g.tokens ≠ [] := by
        intro g hg
        obtain ⟨entry, hentry, rfl⟩ := List.mem_map.1 hg
        exact hgrouped.filled entry hentry
      have hshipped := shipmentsOf_quoteGroups hcfg hquotes hne hshipments
      have hexact := of_mem_shipped hshipped
      have htotal := totalUsd_summarize cfg env.getConfiguredRecipient p.country
        fun s hs => (hexact s hs).1
      have hperm : ((shipments.flatMap (·.cards)).map (·.tokenId)).Perm (uniqueIds p.tokenIds) := by
        rw [map_tokenId_of_shipped hshipped, ← map_tokenId_of_tokenMetas hmetas]
        exact hgrouped.perm.map _
      refine {
        listed := rfl
        perm := hperm
        placed := fun id hid => existsUnique_shipment hperm (nodup_uniqueIds _) hid
        keys := ?_
        ownKey := fun s hs => (hexact s hs).1.keys
        charged := fun s hs => ⟨(hexact s hs).1.charged, (hexact s hs).2⟩
        shipping := htotal.2.symm
        cardTotals := ?_
        shipmentTotals := htotal.1.symm
        micros := ?_ }
      · change (shipments.map (·.key)).Nodup
        have hkeys : (groupTokens metas).values.map Group.key = (groupTokens metas).keys := by
          rw [OrderedMap.values, OrderedMap.keys, List.map_map]
          exact List.map_congr_left fun entry hentry => hgrouped.keyed entry hentry
        rw [map_key_of_shipped hshipped, hkeys]
        exact (groupTokens metas).nodup
      · rw [htotal.1]
        exact sumOf_flatMap_cards fun s hs => (hexact s hs).1
      · obtain ⟨cents, hcents⟩ : WholeCents (summarize cfg p.country env.getConfiguredRecipient
            shipments).totalUsd := wholeCents_roundUsd _
        refine ⟨cents, hcents, ?_⟩
        change usdToUsdcMicros (summarize cfg p.country env.getConfiguredRecipient
          shipments).totalUsd = _
        rw [hcents, WholeCents.usdToUsdcMicros_eq]

/-- Two cards from the PSA vault, of which the second is past the early period, and one from a
partner in the United States. -/
def mixedServices : Services where
  getVaultCustodyRows _ ids := .ok (ids.map fun id =>
    if id = js "9" then ⟨id, some .selfVaultHold, some (js "host"), true⟩
    else ⟨id, some .standard, none, true⟩)
  getDepositedAtByTokenIds _ _ := .ok [(js "7", some 9000000000), (js "8", some 0)]
  findAddressByPartnerId _ := .ok (some {
    country := js "us", city := js "Los Angeles", region := some (js "CA"), postal := js "90015"
    line1 := js "1200 S Figueroa St", residential := false })
  quote := fedexQuote 15 9500000000
  now _ := 9500000000

def mixedEnv : Env := { rwaAddresses := [(11155111, js "0x00000000000000000000000000000000000000aa")] }

def mixedParams : EstimateParams where
  country := .us
  tokenIds := [7, 8, 7, 9]
  chainId := some 11155111
  shipTo := some {
    name := js "Daisy Kim", line1 := js "123 Market St", city := js "San Francisco"
    postal := js "94105", country := js "us", phone := js "+1 555" }

theorem estimate_conserved_mixed :
    ∃ e, estimate mixedEnv mixedServices (loadPsaVaultFeeConfig {}) mixedParams = .ok e ∧
      e.totalUsdcMicros = 54960000 ∧
      Conserved mixedServices (loadPsaVaultFeeConfig {}) .us [7, 8, 9] e := by
  have htotal : (estimate mixedEnv mixedServices (loadPsaVaultFeeConfig {})
      mixedParams).toOption.map (·.totalUsdcMicros) = some 54960000 := by decide +kernel
  have hids : uniqueIds mixedParams.tokenIds = [7, 8, 9] := by decide +kernel
  cases h : estimate mixedEnv mixedServices (loadPsaVaultFeeConfig {}) mixedParams with
  | error e =>
      rw [h] at htotal
      cases htotal
  | ok e =>
      rw [h] at htotal
      have hne : uniqueIds mixedParams.tokenIds ≠ [] := by
        rw [hids]
        exact List.cons_ne_nil 7 [8, 9]
      have hquotes : ∀ input quote, mixedServices.quote input = .ok quote →
          WholeCents quote.shippingUsd := fun input quote hquote => wholeCents_fedexQuote hquote
      have hconserved := estimate_conserved mixedEnv mixedServices (loadPsaVaultFeeConfig {})
        mixedParams (wholeCents_loadPsaVaultFeeConfig (by simp)) hquotes hne h
      rw [hids] at hconserved
      refine ⟨e, rfl, ?_, ?_⟩
      · exact Option.some.inj htotal
      · exact hconserved

end Estimate

end Redeem.Fee
