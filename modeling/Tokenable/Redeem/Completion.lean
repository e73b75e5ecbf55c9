import Tokenable.Redeem.DeliveryTrack

/-!
# A completed redemption has a redeemed cycle

Nothing takes a cycle out of `redeemed`, a token off its cycle or a redemption into another batch,
so what a receipt has learnt of a card stays true while it waits. It completes a batch when each
card's cycle is redeemed, provided that every card that it finds marked as burned has a redeemed
cycle already.
-/

namespace Receipts
open Js Platform Async Db Vault Redeem Backend

def CycleRedeemed (t : Tables) (cycleId : JsStr) : Prop :=
  ∃ c ∈ t.cycles.get cycleId, c.status = .redeemed

def CompletedRedeemed (t : Tables) : Prop :=
  ∀ r ∈ t.redemptions.rows, r.status = .completed → CycleRedeemed t r.vaultCycleId

/-- A receipt that looks the token of a redemption up finds the row that is linked to its cycle, not
marked as burned, unless the cycle is redeemed. -/
abbrev UnburnedLookup : Allowed Store Cmd
  | _, s, .findTokenForReceipt redemptionId contract tokenId =>
    ∀ r ∈ s.db.redemptions.get redemptionId, CycleRedeemed s.db r.vaultCycleId ∨
      ∃ t ∈ findToken s.db.tokens contract tokenId,
        t.vaultCycleId = some r.vaultCycleId ∧ t.burnedAt = none
  | _, _, _ => True

instance (t : Tables) (cycleId : JsStr) : Decidable (CycleRedeemed t cycleId) :=
  inferInstanceAs (Decidable (∃ c ∈ t.cycles.get cycleId, c.status = .redeemed))

instance (i : ℕ) (s : Store) (c : Cmd) : Decidable (UnburnedLookup i s c) := by
  unfold UnburnedLookup
  split <;> infer_instance

/-- A card of the contract is linked to the cycle, or to none. -/
def Linked (t : Tables) (key : JsStr × JsStr) (cycleId : Option JsStr) : Prop :=
  ∃ r ∈ t.tokens, r.key = key ∧ r.vaultCycleId = cycleId

def HasCycle (t : Tables) (cycleId : JsStr) : Prop := (t.cycles.get cycleId).isSome

/-- The columns of a redemption that no statement changes. -/
def SameRequest (r r' : VaultRedemption) : Prop :=
  r'.vaultCycleId = r.vaultCycleId ∧ r'.paymentBatchId = r.paymentBatchId ∧ r'.chainId = r.chainId

def Requested (t : Tables) (r : VaultRedemption) : Prop :=
  ∃ stored, t.redemptions.get r.id = some stored ∧ SameRequest stored r

/-- The rows that a batch of the chain consists of have a redeemed cycle, or one of the given ones.
-/
def Covered (t : Tables) (batchId : JsStr) (chainId : ℕ) (cycleIds : List JsStr) : Prop :=
  ∀ r ∈ t.redemptions.rows, r.paymentBatchId = some batchId →
    ∃ c, t.cycles.get r.vaultCycleId = some c ∧
      (r.chainId.getD c.chainId = chainId → c.status = .redeemed ∨ r.vaultCycleId ∈ cycleIds)

/-- What the constraints of the database keep, and the claim of the receipts. -/
structure Inv (t : Tables) : Prop where
  keys : (t.tokens.map RwaToken.key).Nodup
  cycles : ∀ r ∈ t.redemptions.rows, HasCycle t r.vaultCycleId
  completed : CompletedRedeemed t

/-- A cycle that stays in its chain, and redeemed once it is. -/
def CycleStays (c d : VaultCycle) : Prop :=
  d.chainId = c.chainId ∧ (c.status = .redeemed → d.status = .redeemed)

structure Evolves (t u : Tables) : Prop where
  cycles : Table.Keeps CycleStays t.cycles u.cycles
  tokens : ∀ r ∈ t.tokens, Linked u r.key r.vaultCycleId
  redemptions : Table.Keeps SameRequest t.redemptions u.redemptions
  added : ∀ r ∈ u.redemptions.rows, t.redemptions.get r.id = none → r.paymentBatchId = none

section Evolution
variable {t u v : Tables}

theorem SameRequest.refl (r : VaultRedemption) : SameRequest r r := ⟨rfl, rfl, rfl⟩

theorem SameRequest.trans {a b c : VaultRedemption} (hab : SameRequest a b)
    (hbc : SameRequest b c) : SameRequest a c :=
  ⟨hbc.1.trans hab.1, hbc.2.1.trans hab.2.1, hbc.2.2.trans hab.2.2⟩

theorem CycleStays.refl (c : VaultCycle) : CycleStays c c := ⟨rfl, id⟩

theorem CycleStays.trans {a b c : VaultCycle} (hab : CycleStays a b) (hbc : CycleStays b c) :
    CycleStays a c :=
  ⟨hbc.1.trans hab.1, fun ha => hbc.2 (hab.2 ha)⟩

theorem Evolves.refl (t : Tables) : Evolves t t where
  cycles := .refl CycleStays.refl _
  tokens r hr := ⟨r, hr, rfl, rfl⟩
  redemptions := .refl SameRequest.refl _
  added r hr hnone := by
    rw [Table.get_of_mem hr] at hnone
    cases hnone

theorem Evolves.trans (htu : Evolves t u) (huv : Evolves u v) : Evolves t v where
  cycles := Table.Keeps.trans (fun _ _ _ hab hbc => hab.trans hbc) htu.cycles huv.cycles
  tokens r hr := by
    obtain ⟨r', hr', hkey, hlink⟩ := htu.tokens r hr
    obtain ⟨r'', hr'', hkey', hlink'⟩ := huv.tokens r' hr'
    exact ⟨r'', hr'', hkey'.trans hkey, hlink'.trans hlink⟩
  redemptions :=
    Table.Keeps.trans (fun _ _ _ hab hbc => hab.trans hbc) htu.redemptions huv.redemptions
  added r hr hnone := by
    cases hu : u.redemptions.get r.id with
    | none => exact huv.added r hr hu
    | some r' =>
      obtain ⟨hr', hid⟩ := Table.get_eq_some.mp hu
      obtain ⟨r'', hr'', hsame⟩ := huv.redemptions r.id r' hu
      have hrr : r'' = r := Option.some.inj (hr''.symm.trans (Table.get_of_mem hr))
      have hbatch : r'.paymentBatchId = none := htu.added r' hr' (by rw [hid, hnone])
      rw [← hrr, hsame.2.1, hbatch]

theorem CycleRedeemed.evolve {cycleId : JsStr} (h : CycleRedeemed t cycleId) (htu : Evolves t u) :
    CycleRedeemed u cycleId := by
  obtain ⟨c, hc, hredeemed⟩ := h
  obtain ⟨d, hd, hstays⟩ := htu.cycles cycleId c hc
  exact ⟨d, hd, hstays.2 hredeemed⟩

theorem HasCycle.evolve {cycleId : JsStr} (h : HasCycle t cycleId) (htu : Evolves t u) :
    HasCycle u cycleId := by
  obtain ⟨c, hc⟩ := Option.isSome_iff_exists.mp h
  obtain ⟨d, hd, -⟩ := htu.cycles cycleId c hc
  exact Option.isSome_iff_exists.mpr ⟨d, hd⟩

theorem Linked.evolve {key : JsStr × JsStr} {cycleId : Option JsStr} (h : Linked t key cycleId)
    (htu : Evolves t u) : Linked u key cycleId := by
  obtain ⟨r, hr, hkey, hlink⟩ := h
  have hlinked := htu.tokens r hr
  rwa [hkey, hlink] at hlinked

theorem Requested.evolve {r : VaultRedemption} (h : Requested t r) (htu : Evolves t u) :
    Requested u r := by
  obtain ⟨stored, hstored, hsame⟩ := h
  obtain ⟨stored', hstored', hsame'⟩ := htu.redemptions r.id stored hstored
  exact ⟨stored', hstored', hsame'.1 ▸ hsame.1, hsame'.2.1 ▸ hsame.2.1, hsame'.2.2 ▸ hsame.2.2⟩

theorem Covered.evolve {batchId : JsStr} {chainId : ℕ} {cycleIds : List JsStr}
    (h : Covered t batchId chainId cycleIds) (htu : Evolves t u) :
    Covered u batchId chainId cycleIds := by
  intro r hr hbatch
  cases ht : t.redemptions.get r.id with
  | none =>
    rw [htu.added r hr ht] at hbatch
    cases hbatch
  | some r' =>
    obtain ⟨hr', hid⟩ := Table.get_eq_some.mp ht
    obtain ⟨r'', hr'', hcycle, hbatch', hchain⟩ := htu.redemptions r.id r' ht
    obtain rfl : r'' = r := Option.some.inj (hr''.symm.trans (Table.get_of_mem hr))
    obtain ⟨c, hc, hcovered⟩ := h r' hr' (hbatch'.symm.trans hbatch)
    obtain ⟨d, hd, hchain', hstays⟩ := htu.cycles _ c hc
    refine ⟨d, by rw [hcycle, hd], fun hon => ?_⟩
    rw [hchain, hchain'] at hon
    rw [hcycle]
    exact (hcovered hon).imp_left hstays

/-- The batch is covered without a cycle that is redeemed. -/
theorem Covered.redeemed {batchId cycleId : JsStr} {chainId : ℕ} {cycleIds : List JsStr}
    (h : Covered t batchId chainId (cycleId :: cycleIds)) (hcycle : CycleRedeemed t cycleId) :
    Covered t batchId chainId cycleIds := by
  intro r hr hbatch
  obtain ⟨c, hc, hcovered⟩ := h r hr hbatch
  refine ⟨c, hc, fun hon => ?_⟩
  rcases hcovered hon with hredeemed | hmem
  · exact .inl hredeemed
  · rcases List.mem_cons.mp hmem with heq | hmem
    · obtain ⟨d, hd, hredeemed⟩ := hcycle
      rw [← heq] at hd
      obtain rfl : c = d := Option.some.inj (hc.symm.trans hd)
      exact .inl hredeemed
    · exact .inr hmem

/-- The tables other than those of the cycles, the tokens and the redemptions do not matter. -/
theorem Evolves.of_eq (hcycles : u.cycles = t.cycles) (htokens : u.tokens = t.tokens)
    (hredemptions : u.redemptions = t.redemptions) : Evolves t u where
  cycles := hcycles ▸ .refl CycleStays.refl _
  tokens r hr := ⟨r, htokens ▸ hr, rfl, rfl⟩
  redemptions := hredemptions ▸ .refl SameRequest.refl _
  added := by
    rw [hredemptions]
    exact (Evolves.refl t).added

end Evolution

section Steps
variable {t u : Tables}

/-- A statement that keeps the constraints, and what receipts have learnt. -/
def Step (t u : Tables) : Prop := Inv u ∧ Evolves t u

theorem Step.of_evolves (ht : Inv t) (htu : Evolves t u) (hkeys : (u.tokens.map RwaToken.key).Nodup)
    (hredemptions : u.redemptions = t.redemptions) : Step t u := by
  refine ⟨⟨hkeys, fun r hr => ?_, fun r hr hcompleted => ?_⟩, htu⟩
  · rw [hredemptions] at hr
    exact (ht.cycles r hr).evolve htu
  · rw [hredemptions] at hr
    exact (ht.completed r hr hcompleted).evolve htu

/-- The token rows are replaced, and each card is still on its cycle. -/
theorem step_tokens (ht : Inv t) {tokens : List RwaToken} (hkeys : (tokens.map RwaToken.key).Nodup)
    (hlinks : ∀ r ∈ t.tokens, ∃ r' ∈ tokens, r'.key = r.key ∧ r'.vaultCycleId = r.vaultCycleId) :
    Step t { t with tokens := tokens } :=
  .of_evolves ht ⟨.refl CycleStays.refl _, hlinks, .refl SameRequest.refl _, (Evolves.refl t).added⟩
    hkeys
    rfl

theorem step_mapTokens (ht : Inv t) {f : RwaToken → RwaToken}
    (hf : ∀ r ∈ t.tokens, (f r).key = r.key ∧ (f r).vaultCycleId = r.vaultCycleId) :
    Step t { t with tokens := t.tokens.map f } := by
  refine step_tokens ht ?_ fun r hr => ⟨f r, List.mem_map_of_mem hr, hf r hr⟩
  have hsame : (t.tokens.map f).map RwaToken.key = t.tokens.map RwaToken.key := by
    rw [List.map_map]
    exact List.map_congr_left fun r hr => (hf r hr).1
  rw [hsame]
  exact ht.keys

theorem step_saveToken (ht : Inv t) {token : RwaToken}
    (hlinked : Linked t token.key token.vaultCycleId) : Step t (t.saveToken token) := by
  refine step_mapTokens ht fun r hr => ?_
  by_cases hkey : r.key = token.key
  · obtain ⟨r', hr', hkey', hlink⟩ := hlinked
    obtain rfl : r' = r := List.inj_on_of_nodup_map ht.keys hr' hr (hkey'.trans hkey.symm)
    rw [if_pos hkey]
    exact ⟨hkey.symm, hlink.symm⟩
  · rw [if_neg hkey]
    exact ⟨rfl, rfl⟩

theorem step_recordOwner (ht : Inv t) (contract tokenId owner : JsStr) :
    Step t (recordOwner t contract tokenId owner) := by
  unfold recordOwner
  split_ifs
  · exact ⟨ht, .refl t⟩
  · refine step_tokens ht (Table.nodup_upsertRows (fun _ hkey => hkey) ht.keys) fun r hr =>
      ⟨_, Table.mem_upsertRows_of_mem hr, ?_⟩
    split_ifs
    · exact ⟨rfl, rfl⟩
    · exact ⟨rfl, rfl⟩

theorem step_recordBurn (ht : Inv t) (contract tokenId : JsStr) (now : ℕ) :
    Step t (recordBurn t contract tokenId now) := by
  unfold recordBurn
  split_ifs
  · exact ⟨ht, .refl t⟩
  · refine step_mapTokens ht fun r _ => ?_
    unfold markBurned
    split_ifs
    · exact ⟨rfl, rfl⟩
    · exact ⟨rfl, rfl⟩

/-- The sync of a row that is there keeps its cycle. -/
theorem mem_syncTokenFromChain (x : Sources) (contract : JsStr) (tokens : TokenTable) (tokenId : ℕ)
    {r : RwaToken} (hr : r ∈ tokens.rows) :
    ∃ r' ∈ (Vault.syncTokenFromChain x contract tokens tokenId).rows,
      r'.key = r.key ∧ r'.vaultCycleId = r.vaultCycleId := by
  have hsaved : ∀ metadata tokenUri,
      ∃ r' ∈ ((upsertFromMetadata x contract tokens tokenId metadata tokenUri).getD tokens).rows,
        r'.key = r.key ∧ r'.vaultCycleId = r.vaultCycleId := by
    intro metadata tokenUri
    unfold upsertFromMetadata
    dsimp only
    split_ifs
    · rw [Option.getD_some]
      by_cases hkey : r.key = (contract, ofNat tokenId)
      · have hold : tokens.get (contract, ofNat tokenId) = some r := hkey ▸ Table.get_of_mem hr
        rw [hold]
        exact ⟨_, Table.mem_save.mpr (.inl rfl), rfl, rfl⟩
      · refine ⟨r, Table.mem_save.mpr (.inr ⟨hr, ?_⟩), rfl, rfl⟩
        cases hold : tokens.get (contract, ofNat tokenId) with
        | none => exact hkey
        | some old =>
          have hold' : old.key = (contract, ofNat tokenId) := Table.get_key hold
          exact fun hrow => hkey (hrow.trans hold')
    · exact ⟨r, hr, rfl, rfl⟩
  unfold Vault.syncTokenFromChain
  split
  · exact ⟨r, hr, rfl, rfl⟩
  · split
    · exact ⟨r, hr, rfl, rfl⟩
    · exact hsaved _ _

theorem step_syncTokens (ht : Inv t) (x : Sources) (contract : JsStr) (tokenId : ℕ) :
    Step t { t with tokens := syncTokens x contract t.tokens tokenId } := by
  unfold syncTokens
  rw [dif_pos ht.keys]
  exact step_tokens ht (Vault.syncTokenFromChain x contract ⟨t.tokens, ht.keys⟩ tokenId).nodup
    fun r hr => mem_syncTokenFromChain x contract _ tokenId hr

theorem step_saveCycle (ht : Inv t) {c d : VaultCycle} (hd : t.cycles.get c.id = some d)
    (hchain : c.chainId = d.chainId) (hredeemed : c.status = .redeemed) :
    Step t { t with cycles := t.cycles.save c } := by
  refine .of_evolves ht ⟨?_, fun r hr => ⟨r, hr, rfl, rfl⟩, .refl SameRequest.refl _,
    (Evolves.refl t).added⟩ ht.keys rfl
  refine Table.keeps_save CycleStays.refl fun d' hd' => ?_
  obtain rfl := Option.some.inj (hd.symm.trans hd')
  exact ⟨hchain, fun _ => hredeemed⟩

/-- The row is stored already, and completed only when its cycle is redeemed. -/
def MayStore (t : Tables) (r : VaultRedemption) : Prop :=
  Requested t r ∧ (r.status = .completed → CycleRedeemed t r.vaultCycleId)

theorem MayStore.evolve {r : VaultRedemption} (h : MayStore t r) (htu : Evolves t u) :
    MayStore u r :=
  ⟨h.1.evolve htu, fun hcompleted => (h.2 hcompleted).evolve htu⟩

theorem step_saveRedemption (ht : Inv t) {r : VaultRedemption} (hr : MayStore t r) :
    Step t { t with redemptions := t.redemptions.save r } := by
  obtain ⟨⟨stored, hstored, hsame⟩, hcompleted⟩ := hr
  refine ⟨⟨ht.keys, fun r' hr' => ?_, fun r' hr' hcompleted' => ?_⟩,
    ⟨.refl CycleStays.refl _, fun r hr => ⟨r, hr, rfl, rfl⟩, ?_, fun r' hr' hnone => ?_⟩⟩
  · rcases Table.mem_save.mp hr' with rfl | ⟨hold, -⟩
    · rw [hsame.1]
      exact ht.cycles stored (Table.mem_of_get hstored)
    · exact ht.cycles r' hold
  · rcases Table.mem_save.mp hr' with rfl | ⟨hold, -⟩
    · exact hcompleted hcompleted'
    · exact ht.completed r' hold hcompleted'
  · refine Table.keeps_save SameRequest.refl fun stored' hstored' => ?_
    obtain rfl := Option.some.inj (hstored.symm.trans hstored')
    exact hsame
  · rcases Table.mem_save.mp hr' with rfl | ⟨hold, -⟩
    · cases hstored.symm.trans hnone
    · cases (Table.get_of_mem hold).symm.trans hnone

theorem step_saveRedemptions (ht : Inv t) {rows : List VaultRedemption}
    (hrows : ∀ r ∈ rows, MayStore t r) :
    Step t { t with redemptions := t.redemptions.saveAll rows } := by
  induction rows generalizing t with
  | nil => exact ⟨ht, .refl t⟩
  | cons r rows ih =>
    obtain ⟨hinv, hevolves⟩ := step_saveRedemption ht (hrows r List.mem_cons_self)
    obtain ⟨hinv', hevolves'⟩ := ih hinv fun r' hr' =>
      (hrows r' (List.mem_cons_of_mem r hr')).evolve hevolves
    exact ⟨hinv', hevolves.trans hevolves'⟩

/-- A new row is in no batch. -/
theorem step_insertRedemption (ht : Inv t) {r : VaultRedemption}
    (hfree : t.redemptions.get r.id = none) (hcycle : HasCycle t r.vaultCycleId)
    (hbatch : r.paymentBatchId = none) (hstatus : r.status ≠ .completed) :
    Step t { t with redemptions := t.redemptions.save r } := by
  refine ⟨⟨ht.keys, fun r' hr' => ?_, fun r' hr' hcompleted => ?_⟩,
    ⟨.refl CycleStays.refl _, fun r hr => ⟨r, hr, rfl, rfl⟩, ?_, fun r' hr' hnone => ?_⟩⟩
  · rcases Table.mem_save.mp hr' with rfl | ⟨hold, -⟩
    · exact hcycle
    · exact ht.cycles r' hold
  · rcases Table.mem_save.mp hr' with rfl | ⟨hold, -⟩
    · exact absurd hcompleted hstatus
    · exact ht.completed r' hold hcompleted
  · refine Table.keeps_save SameRequest.refl fun stored hstored => ?_
    cases hfree.symm.trans hstored
  · rcases Table.mem_save.mp hr' with rfl | ⟨hold, -⟩
    · exact hbatch
    · cases (Table.get_of_mem hold).symm.trans hnone

end Steps

section Commands
variable {cfg : Config} {s u : Store} {c : Cmd}

/-- What a task has to know of the tables when it issues the command. -/
def Fine (t : Tables) : Cmd → Prop
  | .table (.saveToken token) => Linked t token.key token.vaultCycleId
  | .table (.saveCycle _ c) =>
    c.status = .redeemed ∧ ∃ d, t.cycles.get c.id = some d ∧ c.chainId = d.chainId
  | .table (.saveRedemption r) => MayStore t r
  | .table (.insertRedemption r) =>
    r.paymentBatchId = none ∧ r.status ≠ .completed ∧ HasCycle t r.vaultCycleId
  | .table (.findToken ..) | .table (.findCycle _) | .table (.findLatestRedemption ..)
  | .table .now => True
  | .table _ => False
  | .saveRedemptions rows => ∀ e ∈ rows, MayStore t e.row
  | _ => True

theorem step_run (x : Answer) (hs : Inv s.db) (hc : Fine s.db c) :
    Step s.db (run cfg s x c).2.db := by
  cases c with
  | table c =>
    cases c with
    | saveToken token => exact step_saveToken hs hc
    | saveCycle loaded cycle =>
      obtain ⟨hredeemed, d, hd, hchain⟩ := hc
      unfold run Cycles.exec
      dsimp only
      split_ifs
      · exact ⟨hs, .refl _⟩
      · exact step_saveCycle hs hd hchain hredeemed
    | saveRedemption r => exact step_saveRedemption hs hc
    | insertRedemption r =>
      obtain ⟨hbatch, hstatus, hcycle⟩ := hc
      unfold run Cycles.exec
      dsimp only
      split_ifs with hfree
      · exact step_insertRedemption hs (Option.isNone_iff_eq_none.mp hfree) hcycle hbatch hstatus
      · exact ⟨hs, .refl _⟩
    | findToken => exact ⟨hs, .refl _⟩
    | findCycle => exact ⟨hs, .refl _⟩
    | findLatestRedemption => exact ⟨hs, .refl _⟩
    | now => exact ⟨hs, .refl _⟩
    | _ => exact absurd hc id
  | saveRedemptions rows =>
    refine step_saveRedemptions hs fun r hr => ?_
    obtain ⟨e, he, rfl⟩ := List.mem_map.mp hr
    exact hc e he
  | saveOrder order => exact .of_evolves hs (.of_eq rfl rfl rfl) hs.keys rfl
  | syncTokenFromChain contract tokenId => exact step_syncTokens hs x.sources contract tokenId
  | recordOwner contract tokenId owner => exact step_recordOwner hs contract tokenId owner
  | recordBurn contract tokenId => exact step_recordBurn hs contract tokenId _
  | burn chainId tokenId signer =>
    have hdb : (burnNft s x (chainId, tokenId) signer).2.db = s.db := by
      unfold burnNft
      split
      · rfl
      · split_ifs
        · rfl
        · rfl
    change Step s.db (burnNft s x (chainId, tokenId) signer).2.db
    rw [hdb]
    exact ⟨hs, .refl _⟩
  | _ => exact ⟨hs, .refl _⟩

/-- A step has no effect, or the one that it has without a failure. -/
theorem exec_cases {x : Answer} {r : Res c} (h : exec cfg s x c = (r, u)) :
    (u = s ∨ u = (run cfg s x c).2) ∧ ∀ v, r = .ok v → run cfg s x c = (.ok v, u) := by
  unfold exec at h
  cases hfate : x.fate with
  | done =>
    rw [hfate] at h
    exact ⟨.inr (congrArg Prod.snd h).symm, fun v hv => h.trans (by rw [hv])⟩
  | failed e =>
    rw [hfate] at h
    obtain ⟨rfl, rfl⟩ := Prod.mk.inj h
    exact ⟨.inl rfl, fun v hv => by cases hv⟩
  | unseen e =>
    rw [hfate] at h
    obtain ⟨rfl, rfl⟩ := Prod.mk.inj h
    exact ⟨.inr rfl, fun v hv => by cases hv⟩

theorem step_exec {x : Answer} {r : Res c} (hs : Inv s.db) (hc : Fine s.db c)
    (h : exec cfg s x c = (r, u)) : Step s.db u.db := by
  rcases (exec_cases h).1 with rfl | rfl
  · exact ⟨hs, .refl _⟩
  · exact step_run x hs hc

end Commands

def receiptContract : Contract Store :=
  .ofPreorder (fun s => Inv s.db) (fun s t => Evolves s.db t.db) (fun s => .refl s.db)
    fun _ _ _ => Evolves.trans

abbrev ReceiptTriple {α : Type} (cfg : Config) (K : Tables → Prop) (p : M α)
    (F : α → Tables → Prop) : Prop :=
  Triple (handler cfg) UnburnedLookup receiptContract (fun s => K s.db) p fun a s => F a s.db

def Lasts (K : Tables → Prop) : Prop := ∀ t u, Evolves t u → K t → K u

section Triples
variable {cfg : Config} {K G : Tables → Prop} {α β : Type}

theorem Lasts.persistent (hK : Lasts K) : receiptContract.Persistent fun s => K s.db :=
  fun _ s t hst h => hK s.db t.db (hst.elim id id) h

theorem Lasts.and (hK : Lasts K) (hG : Lasts G) : Lasts fun t => K t ∧ G t :=
  fun t u htu h => ⟨hK t u htu h.1, hG t u htu h.2⟩

theorem lasts_true : Lasts fun _ => True := fun _ _ _ _ => trivial

/-- One statement or call, with what its answer shows. -/
theorem triple_perform {c : Cmd} {F : Value c → Tables → Prop} (hK : Lasts K)
    (hfine : ∀ i s, Inv s.db → K s.db → UnburnedLookup i s c → Fine s.db c)
    (hF : ∀ i s x v u, Inv s.db → K s.db → UnburnedLookup i s c → Inv u.db →
      run cfg s x c = (.ok v, u) → F v u.db) : ReceiptTriple cfg K (perform c) F := by
  refine triple_call hK.persistent fun i s hs hKs hok x r u hu => ?_
  have hstep := step_exec hs (hfine i s hs hKs hok) (Option.some.inj hu)
  refine ⟨hstep.1, hstep.2, fun v hv => ?_⟩
  exact hF i s x v u hs hKs hok hstep.1 ((exec_cases (Option.some.inj hu)).2 v hv)

/-- The commands that need to know nothing. -/
def Quiet : Cmd → Prop
  | .table (.findToken ..) | .table (.findCycle _) | .table (.findLatestRedemption ..)
  | .table .now => True
  | .table _ => False
  | .saveRedemptions _ => False
  | _ => True

theorem Quiet.fine {c : Cmd} (h : Quiet c) (t : Tables) : Fine t c := by
  cases c with
  | table c => cases c <;> trivial
  | saveRedemptions => exact absurd h id
  | _ => trivial

theorem triple_quiet {p : M α} (hK : Lasts K) (hp : p.Issues Quiet) :
    ReceiptTriple cfg K p fun _ => K :=
  triple_of_issues hK.persistent
    (fun _ hc _ t _ _ _ ht _ hu => step_exec ht (hc.fine t.db) (Option.some.inj hu)) hp

theorem lasts_linked (key : JsStr × JsStr) (cycleId : Option JsStr) :
    Lasts fun t => Linked t key cycleId := fun _ _ htu h => h.evolve htu

theorem lasts_hasCycle (cycleId : JsStr) : Lasts fun t => HasCycle t cycleId :=
  fun _ _ htu h => h.evolve htu

theorem lasts_redeemed (cycleId : JsStr) : Lasts fun t => CycleRedeemed t cycleId :=
  fun _ _ htu h => h.evolve htu

theorem lasts_requested (r : VaultRedemption) : Lasts fun t => Requested t r :=
  fun _ _ htu h => h.evolve htu

theorem lasts_mayStore (r : VaultRedemption) : Lasts fun t => MayStore t r :=
  fun _ _ htu h => h.evolve htu

theorem lasts_covered (batchId : JsStr) (chainId : ℕ) (cycleIds : List JsStr) :
    Lasts fun t => Covered t batchId chainId cycleIds := fun _ _ htu h => h.evolve htu

theorem lasts_forall {ι : Type} {K : ι → Tables → Prop} (hK : ∀ a, Lasts (K a)) :
    Lasts fun t => ∀ a, K a t := fun t u htu h a => hK a t u htu (h a)

theorem lasts_imp {P : Prop} (hK : P → Lasts K) : Lasts fun t => P → K t :=
  fun t u htu h hp => hK hp t u htu (h hp)

end Triples

section Completion
variable {cfg : Config} {t : Tables} {α : Type}

theorem tables_perform_bind (c : Cycles.Cmd) (f : Cycles.Res c → Cycles.M α) :
    tables (Cycles.perform c >>= f) = perform (.table c) >>= fun a => tables (f a) := rfl

theorem tables_perform (c : Cycles.Cmd) : tables (Cycles.perform c) = perform (.table c) := by
  have hret : ∀ r : Res (.table c), (Prog.onOk (fun a => .ret (.ok a)) r : M (Cycles.Res c)) =
      .ret r := by
    intro r
    cases r <;> rfl
  exact congrArg (Prog.call (Cmd.table c)) (funext hret)

theorem mayStore_of_mem (ht : Inv t) {r : VaultRedemption} (hr : r ∈ t.redemptions.rows) :
    MayStore t r :=
  ⟨⟨r, Table.get_of_mem hr, .refl r⟩, ht.completed r hr⟩

theorem mayStore_burned (ht : Inv t) {r : VaultRedemption} (hr : r ∈ t.redemptions.rows) :
    MayStore t (Cycles.burned r) := by
  unfold Cycles.burned
  split_ifs with hstatus
  · exact ⟨⟨r, Table.get_of_mem hr, .refl r⟩, fun hcompleted => by cases hcompleted⟩
  · exact mayStore_of_mem ht hr

theorem mem_latestRedemption {cycleId : JsStr} {except : List RedemptionStatus}
    {r : VaultRedemption}
    (h : Cycles.latestRedemption t cycleId except = some r) : r ∈ t.redemptions.rows := by
  have hmem := List.mem_of_mem_head? h
  rw [(List.perm_insertionSort _ _).mem_iff] at hmem
  exact (Table.mem_find.mp hmem).1

theorem findLatestRedemption_triple {K : Tables → Prop} (hK : Lasts K) (cycleId : JsStr)
    (except : List RedemptionStatus) :
    ReceiptTriple cfg K (perform (.table (.findLatestRedemption cycleId except)))
      fun found t => (∀ r ∈ found, MayStore t (Cycles.burned r)) ∧ K t := by
  refine triple_perform hK (fun _ _ _ _ _ => trivial) fun i s x found u hs hKs _ _ hrun => ?_
  obtain ⟨hfound, rfl⟩ := Prod.mk.inj hrun
  obtain rfl := Except.ok.inj hfound
  exact ⟨fun r hr => mayStore_burned hs (mem_latestRedemption hr), hKs⟩

/-- One statement that only has to be allowed. -/
theorem triple_statement {K : Tables → Prop} {c : Cmd} (hK : Lasts K)
    (hfine : ∀ t, K t → Fine t c) : ReceiptTriple cfg K (perform c) fun _ => K := by
  refine triple_conseq (triple_frame hK.persistent (triple_perform (F := fun _ _ => True) hK
    (fun _ s _ hKs _ => hfine s.db hKs) fun _ _ _ _ _ _ _ _ _ _ => trivial)) (fun s hs => ⟨hs, hs⟩)
    fun _ _ h => h.2

theorem recordRedemptionBurn_triple (p : Cycles.BurnRecord) (cycleId : JsStr) :
    ReceiptTriple cfg (fun t => CycleRedeemed t cycleId)
      (tables (Cycles.recordRedemptionBurn p cycleId))
      fun _ t => CycleRedeemed t cycleId := by
  have hlasts := lasts_redeemed cycleId
  have hsave : ∀ r : VaultRedemption, ReceiptTriple cfg
      (fun t => MayStore t (Cycles.burned r) ∧ CycleRedeemed t cycleId)
      (tables (Cycles.perform (.saveRedemption (Cycles.burned r)))) fun _ t =>
        CycleRedeemed t cycleId := by
    intro r
    rw [tables_perform]
    exact triple_conseq (triple_statement ((lasts_mayStore _).and hlasts) fun t ht => ht.1)
      (fun _ hs => hs) fun _ _ hs => hs.2
  rw [Cycles.recordRedemptionBurn, tables_perform_bind]
  refine triple_bind (findLatestRedemption_triple hlasts _ _) fun open_ => ?_
  cases open_ with
  | some r => exact triple_conseq (hsave r) (fun s hs => ⟨hs.1 r rfl, hs.2⟩) fun _ _ hs => hs
  | none =>
    dsimp only
    rw [tables_perform_bind]
    refine triple_bind (triple_conseq (findLatestRedemption_triple hlasts _ _) (fun s hs => hs.2)
      fun _ _ hs => hs) fun completed => ?_
    cases completed with
    | some r => exact triple_conseq (hsave r) (fun s hs => ⟨hs.1 r rfl, hs.2⟩) fun _ _ hs => hs
    | none =>
      dsimp only
      rw [tables_perform_bind]
      refine triple_bind (triple_conseq (triple_statement hlasts fun t ht => ?_) (fun s hs => hs.2)
        fun _ _ hs => hs) fun inserted => triple_ret fun _ _ _ hs => hs
      obtain ⟨c, hc, -⟩ := ht
      refine ⟨rfl, fun hstatus => ?_, Option.isSome_iff_exists.mpr ⟨c, hc⟩⟩
      cases hstatus

theorem saveCycle_triple (loaded c : VaultCycle) (hredeemed : c.status = .redeemed) :
    ReceiptTriple cfg (fun t => ∃ d, t.cycles.get c.id = some d ∧ c.chainId = d.chainId)
      (tables (Cycles.saveCycle loaded c)) fun _ t => CycleRedeemed t c.id := by
  have hlasts : Lasts fun t => ∃ d, t.cycles.get c.id = some d ∧ c.chainId = d.chainId := by
    intro t u htu ⟨d, hd, hchain⟩
    obtain ⟨d', hd', hstays⟩ := htu.cycles c.id d hd
    exact ⟨d', hd', hchain.trans hstays.1.symm⟩
  rw [Cycles.saveCycle, tables_perform_bind]
  have hsaved : ReceiptTriple cfg (fun t => ∃ d, t.cycles.get c.id = some d ∧ c.chainId = d.chainId)
      (perform (.table (.saveCycle loaded c)))
      fun saved t => saved = .ok () → CycleRedeemed t c.id := by
    refine triple_perform hlasts (fun i s _ hs _ => And.intro hredeemed hs)
      fun i s x saved u _ _ _ _ hrun => ?_
    obtain ⟨hanswer, rfl⟩ := Prod.mk.inj hrun
    obtain rfl := Except.ok.inj hanswer
    change (Cycles.exec cfg.env cfg.keccak s.db x.draws (.saveCycle loaded c)).1 = .ok () →
      CycleRedeemed (Cycles.exec cfg.env cfg.keccak s.db x.draws (.saveCycle loaded c)).2 c.id
    unfold Cycles.exec
    dsimp only
    split_ifs
    · exact fun h => by cases h
    · exact fun _ => ⟨c, Table.get_save_self _ _, hredeemed⟩
  exact triple_bind hsaved fun saved => triple_ret fun a ha s hs => hs ha

/-- `P` is what the task knows to tell that there is a cycle. -/
theorem recordCycleBurn_triple (P : Prop) (p : Cycles.BurnRecord) (cycleId : JsStr) (at_ : ℕ) :
    ReceiptTriple cfg (fun t => P → HasCycle t cycleId)
      (tables (Cycles.recordCycleBurn p cycleId at_))
      fun _ t => P → CycleRedeemed t cycleId := by
  have hlasts : Lasts fun t => P → HasCycle t cycleId := lasts_imp fun _ => lasts_hasCycle cycleId
  have hfind : ReceiptTriple cfg (fun t => P → HasCycle t cycleId)
      (perform (.table (.findCycle cycleId))) fun found t =>
        t.cycles.get cycleId = found ∧ (P → HasCycle t cycleId) := by
    refine triple_perform hlasts (fun _ _ _ _ _ => trivial) fun i s x found u _ hs _ _ hrun => ?_
    obtain ⟨hfound, rfl⟩ := Prod.mk.inj hrun
    exact ⟨Except.ok.inj hfound, hs⟩
  rw [Cycles.recordCycleBurn, tables_perform_bind]
  refine triple_bind hfind fun found => ?_
  cases found with
  | none =>
    refine triple_ok fun s hs hp => ?_
    have hcycle := hs.2 hp
    rw [HasCycle, hs.1] at hcycle
    cases hcycle
  | some cycle =>
    dsimp only
    rw [tables, Prog.expand_bind]
    have hid : ∀ s : Store, s.db.cycles.get cycleId = some cycle → cycle.id = cycleId :=
      fun s hs => Table.get_key hs
    refine triple_bind (F := fun _ s => CycleRedeemed s.db cycle.id ∧ cycle.id = cycleId) ?_
      fun _ => ?_
    · have hsave : ReceiptTriple cfg _ _ _ := saveCycle_triple cycle
        { cycle with status := .redeemed, redeemedAt := some at_ } rfl
      refine triple_conseq (triple_frame (persistent_const (cycle.id = cycleId)) hsave)
        (fun s hs => ⟨⟨cycle, ?_, rfl⟩, hid s hs.1⟩) fun _ _ hs => hs
      rw [hid s hs.1]
      exact hs.1
    · refine triple_conseq (triple_frame (persistent_const (cycle.id = cycleId))
        (recordRedemptionBurn_triple p cycle.id)) (fun s hs => hs) fun _ s hs _ => ?_
      rw [← hs.2]
      exact hs.1

theorem findToken_spec {contract tokenId : JsStr} {r : RwaToken}
    (h : findToken t.tokens contract tokenId = some r) :
    r ∈ t.tokens ∧ r.key = (contract, tokenId) := by
  have hkey := List.find?_some h
  rw [Bool.and_eq_true, decide_eq_true_eq, decide_eq_true_eq] at hkey
  exact ⟨List.mem_of_find?_eq_some h, Prod.ext hkey.1 hkey.2⟩

/-- The key is unique, so a lookup finds the row that is linked. -/
theorem findToken_of_linked (ht : Inv t) {contract tokenId : JsStr} {cycleId : Option JsStr}
    (h : Linked t (contract, tokenId) cycleId) :
    ∃ r, findToken t.tokens contract tokenId = some r ∧ r.vaultCycleId = cycleId := by
  obtain ⟨r, hr, hkey, hlink⟩ := h
  obtain ⟨hcontract, htokenId⟩ := Prod.mk.inj hkey
  have hsome : (findToken t.tokens contract tokenId).isSome := by
    rw [findToken, List.find?_isSome]
    exact ⟨r, hr, by simp [hcontract, htokenId]⟩
  obtain ⟨r', hr'⟩ := Option.isSome_iff_exists.mp hsome
  obtain ⟨hmem, hkey'⟩ := findToken_spec hr'
  have hsame : r' = r := List.inj_on_of_nodup_map ht.keys hmem hr (hkey'.trans hkey.symm)
  exact ⟨r', hr', by rw [hsame, hlink]⟩

/-- The card is on the cycle of a redemption, which the database has. -/
def OnCycle (t : Tables) (key : JsStr × JsStr) (cycleId : JsStr) : Prop :=
  Linked t key (some cycleId) ∧ HasCycle t cycleId

theorem lasts_onCycle (key : JsStr × JsStr) (cycleId : JsStr) :
    Lasts fun t => OnCycle t key cycleId :=
  (lasts_linked key (some cycleId)).and (lasts_hasCycle cycleId)

/-- Recording the burn of a card that is on a cycle redeems the cycle. -/
theorem completeRedemptionBurn_triple (P : Prop) (p : Cycles.BurnRecord) (cycleId : JsStr) :
    ReceiptTriple cfg (fun t => P → OnCycle t (p.tokenContract, p.tokenId) cycleId)
      (tables (Cycles.completeRedemptionBurn p)) fun _ t => P → CycleRedeemed t cycleId := by
  have hlasts : Lasts fun t => P → OnCycle t (p.tokenContract, p.tokenId) cycleId :=
    lasts_imp fun _ => lasts_onCycle _ _
  have hfind : ReceiptTriple cfg (fun t => P → OnCycle t (p.tokenContract, p.tokenId) cycleId)
      (perform (.table (.findToken p.tokenContract p.tokenId))) fun found t =>
        (∀ token ∈ found, Linked t token.key token.vaultCycleId) ∧
          (P → found.bind RwaToken.vaultCycleId = some cycleId ∧ HasCycle t cycleId) := by
    refine triple_perform hlasts (fun _ _ _ _ _ => trivial) fun i s x found u hinv hs _ _ hrun => ?_
    obtain ⟨hfound, rfl⟩ := Prod.mk.inj hrun
    obtain rfl := Except.ok.inj hfound
    refine ⟨fun token htoken => ⟨token, (findToken_spec htoken).1, rfl, rfl⟩, fun hp => ?_⟩
    obtain ⟨hlinked, hcycle⟩ := hs hp
    obtain ⟨r, hr, hlink⟩ := findToken_of_linked hinv hlinked
    exact ⟨(congrArg (Option.bind · RwaToken.vaultCycleId) hr).trans hlink, hcycle⟩
  rw [Cycles.completeRedemptionBurn, tables_perform_bind]
  refine triple_bind hfind fun found => ?_
  cases found with
  | none => exact triple_ok fun s hs hp => by cases (hs.2 hp).1
  | some token =>
    dsimp only
    rw [tables_perform_bind]
    have hlasts' : Lasts fun t => Linked t token.key token.vaultCycleId ∧
        (P → token.vaultCycleId = some cycleId ∧ HasCycle t cycleId) :=
      (lasts_linked _ _).and
        (lasts_imp fun _ t u htu h => ⟨h.1, lasts_hasCycle cycleId t u htu h.2⟩)
    refine triple_bind (triple_conseq (triple_statement hlasts' fun _ _ => trivial)
      (fun s hs => ⟨hs.1 token rfl, hs.2⟩) fun _ _ hs => hs) fun at_ => ?_
    rw [tables_perform_bind]
    refine triple_bind (triple_conseq (triple_statement hlasts' fun _ ht => ht.1) (fun s hs => hs)
      fun _ _ hs => hs) fun _ => ?_
    cases token.vaultCycleId with
    | none => exact triple_ok fun s hs hp => by cases (hs.2 hp).1
    | some linkedId =>
      refine triple_conseq (triple_frame (persistent_const (P → linkedId = cycleId))
        (recordCycleBurn_triple P p linkedId at_)) (fun s hs => ?_) fun _ s hs hp =>
          hs.2 hp ▸ hs.1 hp
      have hsame : P → linkedId = cycleId := fun hp => Option.some.inj (hs.2 hp).1
      exact ⟨fun hp => (hsame hp).symm ▸ (hs.2 hp).2, hsame⟩

end Completion

section Burn
variable {cfg : Config} {chainId : ℕ} {α : Type}

theorem quiet_cancelActiveOrdersForToken (contract : JsStr) (tokenId : ℕ) :
    (cancelActiveOrdersForToken contract tokenId).Issues Quiet := by
  refine Prog.issues_bind (Prog.issues_call trivial) fun orders => ?_
  induction orders with
  | nil => exact Prog.issues_ret _
  | cons order orders ih =>
    exact Prog.issues_bind (Prog.issues_call trivial) fun _ =>
      Prog.issues_bind ih fun _ => Prog.issues_ret _

theorem quiet_getRwaTokenOwner (tokenId chainId : ℕ) :
    (getRwaTokenOwner tokenId chainId).Issues Quiet :=
  Prog.issues_bind (Prog.issues_call trivial) fun _ =>
    Prog.issues_bind (Prog.issues_orThrow _ _) fun _ => Prog.issues_ret _

theorem quiet_syncTokenFromChain (tokenId chainId : ℕ) :
    (syncTokenFromChain cfg tokenId chainId).Issues Quiet :=
  Prog.issues_bind (Prog.issues_ret _) fun _ =>
    Prog.issues_settle (Prog.issues_call trivial) fun _ => Prog.issues_ret _

theorem quiet_inBurn (tid : ℕ) {p : M α} (hp : p.Issues Quiet) : (inBurn tid p).Issues Quiet :=
  Prog.issues_settle hp fun r => by cases r <;> exact Prog.issues_ret _

theorem quiet_adminBurn (tid chainId : ℕ) (expectedOwner : JsStr) :
    (adminBurn cfg tid chainId expectedOwner).Issues Quiet := by
  refine Prog.issues_bind ?_ fun owner => ?_
  · refine Prog.issues_settle (Prog.issues_call trivial) fun r => ?_
    rcases r with e | owner
    · exact Prog.issues_ret _
    · cases owner <;> exact Prog.issues_ret _
  · refine Prog.issues_bind (Prog.issues_throwIf _ _) fun _ => ?_
    refine Prog.issues_bind (Prog.issues_ret _) fun signer => ?_
    refine Prog.issues_bind (quiet_inBurn tid (Prog.issues_call trivial)) fun txHash => ?_
    refine Prog.issues_bind (Prog.issues_throwIf _ _) fun _ => ?_
    refine Prog.issues_bind (Prog.issues_ret _) fun contract => ?_
    exact Prog.issues_bind (quiet_inBurn tid (Prog.issues_call trivial)) fun _ =>
      Prog.issues_ret _

/-- The calls of a burn other than the record of it. -/
def Unrecorded : TokenSpelling.Cmd → Prop
  | .completeRedemptionBurn _ => False
  | _ => True

theorem quiet_onChain {c : TokenSpelling.Cmd} (hc : Unrecorded c) :
    (onChain cfg chainId c).Issues Quiet := by
  cases c with
  | findToken contract tokenId => exact Prog.issues_outcome (Prog.issues_call trivial)
  | findOpenRedemptionForCycle cycleId => exact Prog.issues_outcome (Prog.issues_call trivial)
  | cancelActiveOrdersForToken contract tokenId =>
    exact Prog.issues_outcome (quiet_cancelActiveOrdersForToken contract tokenId)
  | getRwaTokenOwner tokenId => exact Prog.issues_outcome (quiet_getRwaTokenOwner tokenId chainId)
  | syncTokenFromChain tokenId =>
    exact Prog.issues_outcome (quiet_syncTokenFromChain tokenId chainId)
  | adminBurn tokenId expectedOwner =>
    exact Prog.issues_outcome (quiet_adminBurn tokenId chainId expectedOwner)
  | completeRedemptionBurn p => exact absurd hc id
  | refreshCurrentSlotSnapshot owner =>
    exact Prog.issues_outcome (Prog.issues_settle (Prog.issues_call trivial) fun _ =>
      Prog.issues_ret _)

theorem unrecorded_ask {p : TokenSpelling.M (Except HttpError α)}
    (hp : p.Issues Unrecorded) : (TokenSpelling.orThrowAnswer p).Issues Unrecorded :=
  Prog.issues_bind hp fun _ => Prog.issues_ret _

theorem unrecorded_assertBurnable (tid : ℕ) (existing : Option RwaToken) :
    (TokenSpelling.assertBurnable tid existing).Issues Unrecorded := by
  cases existing with
  | none => exact Prog.issues_ret _
  | some existing =>
    refine Prog.issues_bind (Prog.issues_throwIf _ _) fun _ => ?_
    split_ifs
    · refine Prog.issues_bind (unrecorded_ask (Prog.issues_call trivial)) fun found => ?_
      cases found with
      | none => exact Prog.issues_ret _
      | some openRedeem =>
        exact Prog.issues_bind (Prog.issues_throwIf _ _) fun _ => Prog.issues_throwIf _ _
    · exact Prog.issues_ret _

theorem unrecorded_expectedOwner (tid : ℕ) :
    (TokenSpelling.expectedOwner tid).Issues Unrecorded := by
  refine Prog.issues_bind (Prog.issues_call trivial) fun owner => ?_
  cases owner <;> exact Prog.issues_ret _

theorem unrecorded_triple {K : Tables → Prop} (hK : Lasts K) {p : TokenSpelling.M α}
    (hp : p.Issues Unrecorded) : ReceiptTriple cfg K (p.expand (onChain cfg chainId)) fun _ => K :=
  triple_quiet hK (Prog.issues_expand (fun _ hc => quiet_onChain hc) hp)

theorem expand_completeRedemptionBurn (p : Cycles.BurnRecord) :
    (TokenSpelling.orThrowAnswer (TokenSpelling.perform (.completeRedemptionBurn p))).expand
      (onChain cfg chainId) = tables (Cycles.completeRedemptionBurn p) :=
  Prog.outcome_bind_ret _

/-- A burn that succeeds has redeemed the cycle of its card. -/
theorem burnTokenOnChain_triple (P : Prop) (contract : JsStr) (tid : ℕ) (cycleId : JsStr) :
    ReceiptTriple cfg (fun t => P → OnCycle t (contract, numberText tid) cycleId)
      ((TokenSpelling.burnTokenOnChain contract (some tid)).expand (onChain cfg chainId))
      fun _ t => P → CycleRedeemed t cycleId := by
  have hlasts : Lasts fun t => P → OnCycle t (contract, numberText tid) cycleId :=
    lasts_imp fun _ => lasts_onCycle _ _
  have hredeemed : Lasts fun t => P → CycleRedeemed t cycleId :=
    lasts_imp fun _ => lasts_redeemed cycleId
  rw [TokenSpelling.burnTokenOnChain, Prog.expand_bind, Prog.expand_throwIf]
  refine triple_bind (triple_throwIf fun _ s hs => hs) fun _ => ?_
  rw [TokenSpelling.validTokenId_some, Prog.pure_bind_eq, Prog.expand_bind]
  refine triple_bind (unrecorded_triple hlasts (unrecorded_ask (Prog.issues_call trivial)))
    fun existing => ?_
  rw [Prog.expand_bind]
  refine triple_bind (unrecorded_triple hlasts (unrecorded_assertBurnable tid existing)) fun _ => ?_
  rw [Prog.expand_bind]
  refine triple_bind (unrecorded_triple hlasts (unrecorded_ask (Prog.issues_call trivial)))
    fun cancelled => ?_
  rw [Prog.expand_bind]
  refine triple_bind (unrecorded_triple hlasts (unrecorded_expectedOwner tid)) fun owner => ?_
  rw [Prog.expand_bind]
  refine triple_bind (unrecorded_triple hlasts (unrecorded_ask (Prog.issues_call trivial)))
    fun _ => ?_
  rw [Prog.expand_bind]
  refine triple_bind (unrecorded_triple hlasts (unrecorded_ask (Prog.issues_call trivial)))
    fun txHash => ?_
  rw [Prog.expand_bind]
  refine triple_bind (F := fun _ s => P → CycleRedeemed s.db cycleId) ?_ fun _ => ?_
  · rw [expand_completeRedemptionBurn]
    exact completeRedemptionBurn_triple P ⟨contract, numberText tid, txHash, some owner⟩ cycleId
  · refine unrecorded_triple hredeemed ?_
    dsimp only
    split_ifs
    · exact Prog.issues_ret _
    · exact Prog.issues_bind (unrecorded_ask (Prog.issues_call trivial)) fun _ =>
        Prog.issues_ret _

theorem receiptLookup_bind {contract tokenId redemptionId : JsStr}
    (f : Option RwaToken → TokenSpelling.M α) :
    (TokenSpelling.orThrowAnswer (TokenSpelling.perform (.findToken contract tokenId)) >>=
      f).expandFirst
        (receiptLookup cfg redemptionId chainId) (onChain cfg chainId) =
      perform (.findTokenForReceipt redemptionId contract tokenId) >>= fun found =>
        (f found).expand (onChain cfg chainId) := by
  change ((perform (.findTokenForReceipt redemptionId contract tokenId)).outcome >>= fun r =>
    ((Prog.ret r : TokenSpelling.M (Option RwaToken)) >>= f).expand (onChain cfg chainId)) = _
  rw [Prog.outcome_bind, Prog.bind_eq_settle]
  congr 1
  funext r
  cases r <;> rfl

def RequestOn (t : Tables) (redemptionId cycleId : JsStr) : Prop :=
  ∃ r, t.redemptions.get redemptionId = some r ∧ r.vaultCycleId = cycleId

theorem lasts_requestOn (redemptionId cycleId : JsStr) :
    Lasts fun t => RequestOn t redemptionId cycleId := by
  intro t u htu ⟨r, hr, hcycle⟩
  obtain ⟨r', hr', hsame⟩ := htu.redemptions redemptionId r hr
  exact ⟨r', hr', hsame.1.trans hcycle⟩

/-- What the lookup of a receipt shows of the card. -/
theorem findTokenForReceipt_triple (redemptionId contract tokenId cycleId : JsStr) :
    ReceiptTriple cfg (fun t => RequestOn t redemptionId cycleId)
      (perform (.findTokenForReceipt redemptionId contract tokenId)) fun found t =>
        CycleRedeemed t cycleId ∨ (found.filter fun t => t.burnedAt.isSome) = none ∧
          OnCycle t (contract, tokenId) cycleId := by
  refine triple_perform (lasts_requestOn redemptionId cycleId) (fun _ _ _ _ _ => trivial)
    fun i s x found u hinv hs hlookup _ hrun => ?_
  obtain ⟨hfound, rfl⟩ := Prod.mk.inj hrun
  obtain rfl := Except.ok.inj hfound
  obtain ⟨r, hr, rfl⟩ := hs
  refine (hlookup r hr).imp_right fun ⟨token, htoken, hlink, hburned⟩ => ?_
  obtain ⟨hmem, hkey⟩ := findToken_spec htoken
  refine ⟨?_, ⟨token, hmem, hkey, hlink⟩, hinv.cycles r (Table.mem_of_get hr)⟩
  rw [Option.mem_def] at htoken
  simp [htoken, hburned]

/-- A card that a receipt has had burned has a redeemed cycle. -/
theorem ensureBurnedForRedeem_triple (redemptionId cycleId : JsStr) (tokenId : Option ℕ)
    (chainId : ℕ) :
    ReceiptTriple cfg (fun t => RequestOn t redemptionId cycleId)
      (ensureBurnedForRedeem cfg redemptionId tokenId chainId) fun _ t =>
        CycleRedeemed t cycleId := by
  have hlasts := lasts_requestOn redemptionId cycleId
  refine triple_bind (triple_ret fun _ _ _ hs => hs) fun contract => ?_
  rw [TokenSpelling.ensureBurnedForRedeem, Prog.expandFirst_throwIf_bind]
  refine triple_bind (triple_throwIf fun _ s hs => hs) fun _ => ?_
  rw [TokenSpelling.validTokenId, Prog.expandFirst_orThrow_bind]
  refine triple_bind (triple_orThrow fun _ _ _ hs => hs) fun tid => ?_
  rw [receiptLookup_bind]
  refine triple_bind (findTokenForReceipt_triple redemptionId contract (numberText tid) cycleId)
    fun found => ?_
  cases hburned : found.filter fun t => t.burnedAt.isSome with
  | some token => exact triple_ok fun s hs => hs.elim id fun h => by cases hburned.symm.trans h.1
  | none =>
    dsimp only
    rw [Prog.expand_bind]
    refine triple_bind (F := fun _ s => CycleRedeemed s.db cycleId) ?_ fun result =>
      triple_ok fun _ hs => hs
    refine triple_or ?_ ?_
    · refine triple_conseq (triple_frame (lasts_redeemed cycleId).persistent
        (burnTokenOnChain_triple False contract tid cycleId))
        (fun s hs => ⟨fun h => h.elim, hs⟩) fun _ _ hs => hs.2
    · exact triple_conseq (burnTokenOnChain_triple True contract tid cycleId)
        (fun s hs _ => hs.2) fun _ _ hs => hs trivial

end Burn

section Receipt
variable {cfg : Config} {t u : Tables} {batchId : JsStr} {chainId : ℕ}

theorem Requested.on {r : VaultRedemption} (h : Requested t r) :
    RequestOn t r.id r.vaultCycleId := by
  obtain ⟨stored, hstored, hsame⟩ := h
  exact ⟨stored, hstored, hsame.1.symm⟩

theorem ensureTokenBurned_triple (r : VaultRedemption) (chainId : ℕ) :
    ReceiptTriple cfg (fun t => Requested t r) (ensureTokenBurned cfg r chainId)
      fun _ t => CycleRedeemed t r.vaultCycleId := by
  have hlasts := lasts_requested r
  refine triple_bind (triple_statement hlasts fun _ _ => trivial) fun found => ?_
  refine triple_bind (triple_orThrow fun _ _ _ hs => hs) fun tokenIdStr => ?_
  have hburned : ReceiptTriple cfg (fun t => Requested t r)
      (ensureBurnedForRedeem cfg r.id (numberOf tokenIdStr) chainId)
      fun _ t => CycleRedeemed t r.vaultCycleId :=
    triple_conseq (ensureBurnedForRedeem_triple r.id r.vaultCycleId _ chainId) (fun _ hs => hs.on)
      fun _ _ hs => hs
  refine triple_settle hlasts.persistent (F := fun _ s => CycleRedeemed s.db r.vaultCycleId) ?_
    (fun _ => triple_ok fun _ hs => hs) fun _ => triple_error
  exact triple_settle hlasts.persistent hburned (fun _ => triple_ok fun _ hs => hs) fun _ =>
    triple_error

/-- The loop takes the batch's cycles one by one from those that are left. -/
theorem ensureBatchTokensBurned_triple (batchId : JsStr) (chainId : ℕ)
    (rows : List VaultRedemption) :
    ReceiptTriple cfg
      (fun t => (∀ r ∈ rows, Requested t r) ∧
        Covered t batchId chainId (rows.map VaultRedemption.vaultCycleId))
      (ensureBatchTokensBurned cfg chainId rows) fun _ t => Covered t batchId chainId [] := by
  induction rows with
  | nil => exact triple_ok fun s hs => hs.2
  | cons r rows ih =>
    have hlasts : Lasts fun t => (∀ r' ∈ rows, Requested t r') ∧
        Covered t batchId chainId ((r :: rows).map VaultRedemption.vaultCycleId) :=
      (lasts_forall fun r' => lasts_imp fun _ => lasts_requested r').and (lasts_covered _ _ _)
    refine triple_bind
      (triple_conseq (triple_frame hlasts.persistent (ensureTokenBurned_triple r chainId))
      (fun s hs => ⟨hs.1 r List.mem_cons_self, fun r' hr' => hs.1 r' (List.mem_cons_of_mem r hr'),
        hs.2⟩)
      fun _ _ hs => hs) fun _ => ?_
    exact triple_conseq ih (fun s hs => ⟨hs.2.1, hs.2.2.redeemed hs.1⟩) fun _ _ hs => hs

theorem mem_batchOnChain {r : VaultRedemption} (h : r ∈ batchOnChain t batchId chainId) :
    r ∈ t.redemptions.rows ∧ r.paymentBatchId = some batchId ∧
      ∀ c, t.cycles.get r.vaultCycleId = some c → r.chainId.getD c.chainId = chainId := by
  obtain ⟨hr, hmatch⟩ := Table.mem_find.mp (VaultRedemption.mem_oldestFirst.mp h)
  rw [Bool.and_eq_true, VaultRedemption.inBatch, decide_eq_true_eq] at hmatch
  refine ⟨hr, hmatch.1, fun c hc => ?_⟩
  have hchain := hmatch.2
  rw [hc] at hchain
  simpa using hchain

theorem covered_batchOnChain (ht : Inv t) :
    Covered t batchId chainId
      ((batchOnChain t batchId chainId).map VaultRedemption.vaultCycleId) := by
  intro r hr hbatch
  obtain ⟨c, hc⟩ := Option.isSome_iff_exists.mp (ht.cycles r hr)
  refine ⟨c, hc, fun hon => .inr (List.mem_map_of_mem ?_)⟩
  refine VaultRedemption.mem_oldestFirst.mpr (Table.mem_find.mpr ⟨hr, ?_⟩)
  simp [VaultRedemption.inBatch, hbatch, hc, hon]

/-- Rows that were loaded as a batch of the chain, of which those with a redeemed cycle may be
missing. -/
structure Loaded (t : Tables) (batchId : JsStr) (chainId : ℕ) (rows : List VaultRedemption) :
    Prop where
  batch : ∀ r ∈ rows, r.paymentBatchId = some batchId
  stored : ∀ r ∈ rows, MayStore t r
  covered : rows = [] ∨ Covered t batchId chainId (rows.map VaultRedemption.vaultCycleId)

theorem lasts_loaded (batchId : JsStr) (chainId : ℕ) (rows : List VaultRedemption) :
    Lasts fun t => Loaded t batchId chainId rows := fun _ _ htu h =>
  ⟨h.batch, fun r hr => (h.stored r hr).evolve htu, h.covered.imp_right fun hc => hc.evolve htu⟩

theorem loaded_nil (batchId : JsStr) (chainId : ℕ) : Loaded t batchId chainId [] :=
  ⟨fun _ hr => absurd hr List.not_mem_nil, fun _ hr => absurd hr List.not_mem_nil, .inl rfl⟩

theorem loaded_batchOnChain (ht : Inv t) :
    Loaded t batchId chainId (batchOnChain t batchId chainId) where
  batch _ hr := (mem_batchOnChain hr).2.1
  stored _ hr := mayStore_of_mem ht (mem_batchOnChain hr).1
  covered := .inr (covered_batchOnChain ht)

/-- The statement that loads a batch, with what holds of the rows that are on the chain. -/
theorem findParcelsByBatchId_triple {K : Tables → Prop} (hK : Lasts K)
    {F : List VaultRedemption → Tables → Prop} (paymentBatchId : JsStr) (chainId : ℕ)
    (hnil : ∀ t, K t → F [] t)
    (hrows : ∀ t, Inv t → K t → F (batchOnChain t (trim paymentBatchId) chainId) t) :
    ReceiptTriple cfg K (findParcelsByBatchId paymentBatchId chainId)
      fun parcels t => F (parcels.map Prod.fst) t := by
  unfold findParcelsByBatchId
  split_ifs
  · exact triple_ok fun s hs => hnil s.db hs
  · refine triple_perform hK (fun _ _ _ _ _ => trivial) fun i s x parcels u hinv hs _ _ hrun => ?_
    obtain ⟨hparcels, rfl⟩ := Prod.mk.inj hrun
    have hfst : parcels.map Prod.fst = batchOnChain s.db (trim paymentBatchId) chainId := by
      rw [← Except.ok.inj hparcels, List.map_map]
      exact List.map_id _
    rw [hfst]
    exact hrows s.db hinv hs

theorem findRedemptionsByBatchId_triple (paymentBatchId : JsStr) (chainId : ℕ) :
    ReceiptTriple cfg (fun _ => True) (findRedemptionsByBatchId paymentBatchId chainId)
      fun rows t => Loaded t (trim paymentBatchId) chainId rows := by
  refine triple_bind (findParcelsByBatchId_triple
    (F := fun rows t => Loaded t (trim paymentBatchId) chainId rows) lasts_true
    paymentBatchId chainId
    (fun t _ => loaded_nil _ _) fun t ht _ => loaded_batchOnChain ht) fun parcels => ?_
  exact triple_ok fun _ hs => hs

/-- The rows of a batch that has no unredeemed cycle may all be completed. -/
theorem reload_triple {r : VaultRedemption} (rows : List VaultRedemption) (chainId : ℕ)
    (hbatch : r.paymentBatchId = some batchId) (htrim : trim batchId = batchId) :
    ReceiptTriple cfg (fun t => Covered t batchId chainId []) (reload (r :: rows) chainId)
      fun fresh t => ∀ r ∈ fresh, MayStore t (confirmed r) := by
  have hreload : reload (r :: rows) chainId = findRedemptionsByBatchId batchId chainId := by
    rw [reload, List.head?_cons, Option.bind_some, hbatch]
  rw [hreload]
  refine triple_bind (findParcelsByBatchId_triple
    (F := fun fresh t => ∀ r ∈ fresh, MayStore t (confirmed r)) (lasts_covered _ _ _)
    batchId chainId
    (fun t _ r hr => absurd hr List.not_mem_nil) fun t ht hcovered r' hr' => ?_) fun parcels =>
      triple_ok fun _ hs => hs
  rw [htrim] at hr'
  obtain ⟨hmem, hbatch', hon⟩ := mem_batchOnChain hr'
  obtain ⟨c, hc, hredeemed⟩ := hcovered r' hmem hbatch'
  refine ⟨(mayStore_of_mem ht hmem).1, fun _ => ⟨c, hc, ?_⟩⟩
  exact (hredeemed (hon c hc)).elim id fun h => absurd h List.not_mem_nil

theorem mem_toConfirm {rows : List VaultRedemption} {r : VaultRedemption} (h : r ∈ toConfirm rows) :
    r ∈ rows := by
  unfold toConfirm at h
  split_ifs at h
  · exact h
  · exact (List.mem_filter.mp h).1

/-- The rows that are completed already have a redeemed cycle. -/
theorem Loaded.toConfirm {rows : List VaultRedemption} (h : Loaded t batchId chainId rows) :
    Loaded t batchId chainId (toConfirm rows) := by
  refine ⟨fun r hr => h.batch r (mem_toConfirm hr), fun r hr => h.stored r (mem_toConfirm hr), ?_⟩
  unfold Receipts.toConfirm
  split_ifs
  · exact h.covered
  · rcases h.covered with hnil | hcovered
    · rw [hnil]
      exact .inl rfl
    · refine .inr fun r hr hbatch => ?_
      obtain ⟨c, hc, hcycle⟩ := hcovered r hr hbatch
      refine ⟨c, hc, fun hon => (hcycle hon).elim .inl fun hmem => ?_⟩
      obtain ⟨r', hr', hsame⟩ := List.mem_map.mp hmem
      by_cases hcompleted : r'.status = .completed
      · obtain ⟨d, hd, hredeemed⟩ := (h.stored r' hr').2 hcompleted
        rw [hsame] at hd
        obtain rfl : c = d := Option.some.inj (hc.symm.trans hd)
        exact .inl hredeemed
      · refine .inr (hsame ▸ List.mem_map_of_mem (List.mem_filter.mpr ⟨hr', ?_⟩))
        simpa using hcompleted

theorem markUserReceiptConfirmed_triple (via : Via) (rows : List VaultRedemption) :
    ReceiptTriple cfg (fun t => ∀ r ∈ rows, MayStore t (confirmed r))
      (markUserReceiptConfirmed via rows)
      fun _ _ => True := by
  unfold markUserReceiptConfirmed
  split_ifs
  · exact triple_ok fun _ _ => trivial
  · refine triple_bind (triple_statement
      (lasts_forall fun r => lasts_imp fun _ => lasts_mayStore (confirmed r)) fun t ht e he => ?_)
      fun _ => triple_ok fun _ _ => trivial
    obtain ⟨r, hr, rfl⟩ := List.mem_map.mp he
    exact ht r hr

theorem finalizeReceiptWithBurn_triple (via : Via) (rows : List VaultRedemption) (chainId : ℕ)
    (htrim : trim batchId = batchId) :
    ReceiptTriple cfg (fun t => Loaded t batchId chainId rows)
      (finalizeReceiptWithBurn cfg via rows chainId) fun _ _ => True := by
  cases rows with
  | nil => exact triple_ok fun _ _ => trivial
  | cons r rows =>
    have hlasts := lasts_loaded batchId chainId (r :: rows)
    refine triple_bind
      (F := fun _ s => r.paymentBatchId = some batchId ∧ Covered s.db batchId chainId [])
      ?_ fun _ => ?_
    · refine triple_conseq (triple_frame (persistent_const (r.paymentBatchId = some batchId))
        (ensureBatchTokensBurned_triple batchId chainId (r :: rows))) (fun s hs => ⟨⟨?_, ?_⟩, ?_⟩)
        fun _ s hs => ⟨hs.2, hs.1⟩
      · exact fun r' hr' => (hs.stored r' hr').1
      · exact hs.covered.resolve_left (List.cons_ne_nil r rows)
      · exact hs.batch r List.mem_cons_self
    · refine triple_bind (F := fun fresh s => ∀ r ∈ fresh, MayStore s.db (confirmed r)) ?_
        fun fresh => ?_
      · intro i s hs
        exact reload_triple rows chainId hs.1 htrim i s hs.2
      · exact triple_conseq (markUserReceiptConfirmed_triple via (toConfirm fresh))
          (fun s hs r hr => hs r (mem_toConfirm hr)) fun _ _ hs => hs

theorem confirmReceipt_triple (batchId : JsStr) (chainId : ℕ) :
    ReceiptTriple cfg (fun _ => True) (confirmReceipt cfg batchId chainId) fun _ _ => True := by
  refine triple_bind (findRedemptionsByBatchId_triple batchId chainId) fun rows => ?_
  have hlasts := lasts_loaded (trim batchId) chainId rows
  refine triple_bind (triple_throwIf fun _ _ hs => hs) fun _ => ?_
  refine triple_bind (triple_statement hlasts fun _ _ => trivial) fun isRequester => ?_
  refine triple_bind (triple_throwIf fun _ _ hs => hs) fun _ => ?_
  refine triple_bind (triple_ret fun _ _ _ hs => hs) fun _ => ?_
  exact finalizeReceiptWithBurn_triple .user rows chainId (trim_trim batchId)

theorem autoConfirmBatch_triple (batchId : JsStr) (sample : List VaultRedemption) :
    ReceiptTriple cfg (fun _ => True) (autoConfirmBatch cfg batchId sample) fun _ _ => True := by
  unfold autoConfirmBatch
  cases sample.head?.bind VaultRedemption.chainId with
  | none => exact triple_ok fun _ _ => trivial
  | some chainId =>
    dsimp only
    refine triple_bind (findParcelsByBatchId_triple
      (F := fun rows t => Loaded t (trim batchId) chainId rows) lasts_true batchId chainId
      (fun t _ => loaded_nil _ _) fun t ht _ => loaded_batchOnChain ht) fun parcels => ?_
    have hlasts := lasts_loaded (trim batchId) chainId (parcels.map Prod.fst)
    refine triple_bind (triple_statement hlasts fun _ _ => trivial) fun now => ?_
    cases batchReadyForAutoReceipt parcels cfg.graceMs now with
    | error reason => exact triple_ok fun _ _ => trivial
    | ok ready =>
      refine triple_bind (F := fun _ _ => True) ?_ fun result => triple_ok fun _ _ => trivial
      refine triple_settle hlasts.persistent (triple_conseq
        (finalizeReceiptWithBurn_triple .auto (toConfirm (parcels.map Prod.fst)) chainId
          (trim_trim batchId)) (fun s hs => hs.toConfirm) fun _ _ hs => hs)
        (fun _ => triple_ok fun _ _ => trivial) fun _ => triple_ok fun _ _ => trivial

theorem autoConfirmBatches_triple (batches : List (JsStr × List VaultRedemption)) :
    ReceiptTriple cfg (fun _ => True) (autoConfirmBatches cfg batches) fun _ _ => True := by
  induction batches with
  | nil => exact triple_ok fun _ _ => trivial
  | cons batch batches ih =>
    exact triple_bind (autoConfirmBatch_triple batch.1 batch.2) fun _ =>
      triple_bind ih fun _ => triple_ok fun _ _ => trivial

theorem autoConfirmDueBatches_triple :
    ReceiptTriple cfg (fun _ => True) (autoConfirmDueBatches cfg) fun _ _ => True :=
  triple_bind (triple_statement lasts_true fun _ _ => trivial) fun _ =>
    triple_bind (triple_statement lasts_true fun _ _ => trivial) fun _ =>
      autoConfirmBatches_triple _

def Pending (t : Tables) (byNumber : Groups) : Prop :=
  ∀ key, ∀ rows ∈ byNumber.get? key, ∀ r ∈ rows, MayStore t r

theorem lasts_pending (byNumber : Groups) : Lasts fun t => Pending t byNumber :=
  lasts_forall fun _ => lasts_forall fun _ => lasts_imp fun _ =>
    lasts_forall fun r => lasts_imp fun _ => lasts_mayStore r

theorem pending_set_nil {byNumber : Groups} (h : Pending t byNumber) (key : JsStr) :
    Pending t (byNumber.set key []) := by
  intro key' rows hrows r hr
  by_cases hkey : key' = key
  · rw [hkey, OrderedMap.get?_set_self] at hrows
    rw [← Option.some.inj hrows] at hr
    cases hr
  · rw [OrderedMap.get?_set_of_ne hkey] at hrows
    exact h key' rows hrows r hr

theorem stampCarrierDelivered_triple (key : JsStr) (at_ : ℕ) (byNumber : Groups) :
    ReceiptTriple cfg (fun t => Pending t byNumber) (stampCarrierDelivered key at_ byNumber)
      fun a t => Pending t a.2 := by
  have hlasts := lasts_pending byNumber
  unfold stampCarrierDelivered
  cases hrows : byNumber.get? key with
  | none => exact triple_ok fun _ hs => hs
  | some rows =>
    dsimp only
    split_ifs
    · exact triple_ok fun _ hs => hs
    · refine triple_bind (triple_statement hlasts fun t ht e he => ?_) fun _ => ?_
      · obtain ⟨r, hr, rfl⟩ := List.mem_map.mp he
        exact ht key rows hrows r hr
      · exact triple_ok fun _ hs => pending_set_nil hs key

theorem stampEach_triple (stamps : List (JsStr × ℕ)) (byNumber : Groups) :
    ReceiptTriple cfg (fun t => Pending t byNumber) (stampEach stamps byNumber)
      fun a t => Pending t a.2 := by
  induction stamps generalizing byNumber with
  | nil => exact triple_ok fun _ hs => hs
  | cons stamp stamps ih =>
    exact triple_bind (stampCarrierDelivered_triple stamp.1 stamp.2 byNumber) fun first =>
      triple_bind (ih first.2) fun _ => triple_ok fun _ hs => hs

theorem mem_undelivered {s : Store} {r : VaultRedemption} (h : r ∈ undelivered s) :
    r ∈ s.db.redemptions.rows ∧ (s.delivery r.id).carrierDeliveredAt = none := by
  have hmem := List.mem_of_mem_take h
  rw [(List.perm_insertionSort _ _).mem_iff] at hmem
  obtain ⟨hr, hmatch⟩ := Table.mem_find.mp hmem
  simp only [Bool.and_eq_true, Option.isNone_iff_eq_none] at hmatch
  exact ⟨hr, hmatch.2⟩

theorem pollDeliveries_triple :
    ReceiptTriple cfg (fun _ => True) (pollDeliveries cfg) fun _ _ => True := by
  have hfind : ReceiptTriple cfg (fun _ => True) (perform .findUndelivered)
      fun rows t => ∀ r ∈ rows, MayStore t r := by
    refine triple_perform lasts_true (fun _ _ _ _ _ => trivial)
      fun i s x rows u hinv _ _ _ hrun => ?_
    obtain ⟨hrows, rfl⟩ := Prod.mk.inj hrun
    obtain rfl := Except.ok.inj hrows
    exact fun r hr => mayStore_of_mem hinv (mem_undelivered hr).1
  refine triple_bind hfind fun rows => ?_
  dsimp only
  split_ifs
  · exact triple_ok fun _ _ => trivial
  · have hlasts : Lasts fun t => ∀ r ∈ rows, MayStore t r :=
      lasts_forall fun r => lasts_imp fun _ => lasts_mayStore r
    refine triple_bind (F := fun _ s => ∀ r ∈ rows, MayStore s.db r) ?_ fun results => ?_
    · exact triple_settle hlasts.persistent (triple_statement hlasts fun _ _ => trivial)
        (fun _ => triple_ok fun _ hs => hs) fun _ => triple_ok fun _ hs => hs
    · refine triple_bind
        (triple_conseq (stampEach_triple _ _) (fun s hs key group hgroup r hr => ?_)
        fun _ _ hs => hs) fun marked => ?_
      · exact hs r (List.mem_of_mem_filter (mem_groupBy hgroup hr).1)
      · refine triple_bind (F := fun _ _ => True) ?_ fun _ => triple_ok fun _ _ => trivial
        unfold stampSandboxOnes
        split_ifs
        · refine triple_bind (triple_statement (lasts_pending marked.2) fun _ _ => trivial)
            fun now => ?_
          exact triple_bind (stampEach_triple _ _) fun _ => triple_ok fun _ _ => trivial
        · exact triple_ok fun _ _ => trivial

end Receipt

section Runs
variable {cfg : Config}

theorem triple_discard {K : Tables → Prop} {α : Type} {p : M α} {F : α → Tables → Prop}
    (hK : Lasts K)
    (hp : ReceiptTriple cfg K p F) : ReceiptTriple cfg K p.discard fun _ _ => True :=
  triple_settle hK.persistent hp (fun _ => triple_ok fun _ _ => trivial) fun _ => triple_error

theorem burnPanel_triple (tokenId : Option ℕ) (chainId : ℕ) :
    ReceiptTriple cfg (fun _ => True) (burnTokenOnChain cfg tokenId chainId) fun _ _ => True := by
  refine triple_bind (triple_ret (F := fun _ _ => True) fun _ _ _ _ => trivial) fun contract => ?_
  cases tokenId with
  | none =>
    rw [TokenSpelling.burnTokenOnChain, Prog.expand_bind, Prog.expand_throwIf]
    exact triple_bind (triple_throwIf (G := fun _ => True) fun _ _ _ => trivial) fun _ =>
      triple_error
  | some tid =>
    exact triple_conseq (burnTokenOnChain_triple False contract tid [])
      (fun s _ h => h.elim) fun _ _ _ => trivial

theorem task_triple (call : ReceiptCall) :
    ReceiptTriple cfg (fun _ => True) (call.task cfg) fun _ _ => True := by
  cases call with
  | burnTokenOnChain tokenId chainId =>
    exact triple_discard lasts_true (burnPanel_triple tokenId chainId)
  | confirmReceipt batchId chainId =>
    exact triple_discard lasts_true (confirmReceipt_triple batchId chainId)
  | pollOnce =>
    refine triple_bind pollDeliveries_triple fun _ => ?_
    split_ifs
    · exact triple_discard lasts_true autoConfirmDueBatches_triple
    · exact triple_ok fun _ _ => trivial
  | recordOwner contract tokenId owner => exact triple_statement lasts_true fun _ _ => trivial
  | recordBurn contract tokenId => exact triple_statement lasts_true fun _ _ => trivial

/-- In every interleaving of burns, receipts and recorded transfers, with failures at any step:
every completed redemption has a redeemed cycle. -/
theorem completed_redemption_redeemed (cfg : Config) {s₀ : Store}
    (hkeys : (s₀.db.tokens.map RwaToken.key).Nodup)
    (hcycles : ∀ r ∈ s₀.db.redemptions.rows, HasCycle s₀.db r.vaultCycleId)
    (hstart : CompletedRedeemed s₀.db) {p : Pool Store Cmd Res HttpError Unit}
    (hp : Pool.Reach (handler cfg) (ReceiptCall.task cfg) UnburnedLookup ⟨s₀, []⟩ p) :
    CompletedRedeemed p.shared.db := by
  have hinv : receiptContract.inv p.shared := Pool.inv_of_reach
    (fun call i s _ => wp_mono (fun _ _ _ => trivial) (task_triple call i s trivial))
    ⟨hkeys, hcycles, hstart⟩ hp
  exact hinv.completed

def sampleContract : JsStr := js "0x" ++ List.replicate 40 'c'

def sampleCustody : JsStr := js "0x" ++ List.replicate 40 'e'

def sampleConfig : Config where
  env := { rwaAddresses := [(1, sampleContract)] }
  keccak := id
  custodyWallet _ := sampleCustody
  minterAddress := []

def requestedCycle : VaultCycle where
  id := js "c"
  vaultAssetId := js "a"
  chainId := 1
  cycleNumber := 1
  status := .redemptionRequested

def shippedRedemption : VaultRedemption where
  id := js "r"
  vaultCycleId := js "c"
  ownerWalletAddress := []
  requestedAt := 0
  status := .inCustody
  paymentBatchId := some (js "b")
  trackingNumber := some (js "1Z")

def shippedToken : RwaToken where
  tokenContract := sampleContract
  tokenId := js "7"
  vaultCycleId := some (js "c")

def shippedStore : Store where
  db := {
    orders := Table.empty
    tokens := [shippedToken]
    holdings := []
    settlements := []
    assets := [{ id := js "a", externalCertNumber := js "123" }]
    cycles := ⟨[requestedCycle], List.nodup_singleton _⟩
    claims := Table.empty
    redemptions := ⟨[shippedRedemption], List.nodup_singleton _⟩ }
  owner nft := if nft = (1, 7) then some sampleCustody else none

def shownStatuses (p : Pool Store Cmd Res HttpError Unit) :
    Option RedemptionStatus × Option CycleStatus :=
  ((p.shared.db.redemptions.get (js "r")).map VaultRedemption.status,
    (p.shared.db.cycles.get (js "c")).map VaultCycle.status)

/-- The receipt of the batch as call `i`, up to its `n`th step. -/
def receiptSteps (i n : ℕ) : List (Pool.Event ReceiptCall Answer) :=
  .spawn (.confirmReceipt (js "b") 1) :: List.replicate n (.run i { txHash := js "0x01" })

theorem shippedStore_start : (shippedStore.db.tokens.map RwaToken.key).Nodup ∧
    (∀ r ∈ shippedStore.db.redemptions.rows, HasCycle shippedStore.db r.vaultCycleId) ∧
    CompletedRedeemed shippedStore.db := by
  refine ⟨List.nodup_singleton _, fun r hr => ?_, fun r hr hcompleted => ?_⟩
  · rw [List.mem_singleton.mp hr]
    rfl
  · rw [List.mem_singleton.mp hr] at hcompleted
    cases hcompleted

theorem completed_redemption_redeemed_shipped : ∃ p,
    Pool.Reach (handler sampleConfig) (ReceiptCall.task sampleConfig) UnburnedLookup
      ⟨shippedStore, []⟩ p ∧
      shownStatuses p = (some .completed, some .redeemed) ∧ CompletedRedeemed p.shared.db := by
  obtain ⟨hkeys, hcycles, hstart⟩ := shippedStore_start
  obtain ⟨p, hp, hshown⟩ : ∃ p, Pool.Reach (handler sampleConfig) (ReceiptCall.task sampleConfig)
      UnburnedLookup ⟨shippedStore, []⟩ p ∧ shownStatuses p = (some .completed, some .redeemed) :=
    Pool.exists_reach_of_runSchedule (receiptSteps 0 22) shownStatuses (by decide +kernel)
  exact ⟨p, hp, hshown, completed_redemption_redeemed sampleConfig hkeys hcycles hstart hp⟩

/-- The record of the burn fails after the owner index has marked the card, and the receipt is
confirmed once more. -/
theorem completed_after_failed_record : ∃ p,
    Pool.Reach (handler sampleConfig) (ReceiptCall.task sampleConfig) anyStep ⟨shippedStore, []⟩ p ∧
      shownStatuses p = (some .completed, some .redemptionRequested) :=
  Pool.exists_reach_of_runSchedule
    (receiptSteps 0 12 ++ [.run 0 { fate := .failed (.internal []) }] ++ receiptSteps 1 6)
      shownStatuses
    (by decide +kernel)

end Runs

end Receipts
