import Tokenable.Chain.MintRules
import Tokenable.Rwa.MintForUser
import Tokenable.Vault.CycleStates

/-!
# The registry rows of minted cards

`Fit` is what every cycle says that is stored or about to be saved: its attempt is that of the
request which reserved it, the transaction on it was broadcast for it, and the token on it was read
off a receipt of such a transaction. A registry row is written from a fit cycle or by the mint that
reserved the cycle, whatever fails and however recovery runs beside it.

Some cycles may be `kept`: cycles without a registry row that are not in the middle of a mint when
the process is started again. No call changes them or links a row to them.
-/

namespace UserMint
open Js Platform Async Chain Vault Backend

section Facts
variable (cfg : Config) (kept : List VaultCycle)

def Config.owner (req : Request) : JsStr :=
  lower (trim (req.mintToAddress (cfg.custodyWallet.toOption.getD [])))

namespace Store

/-- The hash names the transaction: as it was submitted, or as its receipt has it. -/
def Names (s : Store) (e : Sent) (hash : JsStr) : Prop :=
  lower (trim hash) = lower (trim e.txHash) ∨ ∃ m ∈ s.mined, ∃ receipt hash',
    m.chainId = e.chainId ∧ m.txHash = e.txHash ∧ m.receipt = some receipt ∧
      receipt.hash = some hash' ∧ lower (trim hash) = lower (trim hash')

def SubmittedFor (s : Store) (cycleId : JsStr) (chainId : ℕ) (hash : JsStr) : Prop :=
  ∃ e ∈ s.sent, e.cycleId = cycleId ∧ e.chainId = chainId ∧ s.Names e hash

/-- The receipt of a transaction broadcast for the cycle says that the token was minted. -/
def MintedFor (s : Store) (cycleId : JsStr) (chainId tokenId : ℕ) : Prop :=
  ∃ m ∈ s.mined, ∃ receipt, s.SubmittedFor cycleId chainId m.txHash ∧ m.chainId = chainId ∧
    m.receipt = some receipt ∧ (parseMintedTokenIds receipt.logs).head? = some tokenId

def Holds (s : Store) (cycleId assetId : JsStr) (chainId : ℕ) : Prop :=
  ∃ c ∈ s.tables.cycles.rows, c.id = cycleId ∧ c.vaultAssetId = assetId ∧ c.chainId = chainId

def IsCard (s : Store) (assetId certNumber : JsStr) : Prop :=
  ∃ a ∈ s.tables.assets, a.id = assetId ∧ a.externalCertNumber = certNumber

def ReservedFor (s : Store) (cycleId : JsStr) (req : Request) : Prop :=
  ⟨cycleId, req⟩ ∈ s.reserved

end Store

/-- What the attempt of a request says. -/
structure Intends (req : Request) (a : MintAttempt) : Prop where
  uri : a.tokenURI = trim req.tokenURI
  cert : a.certNumber = normalizeCert req.cert
  owner : a.ownerWallet = cfg.owner req
  policy : a.settlementPolicy = req.settlementPolicy
  given : a.tokenURI ≠ [] ∧ a.ownerWallet ≠ []

structure FitAttempt (s : Store) (c : VaultCycle) (a : MintAttempt) : Prop where
  intends : ∃ req, s.ReservedFor c.id req ∧ req.chainId = c.chainId ∧ Intends cfg req a
  submitted : ∀ hash, a.txHash = some hash → s.SubmittedFor c.id c.chainId hash
  minted : ∀ id, a.tokenId = some id → ∃ n, id = ofNat n ∧ s.MintedFor c.id c.chainId n

structure Fit (s : Store) (c : VaultCycle) : Prop where
  held : s.Holds c.id c.vaultAssetId c.chainId
  attempt : ∀ a, c.mintAttempt = some a → FitAttempt cfg s c a

/-- A registry row says what the request of its cycle asked for, and the token is one that a
transaction of the cycle minted. -/
structure LinkedTo (s : Store) (token : RwaToken) (cycleId : JsStr) (req : Request) : Prop where
  reserved : s.ReservedFor cycleId req
  contract : cfg.env.getRwaAddress req.chainId = .ok token.tokenContract
  minted : ∃ n, token.tokenId = ofNat n ∧ s.MintedFor cycleId req.chainId n
  cert : token.certNumber = some (normalizeCert req.cert)
  vaultRef : token.vaultRef = some (cfg.keccak (normalizeCert req.cert))
  uri : token.tokenUri = some (trim req.tokenURI)
  owner : token.ownerWallet = some (cfg.owner req)
  policy : token.settlementPolicy = some req.settlementPolicy

def Distinct (assets : List VaultAsset) : Prop :=
  ∀ a ∈ assets, ∀ a' ∈ assets, a.id = a'.id → a = a'

structure Sound (s : Store) : Prop where
  assets : Distinct s.tables.assets
  opened : ∀ r ∈ s.reserved, ∃ assetId, s.Holds r.cycleId assetId r.request.chainId ∧
    s.IsCard assetId (normalizeCert r.request.cert)
  single : ∀ r ∈ s.reserved, ∀ r' ∈ s.reserved, r.cycleId = r'.cycleId → r = r'
  sent : ∀ e ∈ s.sent, ∃ req, s.ReservedFor e.cycleId req ∧ e.chainId = req.chainId ∧
    e.recipient = cfg.owner req
  fit : ∀ c ∈ s.tables.cycles.rows, Fit cfg s c
  linked : ∀ token ∈ s.tables.tokens, ∀ cycleId, token.vaultCycleId = some cycleId →
    ∃ req, LinkedTo cfg s token cycleId req
  kept : ∀ k ∈ kept, k ∈ s.tables.cycles.rows ∧
    ∀ token ∈ s.tables.tokens, token.vaultCycleId ≠ some k.id

/-- Cycles, cards, registry keys and records stay, and no cycle of the card of an open kept cycle is
added on its chain. -/
structure Later (s t : Store) : Prop where
  holds : ∀ id assetId chainId, s.Holds id assetId chainId → t.Holds id assetId chainId
  cards : ∀ assetId cert, s.IsCard assetId cert → t.IsCard assetId cert
  reserved : s.reserved ⊆ t.reserved
  sent : s.sent ⊆ t.sent
  mined : s.mined ⊆ t.mined
  tokens : ∀ token ∈ s.tables.tokens, ∃ token' ∈ t.tables.tokens, token'.key = token.key
  closed : ∀ k ∈ kept, Cycles.isOpen k = true → ∀ id,
    t.Holds id k.vaultAssetId k.chainId → s.Holds id k.vaultAssetId k.chainId

end Facts

variable {cfg : Config} {kept : List VaultCycle} {s t u : Store}

theorem Later.refl (s : Store) : Later kept s s where
  holds _ _ _ h := h
  cards _ _ h := h
  reserved _ h := h
  sent _ h := h
  mined _ h := h
  tokens token h := ⟨token, h, rfl⟩
  closed _ _ _ _ h := h

theorem Later.trans (h : Later kept s t) (h' : Later kept t u) : Later kept s u where
  holds id assetId chainId hs := h'.holds _ _ _ (h.holds _ _ _ hs)
  cards assetId cert hs := h'.cards _ _ (h.cards _ _ hs)
  reserved := List.Subset.trans h.reserved h'.reserved
  sent := List.Subset.trans h.sent h'.sent
  mined := List.Subset.trans h.mined h'.mined
  tokens token htoken := by
    obtain ⟨token₁, h₁, hkey₁⟩ := h.tokens token htoken
    obtain ⟨token₂, h₂, hkey₂⟩ := h'.tokens token₁ h₁
    exact ⟨token₂, h₂, hkey₂.trans hkey₁⟩
  closed k hk hopen id hu := h.closed k hk hopen id (h'.closed k hk hopen id hu)

section Later
variable (h : Later kept s t) {cycleId hash : JsStr} {chainId : ℕ} {e : Sent} {a : MintAttempt}
  {c : VaultCycle}

include h

theorem Later.names (hs : s.Names e hash) : t.Names e hash := by
  rcases hs with hsame | ⟨m, hm, hrest⟩
  · exact .inl hsame
  · exact .inr ⟨m, h.mined hm, hrest⟩

theorem Later.submittedFor (hs : s.SubmittedFor cycleId chainId hash) :
    t.SubmittedFor cycleId chainId hash := by
  obtain ⟨e, he, hid, hchain, hnames⟩ := hs
  exact ⟨e, h.sent he, hid, hchain, h.names hnames⟩

theorem Later.mintedFor {n : ℕ} (hs : s.MintedFor cycleId chainId n) :
    t.MintedFor cycleId chainId n := by
  obtain ⟨m, hm, receipt, hsubmitted, hrest⟩ := hs
  exact ⟨m, h.mined hm, receipt, h.submittedFor hsubmitted, hrest⟩

theorem Later.fitAttempt (hs : FitAttempt cfg s c a) : FitAttempt cfg t c a where
  intends := by
    obtain ⟨req, hreq, hintends⟩ := hs.intends
    exact ⟨req, h.reserved hreq, hintends⟩
  submitted hash hhash := h.submittedFor (hs.submitted hash hhash)
  minted id hid := by
    obtain ⟨n, hn, hminted⟩ := hs.minted id hid
    exact ⟨n, hn, h.mintedFor hminted⟩

theorem Later.fit (hs : Fit cfg s c) : Fit cfg t c :=
  ⟨h.holds _ _ _ hs.held, fun a ha => h.fitAttempt (hs.attempt a ha)⟩

theorem Later.linkedTo {token : RwaToken} {req : Request}
    (hs : LinkedTo cfg s token cycleId req) : LinkedTo cfg t token cycleId req :=
  { hs with
    reserved := h.reserved hs.reserved
    minted := by
      obtain ⟨n, hn, hminted⟩ := hs.minted
      exact ⟨n, hn, h.mintedFor hminted⟩ }

theorem Later.opened (hs : Sound cfg kept s) {r : Reserved} (hr : r ∈ s.reserved) :
    ∃ assetId, t.Holds r.cycleId assetId r.request.chainId ∧
      t.IsCard assetId (normalizeCert r.request.cert) := by
  obtain ⟨assetId, hheld, hcard⟩ := hs.opened r hr
  exact ⟨assetId, h.holds _ _ _ hheld, h.cards _ _ hcard⟩

theorem Later.linked (hs : Sound cfg kept s) {token : RwaToken} (htoken : token ∈ s.tables.tokens)
    (hid : token.vaultCycleId = some cycleId) : ∃ req, LinkedTo cfg t token cycleId req := by
  obtain ⟨req, hlinked⟩ := hs.linked token htoken cycleId hid
  exact ⟨req, h.linkedTo hlinked⟩

end Later

/-- A cycle is of one card and one chain. -/
theorem Store.Holds.unique {id assetId assetId' : JsStr} {chainId chainId' : ℕ}
    (h : s.Holds id assetId chainId) (h' : s.Holds id assetId' chainId') :
    assetId = assetId' ∧ chainId = chainId' := by
  obtain ⟨c, hc, hid, rfl, rfl⟩ := h
  obtain ⟨c', hc', hid', rfl, rfl⟩ := h'
  obtain rfl := Db.Table.key_inj hc hc' (hid.trans hid'.symm)
  exact ⟨rfl, rfl⟩

section Steps

/-- What stays when the tables stay. -/
theorem Sound.of_tables (hs : Sound cfg kept s) (hl : Later kept s t)
    (htables : t.tables = s.tables)
    (hreserved : t.reserved = s.reserved) (hsent : ∀ e ∈ t.sent, ∃ req,
      t.ReservedFor e.cycleId req ∧ e.chainId = req.chainId ∧ e.recipient = cfg.owner req) :
    Sound cfg kept t where
  assets := by
    rw [htables]
    exact hs.assets
  opened r hr := hl.opened hs (hreserved ▸ hr)
  single := by
    rw [hreserved]
    exact hs.single
  sent := hsent
  fit c hc := by
    rw [htables] at hc
    exact hl.fit (hs.fit c hc)
  linked token htoken cycleId hid := by
    rw [htables] at htoken
    exact hl.linked hs htoken hid
  kept := by
    rw [htables]
    exact hs.kept

/-- Where a command may be issued. -/
def Pre (cfg : Config) (kept : List VaultCycle) : Cmd → Store → Prop
  | .table (.findCycle _), _ | .table (.findAsset _), _ => True
  | .table (.saveCycle _ cycle), s => Fit cfg s cycle ∧ ∀ k ∈ kept, k.id ≠ cycle.id
  | .table (.saveAsset asset), s => s.IsCard asset.id asset.externalCertNumber
  | .table (.upsertToken row), s => ∃ cycleId req, row.vaultCycleId = some cycleId ∧
    LinkedTo cfg s row cycleId req ∧ ∀ k ∈ kept, k.id ≠ cycleId
  | .table _, _ => False
  | .mint cycleId chainId recipient, s => ∃ req, s.ReservedFor cycleId req ∧
    chainId = req.chainId ∧ recipient = cfg.owner req
  | _, _ => True

/-- What an answer says. -/
def Post (cfg : Config) (kept : List VaultCycle) : (c : Cmd) → Value c → Store → Prop
  | .table (.findCycle id), (found : Option VaultCycle), s =>
    ∀ c, found = some c → c.id = id ∧ Fit cfg s c ∧
      ∀ req, s.ReservedFor id req → c.chainId = req.chainId
  | .table (.findAsset _), (found : Option VaultAsset), s =>
    ∀ a, found = some a → s.IsCard a.id a.externalCertNumber
  | .table (.upsertToken row), _, s => ∃ token ∈ s.tables.tokens, token.key = row.key
  | .reserve req, (reserved : Except HttpError (VaultAsset × VaultCycle)), s =>
    ∀ r, reserved = .ok r → s.ReservedFor r.2.id req ∧ ∀ k ∈ kept, k.id ≠ r.2.id
  | .findOpenCycle .., (found : Option Shown), s => ∀ c, found = some c → Fit cfg s c.1 ∧
    ∀ k ∈ kept, k.id = c.1.id → k.status = c.1.status
  | .findMinting _, (rows : List Shown), s => ∀ c ∈ rows, Fit cfg s c.1 ∧
    ∀ k ∈ kept, k.id = c.1.id → k.status = .minting
  | .mint cycleId chainId recipient, txHash, s => ⟨cycleId, chainId, recipient, txHash⟩ ∈ s.sent
  | .wait chainId txHash, receipt, s => ⟨chainId, txHash, receipt⟩ ∈ s.mined
  | .getTransactionReceipt chainId txHash, receipt, s => ⟨chainId, txHash, receipt⟩ ∈ s.mined
  | _, _, _ => True

/-- A new element with a key of its own is told apart from the others. -/
theorem apart_append {α β : Type} {key : α → β} {xs : List α} {x a b : α}
    (hxs : ∀ a ∈ xs, ∀ b ∈ xs, key a = key b → a = b) (hx : ∀ a ∈ xs, key a ≠ key x)
    (ha : a ∈ xs ++ [x]) (hb : b ∈ xs ++ [x]) (hkey : key a = key b) : a = b := by
  rcases List.mem_append.mp ha with hold | hnew
  · rcases List.mem_append.mp hb with hold' | hnew'
    · exact hxs a hold b hold' hkey
    · rw [List.mem_singleton.mp hnew'] at hkey
      exact absurd hkey (hx a hold)
  · rcases List.mem_append.mp hb with hold' | hnew'
    · rw [List.mem_singleton.mp hnew] at hkey
      exact absurd hkey.symm (hx b hold')
    · exact (List.mem_singleton.mp hnew).trans (List.mem_singleton.mp hnew').symm

structure KeepsCards (as as' : List VaultAsset) : Prop where
  distinct : Distinct as'
  cards : ∀ a ∈ as, ∃ a' ∈ as', a'.id = a.id ∧ a'.externalCertNumber = a.externalCertNumber

theorem KeepsCards.isCard (h : KeepsCards s.tables.assets t.tables.assets) {assetId cert : JsStr}
    (hs : s.IsCard assetId cert) : t.IsCard assetId cert := by
  obtain ⟨a, ha, rfl, rfl⟩ := hs
  exact h.cards a ha

/-- The save of an asset, whose card is not changed. -/
theorem keepsCards_replace {as : List VaultAsset} (has : Distinct as) {x : VaultAsset}
    (hx : ∃ a ∈ as, a.id = x.id ∧ a.externalCertNumber = x.externalCertNumber) :
    KeepsCards as (as.map fun a => if a.id = x.id then x else a) := by
  obtain ⟨old, hold, hid, hcert⟩ := hx
  have hmem : ∀ a ∈ as.map (fun a => if a.id = x.id then x else a),
      a = x ∨ (a ∈ as ∧ a.id ≠ x.id) := by
    intro a ha
    obtain ⟨b, hb, rfl⟩ := List.mem_map.mp ha
    by_cases hbx : b.id = x.id
    · exact .inl (if_pos hbx)
    · rw [if_neg hbx]
      exact .inr ⟨hb, hbx⟩
  constructor
  · intro a ha a' ha' hsame
    rcases hmem a ha with rfl | ⟨hold, hne⟩
    · rcases hmem a' ha' with rfl | ⟨-, hne'⟩
      · rfl
      · exact absurd hsame.symm hne'
    · rcases hmem a' ha' with rfl | ⟨hold', -⟩
      · exact absurd hsame hne
      · exact has a hold a' hold' hsame
  · intro a ha
    by_cases hax : a.id = x.id
    · obtain rfl := has a ha old hold (hax.trans hid.symm)
      refine ⟨x, List.mem_map.mpr ⟨a, ha, if_pos hax⟩, hid.symm, hcert.symm⟩
    · exact ⟨a, List.mem_map.mpr ⟨a, ha, if_neg hax⟩, rfl, rfl⟩

/-- The asset of a deposit is that of the card. -/
theorem depositAsset_spec {xs : Cycles.Draws} {keccak : JsStr → JsStr}
    {params : Cycles.DepositParams}
    {cert : JsStr} {T : Tables} (hT : Distinct T.assets) {r : VaultAsset × Tables}
    (h : Cycles.depositAsset xs keccak params cert T = .ok r) :
    KeepsCards T.assets r.2.assets ∧ r.2.tokens = T.tokens ∧
      ∃ a ∈ r.2.assets, a.id = r.1.id ∧ a.externalCertNumber = cert := by
  have hsame : KeepsCards T.assets T.assets := ⟨hT, fun a ha => ⟨a, ha, rfl, rfl⟩⟩
  unfold Cycles.depositAsset at h
  cases hasset : T.assetOf cert with
  | none =>
    rw [hasset] at h
    dsimp only at h
    split_ifs at h with hnew
    obtain rfl := Except.ok.inj h
    have hfresh : ∀ a ∈ T.assets, a.id ≠ xs 0 .uuid := by
      intro a ha hid
      simp only [Stmt.changes, Bool.not_eq_true', List.any_eq_false] at hnew
      have hclash := hnew a ha
      simp [hid] at hclash
    refine ⟨⟨fun a ha a' ha' hid => apart_append hT hfresh ha ha' hid, fun a ha => ?_⟩, rfl, ?_⟩
    · exact ⟨a, List.mem_append_left _ ha, rfl, rfl⟩
    · exact ⟨_, List.mem_append_right _ (List.mem_singleton_self _), rfl, rfl⟩
  | some asset =>
    have hmem : asset ∈ T.assets := List.mem_of_find?_eq_some hasset
    have hcert : asset.externalCertNumber = cert := by simpa using List.find?_some hasset
    rw [hasset] at h
    dsimp only at h
    split_ifs at h
    · obtain rfl := Except.ok.inj h
      have hkeeps := keepsCards_replace hT (x := { asset with
        displayName := Cycles.trimmed params.displayName }) ⟨asset, hmem, rfl, rfl⟩
      exact ⟨hkeeps, rfl, _, List.mem_map.mpr ⟨asset, hmem, if_pos rfl⟩, rfl, hcert⟩
    · obtain rfl := Except.ok.inj h
      exact ⟨hsame, rfl, asset, hmem, rfl, hcert⟩

theorem depositCycle_spec {xs : Cycles.Draws} {chainId : ℕ} {cert : JsStr} {asset : VaultAsset}
    {T : Tables} {r : VaultCycle × Tables}
    (h : Cycles.depositCycle xs chainId cert asset T = .ok r) :
    r.2 = { T with cycles := T.cycles.save r.1 } ∧ T.cycles.get r.1.id = none ∧
      Cycles.rejectsCycle T r.1 = false ∧ r.1.vaultAssetId = asset.id ∧ r.1.chainId = chainId ∧
      r.1.mintAttempt = none ∧ r.1.status = .depositVerified := by
  obtain ⟨-, hfree, hrejects⟩ := Cycles.cycles_depositCycle h
  unfold Cycles.depositCycle at h
  cases hopen : T.openCycleOf asset.id chainId with
  | some openCycle =>
    rw [hopen] at h
    cases h
  | none =>
    rw [hopen] at h
    dsimp only at h
    split_ifs at h
    obtain rfl := Except.ok.inj h
    exact ⟨rfl, hfree, hrejects, rfl, rfl, rfl, rfl⟩

/-- What a deposit adds: a new cycle of the card, which no index rejects. -/
structure Deposits (params : Cycles.DepositParams) (T T' : Tables) (cycle : VaultCycle) :
    Prop where
  cycles : T'.cycles = T.cycles.save cycle
  fresh : T.cycles.get cycle.id = none
  accepted : Cycles.rejectsCycle T cycle = false
  tokens : T'.tokens = T.tokens
  assets : KeepsCards T.assets T'.assets
  card : ∃ a ∈ T'.assets, a.id = cycle.vaultAssetId ∧
    a.externalCertNumber = normalizeCert params.certNumber
  chain : cycle.chainId = params.chainId
  blank : cycle.mintAttempt = none ∧ cycle.status = .depositVerified

theorem deposits_of_reserve {xs : Cycles.Draws} {keccak : JsStr → JsStr}
    {params : Cycles.DepositParams} {T : Tables} (hT : Distinct T.assets)
    {r : (VaultAsset × VaultCycle) × Tables}
    (h : Cycles.reserveCycleForDeposit xs keccak params T = .ok r) :
    Deposits params T r.2 r.1.2 := by
  unfold Cycles.reserveCycleForDeposit at h
  split_ifs at h
  cases hdeposit : Cycles.depositAsset xs keccak params (normalizeCert params.certNumber)
      T with
  | error e =>
    rw [hdeposit] at h
    cases h
  | ok deposit =>
    have hcycles : deposit.2.cycles = T.cycles := Cycles.cycles_depositAsset hdeposit
    obtain ⟨hassets, htokens, hcard⟩ := depositAsset_spec hT hdeposit
    rw [hdeposit] at h
    change ((Cycles.depositCycle xs params.chainId (normalizeCert params.certNumber)
      deposit.1 deposit.2).bind fun opened => .ok ((deposit.1, opened.1), opened.2)) = .ok r at h
    cases hopened : Cycles.depositCycle xs params.chainId (normalizeCert params.certNumber)
        deposit.1 deposit.2 with
    | error e =>
      rw [hopened] at h
      cases h
    | ok opened =>
      obtain ⟨htables, hfree, hrejects, hasset, hchain, hblank, hstatus⟩ :=
        depositCycle_spec hopened
      rw [hopened] at h
      obtain rfl : ((deposit.1, opened.1), opened.2) = r := Except.ok.inj h
      rw [hcycles] at hfree
      rw [Cycles.rejectsCycle, hcycles] at hrejects
      refine ⟨?_, hfree, hrejects, ?_, ?_, ?_, hchain, hblank, hstatus⟩
      · rw [htables, ← hcycles]
      · rw [htables]
        exact htokens
      · rw [htables]
        exact hassets
      · rw [htables, hasset]
        exact hcard

theorem later_save {cycle : VaultCycle} (hfit : Fit cfg s cycle) :
    Later kept s { s with tables := { s.tables with cycles := s.tables.cycles.save cycle } } := by
  have hrefl : Later kept s s := .refl s
  exact { hrefl with
    holds := by
      rintro _ _ _ ⟨c, hc, rfl, rfl, rfl⟩
      by_cases hid : c.id = cycle.id
      · obtain ⟨c', hc', hid', hasset, hchain⟩ := hfit.held
        obtain rfl := Db.Table.key_inj hc hc' (hid.trans hid'.symm)
        exact ⟨cycle, Db.Table.mem_save.mpr (.inl rfl), hid.symm, hasset.symm, hchain.symm⟩
      · exact ⟨c, Db.Table.mem_save.mpr (.inr ⟨hc, hid⟩), rfl, rfl, rfl⟩
    closed := by
      rintro k - - _ ⟨c, hc, rfl, hasset, hchain⟩
      rcases Db.Table.mem_save.mp hc with rfl | ⟨hold, -⟩
      · rw [← hasset, ← hchain]
        exact hfit.held
      · exact ⟨c, hold, rfl, hasset, hchain⟩ }

theorem sound_save (hs : Sound cfg kept s) {cycle : VaultCycle} (hfit : Fit cfg s cycle)
    (hfree : ∀ k ∈ kept, k.id ≠ cycle.id) :
    Sound cfg kept { s with tables := { s.tables with cycles := s.tables.cycles.save cycle } } := by
  have hl : Later kept s { s with tables := { s.tables with
      cycles := s.tables.cycles.save cycle } } := later_save hfit
  refine ⟨hs.assets, fun r hr => hl.opened hs hr, hs.single, hs.sent, fun c hc => ?_,
    fun token htoken cycleId hid => hl.linked hs htoken hid,
    fun k hk => ⟨?_, (hs.kept k hk).2⟩⟩
  · rcases Db.Table.mem_save.mp hc with rfl | ⟨hold, -⟩
    · exact hl.fit hfit
    · exact hl.fit (hs.fit c hold)
  · exact Db.Table.mem_save.mpr (.inr ⟨(hs.kept k hk).1, hfree k hk⟩)

theorem later_assets {assets : List VaultAsset} (h : KeepsCards s.tables.assets assets) :
    Later kept s { s with tables := { s.tables with assets := assets } } :=
  { Later.refl s with cards := fun _ _ hs => h.isCard hs }

theorem sound_assets (hs : Sound cfg kept s) {assets : List VaultAsset}
    (h : KeepsCards s.tables.assets assets) :
    Sound cfg kept { s with tables := { s.tables with assets := assets } } := by
  have hl : Later kept s { s with tables := { s.tables with assets := assets } } := later_assets h
  exact ⟨h.distinct, fun r hr => hl.opened hs hr, hs.single, hs.sent,
    fun c hc => hl.fit (hs.fit c hc), fun token htoken cycleId hid => hl.linked hs htoken hid,
    hs.kept⟩

/-- The row that an upsert leaves says what its values say. -/
theorem LinkedTo.upserted {row old : RwaToken} {cycleId : JsStr} {req : Request}
    (h : LinkedTo cfg s row cycleId req) (hkey : old.key = row.key) :
    LinkedTo cfg s (Cycles.upserted row old) cycleId req := by
  obtain ⟨hcontract, hid⟩ := Prod.mk.inj hkey
  refine ⟨h.reserved, ?_, ?_, h.cert, h.vaultRef, h.uri, h.owner, h.policy⟩
  · exact h.contract.trans (congrArg Except.ok hcontract.symm)
  · obtain ⟨n, hn, hminted⟩ := h.minted
    exact ⟨n, hid.trans hn, hminted⟩

theorem exists_key_upsertToken (row : RwaToken) (tokens : List RwaToken) :
    (∀ token ∈ tokens, ∃ token' ∈ Cycles.upsertToken row tokens, token'.key = token.key) ∧
      ∃ token ∈ Cycles.upsertToken row tokens, token.key = row.key :=
  have hcolumns : ∀ old : RwaToken, old.key = row.key → (Cycles.upserted row old).key = row.key :=
    fun _ hkey => hkey
  Db.Table.exists_key_upsertRows hcolumns

theorem later_upsert (row : RwaToken) :
    Later kept s { s with tables := { s.tables with
      tokens := Cycles.upsertToken row s.tables.tokens } } :=
  { Later.refl s with tokens := (exists_key_upsertToken row s.tables.tokens).1 }

theorem sound_upsert (hs : Sound cfg kept s) {row : RwaToken} {cycleId : JsStr} {req : Request}
    (hid : row.vaultCycleId = some cycleId) (hlinked : LinkedTo cfg s row cycleId req)
    (hfree : ∀ k ∈ kept, k.id ≠ cycleId) :
    Sound cfg kept { s with tables := { s.tables with
      tokens := Cycles.upsertToken row s.tables.tokens } } := by
  have hl : Later kept s { s with tables := { s.tables with
      tokens := Cycles.upsertToken row s.tables.tokens } } := later_upsert row
  have hrow : ∀ token ∈ Cycles.upsertToken row s.tables.tokens, token ∈ s.tables.tokens ∨
      (token.vaultCycleId = some cycleId ∧ LinkedTo cfg s token cycleId req) := by
    intro token htoken
    rcases Db.Table.mem_upsertRows htoken with hold | rfl | ⟨old, -, hkey, rfl⟩
    · exact .inl hold
    · exact .inr ⟨hid, hlinked⟩
    · exact .inr ⟨hid, hlinked.upserted hkey⟩
  refine ⟨hs.assets, hs.opened, hs.single, hs.sent, fun c hc => hl.fit (hs.fit c hc),
    fun token htoken id htokenid => ?_, fun k hk => ⟨(hs.kept k hk).1, fun token htoken => ?_⟩⟩
  · rcases hrow token htoken with hold | ⟨hnew, hnewlinked⟩
    · exact hl.linked hs hold htokenid
    · obtain rfl := Option.some.inj (hnew.symm.trans htokenid)
      exact ⟨req, hl.linkedTo hnewlinked⟩
  · rcases hrow token htoken with hold | ⟨hnew, -⟩
    · exact (hs.kept k hk).2 token hold
    · intro hk'
      exact hfree k hk (Option.some.inj (hk'.symm.trans hnew))

/-- A new cycle, reserved for a request. -/
theorem sound_reserve (hs : Sound cfg kept s) {req : Request} {T : Tables} {cycle : VaultCycle}
    (h : Deposits req.deposit s.tables T cycle) :
    Sound cfg kept { s with tables := T, reserved := s.reserved ++ [⟨cycle.id, req⟩] } ∧
      Later kept s { s with tables := T, reserved := s.reserved ++ [⟨cycle.id, req⟩] } ∧
      ∀ k ∈ kept, k.id ≠ cycle.id := by
  have hnew : ∀ c ∈ s.tables.cycles.rows, c.id ≠ cycle.id := Db.Table.get_eq_none.mp h.fresh
  have hfree : ∀ k ∈ kept, k.id ≠ cycle.id := fun k hk => hnew k (hs.kept k hk).1
  have hmem : ∀ c, c ∈ T.cycles.rows ↔ c = cycle ∨ c ∈ s.tables.cycles.rows := by
    intro c
    rw [h.cycles, Db.Table.mem_save]
    exact or_congr_right ⟨And.left, fun hc => ⟨hc, hnew c hc⟩⟩
  let t : Store := { s with tables := T, reserved := s.reserved ++ [⟨cycle.id, req⟩] }
  have hl : Later kept s t := by
    refine ⟨?_, fun _ _ hc => h.assets.isCard (t := t) hc, List.subset_append_left _ _,
      fun _ he => he, fun _ hm => hm, fun token htoken => ⟨token, ?_, rfl⟩, ?_⟩
    · rintro _ _ _ ⟨c, hc, rfl, rfl, rfl⟩
      exact ⟨c, (hmem c).mpr (.inr hc), rfl, rfl, rfl⟩
    · exact h.tokens ▸ htoken
    · rintro k hk hopen _ ⟨c, hc, rfl, hasset, hchain⟩
      rcases (hmem c).mp hc with rfl | hold
      · -- the database has one open cycle of a card on a chain
        have hclash := List.any_eq_false.mp h.accepted k (hs.kept k hk).1
        have hopen' : Cycles.isOpen c = true := by simp [Cycles.isOpen, h.blank.2]
        simp [Cycles.clash, hfree k hk, hasset, hchain, hopen, hopen'] at hclash
      · exact ⟨c, hold, rfl, hasset, hchain⟩
  have hheld : t.Holds cycle.id cycle.vaultAssetId req.chainId :=
    ⟨cycle, (hmem cycle).mpr (.inl rfl), rfl, rfl, h.chain⟩
  refine ⟨⟨h.assets.distinct, fun r hr => ?_, fun r hr r' hr' hid => ?_, fun e he => ?_,
    fun c hc => ?_, fun token htoken id hid => ?_, fun k hk => ?_⟩, hl, hfree⟩
  · rcases List.mem_append.mp hr with hold | hlast
    · exact hl.opened hs hold
    · obtain rfl := List.mem_singleton.mp hlast
      exact ⟨cycle.vaultAssetId, hheld, h.card⟩
  · -- the cycle of an earlier reservation is stored, so it is another one
    have hother : ∀ r ∈ s.reserved, r.cycleId ≠ cycle.id := by
      intro r hr
      obtain ⟨assetId, ⟨c, hc, hcid, -, -⟩, -⟩ := hs.opened r hr
      exact hcid ▸ hnew c hc
    exact apart_append hs.single hother hr hr' hid
  · obtain ⟨req', hreq, hrest⟩ := hs.sent e he
    exact ⟨req', hl.reserved hreq, hrest⟩
  · rcases (hmem c).mp hc with rfl | hold
    · refine ⟨⟨c, hc, rfl, rfl, rfl⟩, fun a ha => ?_⟩
      rw [h.blank.1] at ha
      cases ha
    · exact hl.fit (hs.fit c hold)
  · rw [h.tokens] at htoken
    exact hl.linked hs htoken hid
  · refine ⟨(hmem k).mpr (.inr (hs.kept k hk).1), ?_⟩
    rw [h.tokens]
    exact (hs.kept k hk).2

/-- A cycle is on the chain of the request that reserved it. -/
theorem chain_of_reserved (hs : Sound cfg kept s) {c : VaultCycle}
    (hc : c ∈ s.tables.cycles.rows) {req : Request} (hreq : s.ReservedFor c.id req) :
    c.chainId = req.chainId := by
  obtain ⟨assetId, hheld, -⟩ := hs.opened _ hreq
  exact ((hs.fit c hc).held.unique hheld).2

theorem get_spec (hs : Sound cfg kept s) {id : JsStr} {c : VaultCycle}
    (h : s.tables.cycles.get id = some c) : c.id = id ∧ Fit cfg s c ∧
      ∀ req, s.ReservedFor id req → c.chainId = req.chainId := by
  have hmem := Db.Table.mem_of_get h
  obtain rfl := Db.Table.get_key h
  exact ⟨rfl, hs.fit c hmem, fun req hreq => chain_of_reserved hs hmem hreq⟩

theorem openCycleOf_spec (hs : Sound cfg kept s) {assetId : JsStr} {chainId : ℕ} {c : VaultCycle}
    (h : s.tables.openCycleOf assetId chainId = some c) :
    Fit cfg s c ∧ ∀ k ∈ kept, k.id = c.id → k.status = c.status := by
  have hmem : c ∈ s.tables.cycles.rows := List.mem_of_find?_eq_some h
  refine ⟨hs.fit c hmem, fun k hk hid => ?_⟩
  rw [Db.Table.key_inj (hs.kept k hk).1 hmem hid]

theorem mem_minting {x : Answer} {limit : ℕ} {T : Tables} {c : VaultCycle}
    (h : c ∈ minting x limit T) : c ∈ T.cycles.rows ∧ c.status = .minting := by
  have hsorted := List.mem_of_mem_take h
  rw [List.mem_insertionSort] at hsorted
  have hfound := Db.Table.mem_find.mp hsorted
  exact ⟨hfound.1, of_decide_eq_true hfound.2⟩

/-- A step of the vault service. -/
theorem table_spec (hs : Sound cfg kept s) (xs : Cycles.Draws) {c : Cycles.Cmd}
    (hpre : Pre cfg kept (.table c) s) :
    let ended := Cycles.exec cfg.env cfg.keccak s.tables xs c
    let t : Store := { s with tables := ended.2 }
    Sound cfg kept t ∧ Later kept s t ∧ Post cfg kept (.table c) ended.1 t := by
  cases c with
  | findCycle id => exact ⟨hs, .refl s, fun c hc => get_spec hs hc⟩
  | findAsset id =>
    refine ⟨hs, .refl s, fun a ha => ?_⟩
    exact ⟨a, List.mem_of_find?_eq_some ha, rfl, rfl⟩
  | saveCycle loaded cycle =>
    obtain ⟨hfit, hfree⟩ := hpre
    unfold Cycles.exec
    dsimp only
    split_ifs
    · exact ⟨hs, .refl s, trivial⟩
    · exact ⟨sound_save hs hfit hfree, later_save hfit, trivial⟩
  | saveAsset asset =>
    have hkeeps := keepsCards_replace hs.assets hpre
    exact ⟨sound_assets hs hkeeps, later_assets hkeeps, trivial⟩
  | upsertToken row =>
    obtain ⟨cycleId, req, hid, hlinked, hfree⟩ := hpre
    exact ⟨sound_upsert hs hid hlinked hfree, later_upsert row,
      (exists_key_upsertToken row s.tables.tokens).2⟩
  | _ => exact hpre.elim

theorem run_spec (hs : Sound cfg kept s) {x : Answer} {c : Cmd} (hpre : Pre cfg kept c s) :
    Sound cfg kept (run cfg s x c).2 ∧ Later kept s (run cfg s x c).2 ∧
      ∀ a, (run cfg s x c).1 = .ok a → Post cfg kept c a (run cfg s x c).2 := by
  cases c with
  | table c =>
    obtain ⟨hsound, hlater, hpost⟩ := table_spec hs x.draws hpre
    exact ⟨hsound, hlater, fun a ha => Except.ok.inj ha ▸ hpost⟩
  | reserve req =>
    simp only [run, reserve]
    split
    · rename_i r hr
      obtain ⟨hsound, hlater, hfree⟩ := sound_reserve hs (deposits_of_reserve hs.assets hr)
      refine ⟨hsound, hlater, fun a ha r' hr' => ?_⟩
      obtain rfl := Except.ok.inj ha
      obtain rfl := Except.ok.inj hr'
      exact ⟨List.mem_append_right _ (List.mem_singleton_self _), hfree⟩
    · refine ⟨hs, .refl s, fun a ha r' hr' => ?_⟩
      obtain rfl := Except.ok.inj ha
      cases hr'
  | findOpenCycle assetId chainId =>
    refine ⟨hs, .refl s, fun a ha c hc => ?_⟩
    obtain rfl := Except.ok.inj ha
    obtain ⟨c', hc', rfl⟩ := Option.map_eq_some_iff.mp hc
    exact openCycleOf_spec hs hc'
  | findMinting limit =>
    refine ⟨hs, .refl s, fun a ha c hc => ?_⟩
    obtain rfl := Except.ok.inj ha
    obtain ⟨c', hc', rfl⟩ := List.mem_map.mp hc
    obtain ⟨hmem, hminting⟩ := mem_minting hc'
    refine ⟨hs.fit c' hmem, fun k hk hid => ?_⟩
    rw [Db.Table.key_inj (hs.kept k hk).1 hmem hid]
    exact hminting
  | mint cycleId chainId recipient =>
    have hrefl : Later kept s s := .refl s
    have hlater : Later kept s { s with
        sent := s.sent ++ [⟨cycleId, chainId, recipient, x.text⟩] } :=
      { hrefl with sent := List.subset_append_left _ _ }
    refine ⟨hs.of_tables hlater rfl rfl fun e he => ?_, hlater, fun a ha => ?_⟩
    · rcases List.mem_append.mp he with hold | hnew
      · exact hs.sent e hold
      · obtain rfl := List.mem_singleton.mp hnew
        exact hpre
    · obtain rfl := Except.ok.inj ha
      exact List.mem_append_right _ (List.mem_singleton_self _)
  | wait chainId txHash | getTransactionReceipt chainId txHash =>
    have hrefl : Later kept s s := .refl s
    have hlater : Later kept s { s with mined := s.mined ++ [⟨chainId, txHash, x.receipt⟩] } :=
      { hrefl with mined := List.subset_append_left _ _ }
    refine ⟨hs.of_tables hlater rfl rfl hs.sent, hlater, fun a ha => ?_⟩
    obtain rfl := Except.ok.inj ha
    exact List.mem_append_right _ (List.mem_singleton_self _)
  | _ => exact ⟨hs, .refl s, fun _ _ => trivial⟩

/-- A call that fails leaves the store as it was or as the call makes it. -/
theorem exec_spec (hs : Sound cfg kept s) {i : ℕ} {x : Answer} {c : Cmd} (hpre : Pre cfg kept c s)
    {r : Res c} (h : exec cfg i s x c = some (r, t)) :
    Sound cfg kept t ∧ Later kept s t ∧ ∀ a, r = .ok a → Post cfg kept c a t := by
  obtain ⟨hsound, hlater, hpost⟩ := run_spec hs (x := x) hpre
  unfold exec at h
  split at h
  · obtain ⟨rfl, rfl⟩ := Prod.mk.inj (Option.some.inj h)
    exact ⟨hsound, hlater, hpost⟩
  · obtain ⟨rfl, rfl⟩ := Prod.mk.inj (Option.some.inj h)
    exact ⟨hs, .refl s, fun a ha => by cases ha⟩
  · obtain ⟨rfl, rfl⟩ := Prod.mk.inj (Option.some.inj h)
    exact ⟨hsound, hlater, fun a ha => by cases ha⟩

end Steps

section Rules
variable (cfg : Config) (kept : List VaultCycle)

def contract : Contract Store := .ofPreorder (Sound cfg kept) (Later kept) .refl fun _ _ _ => .trans

abbrev Does {α : Type} (K : Store → Prop) (p : M α) (F : α → Store → Prop) : Prop :=
  Triple (exec cfg) anyStep (contract cfg kept) K p F

variable {cfg kept} {α β : Type} {K : Store → Prop} {F : α → Store → Prop}
  {F₂ : β → Store → Prop} {c : Cmd}

theorem persistent_of_later (h : ∀ s t, Later kept s t → K s → K t) :
    (contract cfg kept).Persistent K := fun _ s t hst hs => h s t (hst.elim id id) hs

theorem persistent_true : (contract cfg kept).Persistent fun _ => True := persistent_const True

theorem does_perform (hK : (contract cfg kept).Persistent K) (hpre : ∀ s, K s → Pre cfg kept c s) :
    Does cfg kept K (perform c) (Post cfg kept c) := by
  apply triple_call hK
  intro i t ht hKt _ x r u hu
  obtain ⟨hsound, hlater, hpost⟩ := exec_spec ht (hpre t hKt) hu
  exact ⟨hsound, hlater, hpost⟩

/-- A command that may be issued anywhere, and whose answer is of no use. -/
theorem does_silent (hK : (contract cfg kept).Persistent K) (hpre : ∀ s, Pre cfg kept c s) :
    Does cfg kept K (perform c) fun _ => K :=
  triple_conseq (triple_frame hK (does_perform hK fun s _ => hpre s)) (fun _ hs => ⟨hs, hs⟩)
    fun _ _ hF => hF.2

theorem does_tables_bind {p : Cycles.M α} {f : α → Cycles.M β} (hp : Does cfg kept K (tables p) F)
    (hf : ∀ a, Does cfg kept (F a) (tables (f a)) F₂) : Does cfg kept K (tables (p >>= f)) F₂ := by
  rw [tables_bind]
  exact triple_bind hp hf

theorem does_tables_seq {p : Cycles.M α} {f : α → Cycles.M β}
    (hK : (contract cfg kept).Persistent K) (hp : Does cfg kept K (tables p) F)
    (hf : ∀ a, Does cfg kept (fun s => F a s ∧ K s) (tables (f a)) F₂) :
    Does cfg kept K (tables (p >>= f)) F₂ := by
  rw [tables_bind]
  exact triple_seq hK hp hf

theorem does_table {c : Cycles.Cmd} (hK : (contract cfg kept).Persistent K)
    (hpre : ∀ s, K s → Pre cfg kept (.table c) s) :
    Does cfg kept K (tables (Cycles.perform c)) (Post cfg kept (.table c)) := by
  rw [tables_perform]
  exact does_perform hK hpre

theorem does_tables_pure {a : α} (h : ∀ s, K s → F a s) :
    Does cfg kept K (tables (pure a)) F := triple_ok h

theorem does_tables_ret {r : Except HttpError α} (h : ∀ a, r = .ok a → ∀ s, K s → F a s) :
    Does cfg kept K (tables (.ret r)) F := by
  cases r with
  | ok a => exact triple_ok (h a rfl)
  | error e => exact triple_error

theorem does_tables_throwIf {b : Bool} {e : HttpError} :
    Does cfg kept K (tables (Prog.throwIf b e)) fun _ s => b = false ∧ K s := by
  rw [tables_throwIf]
  exact triple_throwIf (G := fun s => b = false ∧ K s) fun hb _ hs => ⟨hb, hs⟩

end Rules

section Cycles
variable {cycleId : JsStr} {req : Request} {hash : JsStr}

theorem persistent_reserved : (contract cfg kept).Persistent fun s => s.ReservedFor cycleId req :=
  persistent_of_later fun _ _ h hs => h.reserved hs

theorem persistent_fit {c : VaultCycle} : (contract cfg kept).Persistent fun s => Fit cfg s c :=
  persistent_of_later fun _ _ h => h.fit

theorem saveCycle_does {K : Store → Prop} {loaded cycle : VaultCycle}
    (hK : ∀ s, K s → Fit cfg s cycle ∧ ∀ k ∈ kept, k.id ≠ cycle.id) :
    Does cfg kept K (tables (Cycles.saveCycle loaded cycle)) fun _ _ => True := by
  have hpers : (contract cfg kept).Persistent fun s =>
      Fit cfg s cycle ∧ ∀ k ∈ kept, k.id ≠ cycle.id :=
    persistent_and persistent_fit (persistent_const _)
  refine triple_conseq (F := fun _ _ => True) ?_ hK fun _ _ h => h
  apply does_tables_bind
  · exact does_table hpers fun s hs => hs
  · intro saved
    exact does_tables_ret fun _ _ _ _ => trivial

/-- What a function of the vault service has found of a cycle. -/
def Found (cfg : Config) (id : JsStr) (K : Store → Prop) (c : VaultCycle) (s : Store) : Prop :=
  c.id = id ∧ Fit cfg s c ∧ (∀ req, s.ReservedFor id req → c.chainId = req.chainId) ∧ K s

theorem findCycle_does {K : Store → Prop} (hK : (contract cfg kept).Persistent K) {id : JsStr}
    {α : Type} {f : Option VaultCycle → Cycles.M α} {F : α → Store → Prop}
    (hnone : Does cfg kept K (tables (f none)) F)
    (hsome : ∀ c, Does cfg kept (Found cfg id K c) (tables (f (some c))) F) :
    Does cfg kept K (tables (Cycles.perform (.findCycle id) >>= f)) F := by
  apply does_tables_seq hK
  · exact does_table hK fun _ _ => trivial
  intro found
  cases found with
  | none => exact triple_conseq hnone (fun _ hs => hs.2) fun _ _ h => h
  | some c =>
    refine triple_conseq (hsome c) (fun s hs => ?_) fun _ _ h => h
    obtain ⟨hid, hfit, hchain⟩ := hs.1 c rfl
    exact ⟨hid, hfit, hchain, hs.2⟩

theorem findCycleOrFail_does {K : Store → Prop} (hK : (contract cfg kept).Persistent K)
    {id : JsStr} :
    Does cfg kept K (tables (Cycles.findCycleOrFail id)) (Found cfg id K) := by
  apply findCycle_does hK
  · exact triple_error
  · exact fun c => triple_ok fun _ hs => hs

/-- A cycle without an attempt. -/
theorem Fit.blank {c c' : VaultCycle} (h : Fit cfg s c) (hid : c'.id = c.id)
    (hasset : c'.vaultAssetId = c.vaultAssetId) (hchain : c'.chainId = c.chainId)
    (hblank : c'.mintAttempt = none) : Fit cfg s c' := by
  refine ⟨?_, fun a ha => ?_⟩
  · rw [hid, hasset, hchain]
    exact h.held
  · rw [hblank] at ha
    cases ha

theorem cancelCycle_does {K : Store → Prop} (hfree : ∀ k ∈ kept, k.id ≠ cycleId) :
    Does cfg kept K (tables (Cycles.cancelCycle cycleId)) fun _ _ => True := by
  refine triple_conseq (K := fun _ => True) ?_ (fun _ _ => trivial) fun _ _ h => h
  apply findCycle_does persistent_true
  · exact does_tables_pure fun _ _ => trivial
  · intro c
    dsimp only
    split_ifs
    · exact does_tables_pure fun _ _ => trivial
    · apply saveCycle_does
      rintro s ⟨rfl, hfit, -, -⟩
      exact ⟨hfit.blank rfl rfl rfl rfl, hfree⟩

theorem Store.Names.lowered {e : Sent} (h : s.Names e hash) : s.Names e (lower (trim hash)) := by
  have hsame : lower (trim (lower (trim hash))) = lower (trim hash) := by
    rw [← lower_trim, trim_trim, lower_lower]
  unfold Store.Names
  rw [hsame]
  exact h

def Noted (cycleId : JsStr) (req : Request) (tokenId : Option JsStr) (hash : JsStr) (s : Store) :
    Prop :=
  s.ReservedFor cycleId req ∧ s.SubmittedFor cycleId req.chainId hash ∧
    ∀ id, tokenId = some id → ∃ n, id = ofNat n ∧ s.MintedFor cycleId req.chainId n

theorem persistent_noted {tokenId : Option JsStr} :
    (contract cfg kept).Persistent (Noted cycleId req tokenId hash) := by
  apply persistent_of_later
  rintro s t h ⟨hreq, hsubmitted, hminted⟩
  refine ⟨h.reserved hreq, h.submittedFor hsubmitted, fun id hid => ?_⟩
  obtain ⟨n, hn, hmint⟩ := hminted id hid
  exact ⟨n, hn, h.mintedFor hmint⟩

theorem noteMintAttemptTx_does (req : Request) (hfree : ∀ k ∈ kept, k.id ≠ cycleId)
    (tokenId : Option JsStr) :
    Does cfg kept (Noted cycleId req tokenId hash)
      (tables (Cycles.noteMintAttemptTx cycleId tokenId hash)) fun _ _ => True := by
  apply findCycle_does persistent_noted
  · exact does_tables_pure fun _ _ => trivial
  · intro c
    dsimp only
    cases hattempt : c.mintAttempt with
    | none => exact does_tables_pure fun _ _ => trivial
    | some attempt =>
      dsimp only
      by_cases hminting : c.status ≠ .minting
      · rw [if_pos hminting]
        exact does_tables_pure fun _ _ => trivial
      · rw [if_neg hminting]
        apply saveCycle_does
        rintro s ⟨rfl, hfit, hchain, hreq, ⟨e, he, heid, hechain, hnames⟩, hminted⟩
        have hsame : c.chainId = req.chainId := hchain req hreq
        refine ⟨⟨hfit.held, fun a ha => ?_⟩, hfree⟩
        obtain rfl := Option.some.inj ha
        have hold := hfit.attempt attempt hattempt
        obtain ⟨req', hreq', hchain', hintends⟩ := hold.intends
        refine ⟨⟨req', hreq', hchain', ⟨hintends.uri, hintends.cert, hintends.owner,
          hintends.policy, hintends.given⟩⟩, fun h hh => ?_, fun id hid => ?_⟩
        · obtain rfl := Option.some.inj hh
          exact ⟨e, he, heid, hechain.trans hsame.symm, hnames.lowered⟩
        · dsimp only at hid
          split_ifs at hid with htoken
          · obtain ⟨x, hx, rfl⟩ := Option.map_eq_some_iff.mp hid
            obtain ⟨n, rfl, hmint⟩ := hminted x hx
            exact ⟨n, trim_of_isDigits (isDigits_ofNat n), hsame ▸ hmint⟩
          · exact hold.minted id hid

theorem owner_of_wallet {wallet : JsStr} (hwallet : cfg.custodyWallet = .ok wallet)
    (req : Request) : cfg.owner req = lower (trim (req.mintToAddress wallet)) := by
  rw [Config.owner, hwallet]
  rfl

theorem beginMintAttempt_does (hfree : ∀ k ∈ kept, k.id ≠ cycleId) {wallet : JsStr}
    (hwallet : cfg.custodyWallet = .ok wallet) (partnerId : Option JsStr) :
    Does cfg kept (fun s => s.ReservedFor cycleId req)
      (tables (Cycles.beginMintAttempt cycleId
        (attemptOf req partnerId (req.mintToAddress wallet))))
      fun _ _ => cfg.owner req ≠ [] := by
  have howner : cfg.owner req = lower (trim (req.mintToAddress wallet)) :=
    owner_of_wallet hwallet req
  apply does_tables_bind (findCycleOrFail_does persistent_reserved)
  intro c
  apply does_tables_bind does_tables_throwIf
  intro _
  apply does_tables_bind does_tables_throwIf
  intro _ i s hs
  have hgiven := hs.1
  simp only [Bool.or_eq_false_iff, List.isEmpty_eq_false_iff] at hgiven
  have hsave : Does cfg kept (Found cfg cycleId (fun s => s.ReservedFor cycleId req) c)
      (tables (Cycles.saveCycle c { c with
        status := .minting
        mintAttempt := some (Cycles.storedAttempt
          (attemptOf req partnerId (req.mintToAddress wallet))) })) fun _ _ => True := by
    apply saveCycle_does
    rintro s ⟨rfl, hfit, hchain, hreq⟩
    refine ⟨⟨hfit.held, fun a ha => ?_⟩, hfree⟩
    obtain rfl := Option.some.inj ha
    refine ⟨⟨req, hreq, (hchain req hreq).symm, trim_trim _, rfl, howner.symm, rfl, hgiven.1.1,
      hgiven.2⟩, fun h hh => (by cases hh), fun id hid => by cases hid⟩
  refine triple_conseq hsave (fun _ hs => hs) (fun _ _ _ => ?_) i s hs.2.2
  rw [howner]
  exact hgiven.2

def Recordable (cfg : Config) (req : Request) (r : Cycles.MintResult) (s : Store) : Prop :=
  LinkedTo cfg s (r.token (cfg.keccak (normalizeCert r.certNumber))) r.cycleId req

theorem persistent_recordable {r : Cycles.MintResult} :
    (contract cfg kept).Persistent (Recordable cfg req r) :=
  persistent_of_later fun _ _ h hs => h.linkedTo hs

theorem nameAsset_does {K : Store → Prop} (hK : (contract cfg kept).Persistent K) (assetId : JsStr)
    (displayName : Option JsStr) :
    Does cfg kept K (tables (Cycles.nameAsset assetId displayName)) fun _ => K := by
  cases displayName with
  | none => exact does_tables_pure fun _ hs => hs
  | some displayName =>
    apply does_tables_seq hK
    · exact does_table hK fun _ _ => trivial
    intro found
    cases found with
    | none => exact does_tables_pure fun _ hs => hs.2
    | some asset =>
      dsimp only
      split_ifs
      · exact does_tables_pure fun _ hs => hs.2
      · have hpers : (contract cfg kept).Persistent fun s =>
            s.IsCard asset.id asset.externalCertNumber ∧ K s :=
          persistent_and (persistent_of_later fun _ _ h hs => h.cards _ _ hs) hK
        rw [tables_perform]
        refine triple_conseq (triple_frame hpers (does_perform hpers fun s hs => hs.1))
          (fun s hs => ?_) fun _ _ h => h.2.2
        exact ⟨⟨hs.1 asset rfl, hs.2⟩, hs.1 asset rfl, hs.2⟩

theorem computeVaultRef_eq_ok {keccak : JsStr → JsStr} {cert ref : JsStr}
    (h : Cycles.computeVaultRef keccak cert = .ok ref) :
    ref = keccak (normalizeCert cert) := by
  unfold Cycles.computeVaultRef at h
  split_ifs at h
  exact (Except.ok.inj h).symm

def Store.HasKey (s : Store) (key : JsStr × JsStr) : Prop :=
  ∃ token ∈ s.tables.tokens, token.key = key

theorem persistent_hasKey {key : JsStr × JsStr} :
    (contract cfg kept).Persistent fun s => s.HasKey key := by
  apply persistent_of_later
  rintro s t h ⟨token, htoken, hkey⟩
  obtain ⟨token', htoken', hkey'⟩ := h.tokens token htoken
  exact ⟨token', htoken', hkey'.trans hkey⟩

theorem recordMintResult_does (req : Request) {r : Cycles.MintResult}
    (hfree : ∀ k ∈ kept, k.id ≠ r.cycleId) :
    Does cfg kept (Recordable cfg req r) (tables (Cycles.recordMintResult cfg.keccak r))
      fun _ s => s.HasKey (r.tokenContract, r.tokenId) := by
  have hK : (contract cfg kept).Persistent (Recordable cfg req r) := persistent_recordable
  apply does_tables_bind (findCycleOrFail_does hK)
  intro c
  apply does_tables_bind does_tables_throwIf
  intro _
  apply does_tables_bind (F := fun _ => Recordable cfg req r)
  · -- the cycle keeps nothing of the attempt
    refine triple_conseq (triple_frame hK (saveCycle_does fun s hs => ?_))
      (fun s hs => ⟨hs, hs.2.2.2.2⟩) fun _ _ h => h.2
    obtain ⟨-, hid, hfit, -, -⟩ := hs
    exact ⟨hfit.blank rfl rfl rfl rfl, fun k hk => hid ▸ hfree k hk⟩
  intro _
  apply does_tables_bind (F := fun ref s =>
    ref = cfg.keccak (normalizeCert r.certNumber) ∧ Recordable cfg req r s)
  · exact does_tables_ret fun ref href s hs => ⟨computeVaultRef_eq_ok href, hs⟩
  intro ref
  apply does_tables_bind
  · exact nameAsset_does (persistent_and (persistent_const _) hK) _ _
  intro _
  rw [tables_perform]
  refine triple_conseq (does_perform (persistent_and (persistent_const _) hK) fun s hs => ?_)
    (fun _ hs => hs) fun _ _ h => h
  obtain ⟨rfl, hrecordable⟩ := hs
  exact ⟨r.cycleId, req, rfl, hrecordable, hfree⟩

end Cycles

section Recovery
variable {cycle : VaultCycle} {attempt : MintAttempt} {req : Request}

theorem normalizeCert_normalizeCert (cert : JsStr) :
    normalizeCert (normalizeCert cert) = normalizeCert cert := by
  rw [normalizeCert, normalizeCert, ← upper_trim, trim_trim, upper_upper]

theorem toNumber_ofNat (n : ℕ) : toNumber (ofNat n) = some n := by
  have htrim : trim (ofNat n) = ofNat n := trim_of_isDigits (isDigits_ofNat n)
  have hempty : (ofNat n).isEmpty = false := by
    have hdigits := isDigits_ofNat n
    simp only [isDigits, Bool.and_eq_true, Bool.not_eq_true'] at hdigits
    exact hdigits.1
  rw [toNumber, htrim, hempty, isDigits_ofNat, toNat_ofNat]
  rfl

theorem tokenOf_does (hattempt : cycle.mintAttempt = some attempt) :
    Does cfg kept (fun s => Fit cfg s cycle) (tokenOf cycle.chainId attempt)
      (fun n s => n ≠ 0 → s.MintedFor cycle.id cycle.chainId n) := by
  unfold tokenOf
  dsimp only
  split_ifs with hfetch
  · simp only [Bool.and_eq_true] at hfetch
    obtain ⟨hash, hhash⟩ : ∃ hash, attempt.txHash = some hash := by
      cases htx : attempt.txHash with
      | none => simp [htx, truthy] at hfetch
      | some hash => exact ⟨hash, rfl⟩
    rw [hhash]
    unfold getMintedTokenIdFromTx
    dsimp only
    split_ifs
    · exact triple_ok fun _ _ h => absurd rfl h
    · apply triple_seq persistent_fit
      · exact does_perform persistent_fit fun _ _ => trivial
      intro receipt
      refine triple_ok fun s hs hn => ?_
      obtain ⟨hmined, hfit⟩ := hs
      obtain ⟨e, he, hid, hchain, hnames⟩ := (hfit.attempt attempt hattempt).submitted hash hhash
      cases receipt with
      | none => exact absurd rfl hn
      | some r =>
        refine ⟨_, hmined, r, ⟨e, he, hid, hchain, ?_⟩, rfl, rfl, ?_⟩
        · unfold Store.Names
          rw [Option.getD_some, trim_trim]
          exact hnames
        · cases hids : (parseMintedTokenIds r.logs).head? with
          | none => simp [hids] at hn
          | some n => simp [hids]
  · refine triple_ok fun s hs hn => ?_
    cases hid : attempt.tokenId with
    | none => simp [hid] at hn
    | some id =>
      obtain ⟨n, rfl, hminted⟩ := (hs.attempt attempt hattempt).minted id hid
      rw [Option.bind_some, toNumber_ofNat, Option.getD_some]
      exact hminted

theorem Intends.uriOf_eq (h : Intends cfg req attempt) (chainId tokenId : ℕ) :
    uriOf chainId tokenId attempt = pure (trim req.tokenURI) := by
  have hne : (trim req.tokenURI).isEmpty = false := by
    rw [List.isEmpty_eq_false_iff, ← h.uri]
    exact h.given.1
  rw [uriOf, h.uri, trim_trim, hne]
  rfl

theorem lower_trim_owner (cfg : Config) (req : Request) :
    lower (trim (cfg.owner req)) = cfg.owner req := by
  rw [Config.owner, ← lower_trim, trim_trim, lower_lower]

theorem Intends.ownerOf_eq (h : Intends cfg req attempt) (chainId tokenId : ℕ) :
    ownerOf chainId tokenId attempt = pure (cfg.owner req) := by
  have hne : (cfg.owner req).isEmpty = false := by
    rw [List.isEmpty_eq_false_iff, ← h.owner]
    exact h.given.2
  rw [ownerOf, h.owner, lower_trim_owner, hne]
  rfl

/-- The owner that is stored for an address. -/
theorem stored_owner {address : JsStr} (haddress : lower (trim address) = cfg.owner req)
    (hne : cfg.owner req ≠ []) :
    (Cycles.trimmed (some address)).map lower = some (cfg.owner req) := by
  have hempty : (trim address).isEmpty = false := by
    rw [List.isEmpty_eq_false_iff]
    intro hnil
    rw [hnil] at haddress
    exact hne haddress.symm
  simp [Cycles.trimmed, Option.filter, hempty, haddress]

/-- A part that has already returned. -/
theorem does_pure {α β : Type} {K : Store → Prop} {F : β → Store → Prop} {a : α} {f : α → M β}
    (h : Does cfg kept K (f a) F) : Does cfg kept K (pure a >>= f) F := h

theorem does_address {K : Store → Prop} (chainId : ℕ) :
    Does cfg kept K (Prog.ret ((cfg.env.getRwaAddress chainId).mapError Thrown.ofHttp))
      fun address s => cfg.env.getRwaAddress chainId = .ok address ∧ K s := by
  cases cfg.env.getRwaAddress chainId with
  | error e => exact triple_error
  | ok address => exact triple_ok fun s hs => ⟨rfl, hs⟩

theorem healIntended_does (hattempt : cycle.mintAttempt = some attempt)
    (hfree : ∀ k ∈ kept, k.id ≠ cycle.id) (hchain : req.chainId = cycle.chainId)
    (hintends : Intends cfg req attempt) (shown : Option JsStr) :
    Does cfg kept (fun s => Fit cfg s cycle ∧ s.ReservedFor cycle.id req)
      (healOne cfg cycle attempt shown) (fun _ _ => True) := by
  have hpers : (contract cfg kept).Persistent fun s =>
      Fit cfg s cycle ∧ s.ReservedFor cycle.id req :=
    persistent_and persistent_fit persistent_reserved
  unfold healOne
  by_cases hsupported : cycle.chainId ∉ listConfiguredChainIds cfg.env
  · rw [if_pos hsupported]
    exact triple_ok fun _ _ => trivial
  rw [if_neg hsupported]
  apply triple_seq hpers
  · exact triple_conseq (tokenOf_does hattempt) (fun _ hs => hs.1) fun _ _ h => h
  intro n
  split_ifs with hzero
  · refine triple_bind (F := fun _ _ => True) ?_ fun age => ?_
    · exact triple_conseq (does_perform persistent_true fun _ _ => trivial) (fun _ _ => trivial)
        fun _ _ _ => trivial
    · split_ifs
      · exact triple_bind (cancelCycle_does hfree) fun _ => triple_ok fun _ _ => trivial
      · exact triple_ok fun _ _ => trivial
  · rw [hintends.uriOf_eq, hintends.ownerOf_eq]
    apply does_pure
    apply does_pure
    apply triple_bind (does_address cycle.chainId)
    intro contract
    refine triple_bind (triple_conseq (recordMintResult_does req hfree) (fun s hs => ?_)
      fun _ _ h => h) fun _ => triple_ok fun _ _ => trivial
    obtain ⟨haddress, hminted, -, hreq⟩ := hs
    refine ⟨hreq, ?_, ⟨n, rfl, ?_⟩, ?_, ?_, rfl, ?_, ?_⟩
    · rw [hchain]
      exact haddress
    · rw [hchain]
      exact hminted hzero
    · change some (normalizeCert attempt.certNumber) = _
      rw [hintends.cert, normalizeCert_normalizeCert]
    · change some (cfg.keccak (normalizeCert attempt.certNumber)) = _
      rw [hintends.cert, normalizeCert_normalizeCert]
    · apply stored_owner (lower_trim_owner cfg req)
      rw [← hintends.owner]
      exact hintends.given.2
    · exact congrArg some hintends.policy

theorem healOne_does (hattempt : cycle.mintAttempt = some attempt)
    (hfree : ∀ k ∈ kept, k.id ≠ cycle.id) (shown : Option JsStr) :
    Does cfg kept (fun s => Fit cfg s cycle) (healOne cfg cycle attempt shown)
      (fun _ _ => True) := by
  intro i s hs
  obtain ⟨req, hreq, hchain, hintends⟩ := (hs.attempt attempt hattempt).intends
  exact healIntended_does hattempt hfree hchain hintends shown i s ⟨hs, hreq⟩

theorem healIfUsable_does (hfree : ∀ k ∈ kept, k.id ≠ cycle.id) (shown : Option JsStr) :
    Does cfg kept (fun s => Fit cfg s cycle) (healIfUsable cfg cycle shown) (fun _ _ => True) := by
  unfold healIfUsable
  split
  · rename_i attempt husable
    exact healOne_does (Option.eq_some_of_filter_eq_some husable) hfree shown
  · exact triple_ok fun _ _ => trivial

/-- Cycles that recovery may look at: none is kept. -/
def Free (cfg : Config) (kept : List VaultCycle) (rows : List (Shown × MintAttempt)) (s : Store) :
    Prop :=
  ∀ row ∈ rows, Fit cfg s row.1.1 ∧ row.1.1.mintAttempt = some row.2 ∧
    ∀ k ∈ kept, k.id ≠ row.1.1.id

theorem persistent_free {rows : List (Shown × MintAttempt)} :
    (contract cfg kept).Persistent (Free cfg kept rows) :=
  persistent_of_later fun _ _ h hs row hrow => ⟨h.fit (hs row hrow).1, (hs row hrow).2⟩

theorem recoverEach_does (rows : List (Shown × MintAttempt)) (n : Counts) :
    Does cfg kept (Free cfg kept rows) (recoverEach cfg rows n) (fun _ _ => True) := by
  induction rows generalizing n with
  | nil => exact triple_ok fun _ _ => trivial
  | cons row rows ih =>
    intro i s hs
    obtain ⟨hfit, hattempt, hfree⟩ := hs row (.head _)
    have hrest : ∀ n, Does cfg kept (Free cfg kept (row :: rows)) (recoverEach cfg rows n)
        fun _ _ => True := fun n =>
      triple_conseq (ih n) (fun s hs row hrow => hs row (.tail _ hrow)) fun _ _ h => h
    refine triple_settle (F := fun _ => Free cfg kept (row :: rows)) persistent_free ?_
      (fun outcome => hrest _) (fun _ => hrest n) i s hs
    refine triple_conseq (triple_frame persistent_free
      (healOne_does hattempt hfree row.1.2)) (fun s hs => ?_) fun _ _ h => h.2
    exact ⟨(hs row (.head _)).1, hs⟩

theorem recoverPass_does (hkept : ∀ k ∈ kept, k.status ≠ .minting) :
    Does cfg kept (fun _ => True) (recoverPass cfg) (fun _ _ => True) := by
  apply triple_bind (F := Free cfg kept)
  · apply triple_bind
    · exact does_perform persistent_true fun _ _ => trivial
    intro rows
    have hrows : (contract cfg kept).Persistent fun s => ∀ c ∈ rows, Fit cfg s c.1 ∧
        ∀ k ∈ kept, k.id = c.1.id → k.status = .minting :=
      persistent_of_later fun _ _ h hs c hc => ⟨h.fit (hs c hc).1, (hs c hc).2⟩
    split_ifs
    · exact triple_ok fun _ _ row hrow => by cases hrow
    · apply triple_seq hrows
      · exact does_perform hrows fun _ _ => trivial
      intro assets
      refine triple_ok fun s hs row hrow => ?_
      obtain ⟨c, hc, hrow⟩ := List.mem_filterMap.mp hrow
      obtain ⟨attempt, hattempt, rfl⟩ := Option.map_eq_some_iff.mp hrow
      have husable := Option.eq_some_of_filter_eq_some hattempt
      have hstored := Option.eq_some_of_filter_eq_some husable
      obtain ⟨hfit, hminting⟩ := hs.2 c hc
      exact ⟨hfit, hstored, fun k hk hid => hkept k hk (hminting k hk hid)⟩
  · exact fun rows => recoverEach_does rows {}

theorem findOpenVaultCycleWithAsset_does (certNumber : JsStr) (chainId : ℕ) :
    Does cfg kept (fun _ => True) (findOpenVaultCycleWithAsset certNumber chainId)
      (Post cfg kept (.findOpenCycle [] chainId)) := by
  unfold findOpenVaultCycleWithAsset
  dsimp only
  split_ifs
  · exact triple_ok fun _ _ c hc => by cases hc
  · apply triple_bind
    · exact does_silent persistent_true fun _ => trivial
    intro asset
    cases asset with
    | none => exact triple_ok fun _ _ c hc => by cases hc
    | some asset => exact does_perform persistent_true fun _ _ => trivial

theorem reconcileMinting_does (hfree : ∀ k ∈ kept, k.id ≠ cycle.id) (shown : Option JsStr)
    (age : ℤ) :
    Does cfg kept (fun s => Fit cfg s cycle) (reconcileMinting cfg cycle shown age)
      (fun _ _ => True) := by
  apply triple_bind (healIfUsable_does hfree shown)
  intro outcome
  by_cases hskip : outcome ≠ .skip
  · rw [if_pos hskip]
    exact triple_ok fun _ _ => trivial
  · rw [if_neg hskip]
    split_ifs
    · exact triple_bind (cancelCycle_does hfree) fun _ => triple_ok fun _ _ => trivial
    · exact triple_ok fun _ _ => trivial

/-- A kept cycle is neither being minted nor waiting for its mint. -/
def Settled (kept : List VaultCycle) : Prop :=
  ∀ k ∈ kept, k.status ≠ .minting ∧ k.status ≠ .depositVerified

theorem reconcileBlockingOpenCycle_does (hkept : Settled kept) (certNumber : JsStr) (chainId : ℕ) :
    Does cfg kept (fun _ => True) (reconcileBlockingOpenCycle cfg certNumber chainId)
      (fun _ _ => True) := by
  apply triple_bind (findOpenVaultCycleWithAsset_does certNumber chainId)
  intro row
  cases row with
  | none => exact triple_ok fun _ _ => trivial
  | some row =>
    obtain ⟨cycle, shown⟩ := row
    intro i s hs
    obtain ⟨hfit, hsame⟩ := hs _ rfl
    have hfree : cycle.status = .minting ∨ cycle.status = .depositVerified →
        ∀ k ∈ kept, k.id ≠ cycle.id := by
      rintro (hminting | hverified) k hk hid
      · exact (hkept k hk).1 ((hsame k hk hid).trans hminting)
      · exact (hkept k hk).2 ((hsame k hk hid).trans hverified)
    refine triple_bind (K := fun s => Fit cfg s cycle) (F := fun _ s => Fit cfg s cycle) ?_
      (fun age => ?_) i s hfit
    · exact does_silent persistent_fit fun _ => trivial
    by_cases hverified : cycle.status = .depositVerified
    · rw [if_pos hverified]
      split_ifs
      · exact triple_ok fun _ _ => trivial
      · exact triple_bind (cancelCycle_does (hfree (.inr hverified)))
          fun _ => triple_ok fun _ _ => trivial
    · rw [if_neg hverified]
      by_cases hminting : cycle.status = .minting
      · rw [if_neg (not_not_intro hminting)]
        exact reconcileMinting_does (hfree (.inl hminting)) shown age
      · rw [if_pos hminting]
        exact triple_ok fun _ _ => trivial

end Recovery

section Service
variable {cycleId : JsStr} {req : Request}

/-- A mint transaction of the cycle, sent to the owner that its request names. -/
def Broadcast (cfg : Config) (cycleId : JsStr) (req : Request) (txHash : JsStr) (s : Store) :
    Prop :=
  ⟨cycleId, req.chainId, cfg.owner req, txHash⟩ ∈ s.sent

theorem mintSteps (cfg : Config) (req : Request) (hfree : ∀ k ∈ kept, k.id ≠ cycleId) :
    MintSteps (exec cfg) anyStep (contract cfg kept) (fun s => s.ReservedFor cycleId req)
      (mintOps cycleId req.chainId) (cfg.owner req) (Broadcast cfg cycleId req)
      (fun txHash receipt s => ⟨req.chainId, txHash, receipt⟩ ∈ s.mined) where
  start := persistent_reserved
  broadcast_persistent _ := persistent_of_later fun _ _ h hs => h.sent hs
  mined_persistent _ _ := persistent_of_later fun _ _ h hs => h.mined hs
  mint := does_perform persistent_reserved fun _ hs => ⟨req, hs, rfl, rfl⟩
  onSubmitted txHash := by
    refine triple_conseq (noteMintAttemptTx_does req hfree none) (fun s hs => ?_)
      fun _ _ _ => trivial
    exact ⟨hs.2, ⟨_, hs.1, rfl, rfl, .inl rfl⟩, fun id hid => by cases hid⟩
  wait txHash := by
    apply does_perform
    · exact persistent_of_later fun _ _ h hs => h.sent hs
    · exact fun _ _ => trivial
  recordOwner _ := does_silent persistent_true fun _ => trivial
  sleep _ := does_silent persistent_reserved fun _ => trivial

def HasMinted (cycleId : JsStr) (req : Request) (minted : MintResult) (s : Store) : Prop :=
  s.ReservedFor cycleId req ∧ s.SubmittedFor cycleId req.chainId minted.txHash ∧
    s.MintedFor cycleId req.chainId minted.tokenId

theorem persistent_hasMinted {minted : MintResult} :
    (contract cfg kept).Persistent (HasMinted cycleId req minted) :=
  persistent_of_later fun _ _ h hs =>
    ⟨h.reserved hs.1, h.submittedFor hs.2.1, h.mintedFor hs.2.2⟩

theorem hasMinted_of_mintedBy {minted : MintResult} (hreq : s.ReservedFor cycleId req)
    (h : MintedBy (Broadcast cfg cycleId req)
      (fun txHash receipt (s : Store) => ⟨req.chainId, txHash, receipt⟩ ∈ s.mined) minted s) :
    HasMinted cycleId req minted s := by
  obtain ⟨txHash, receipt, hsent, hmined, hread⟩ := h
  obtain ⟨r, rfl, hhash, -, hids⟩ := readReceipt_eq_ok hread
  refine ⟨hreq, ⟨_, hsent, rfl, rfl, .inr ⟨_, hmined, r, minted.txHash, rfl, rfl, rfl, hhash, rfl⟩⟩,
    _, hmined, r, ⟨_, hsent, rfl, rfl, .inl rfl⟩, rfl, rfl, hids⟩

theorem mintOrCancel_does (hfree : ∀ k ∈ kept, k.id ≠ cycleId) {mint : MintRequest}
    (hrecipient : mint.recipient = cfg.owner req) :
    Does cfg kept (fun s => s.ReservedFor cycleId req) (mintOrCancel cycleId req.chainId mint)
      (HasMinted cycleId req) := by
  have hsteps := mintSteps cfg req hfree
  rw [← hrecipient] at hsteps
  have hpers : (contract cfg kept).Persistent fun s => s.ReservedFor cycleId req :=
    persistent_reserved
  have hmint := triple_frame hpers (triple_mintTo hsteps)
  apply triple_settle persistent_reserved (triple_conseq hmint (fun s hs => ⟨hs, hs⟩)
    fun _ _ h => h)
  · exact fun minted => triple_ok fun s hs => hasMinted_of_mintedBy hs.2 hs.1
  · intro e
    exact triple_bind (cancelCycle_does hfree) fun _ => triple_error

/-- What a returned mint has left in the registry. -/
def HasRecorded (cfg : Config) (cycleId : JsStr) (req : Request) (minted : MintResult) (s : Store) :
    Prop :=
  HasMinted cycleId req minted s ∧
    ∃ contract, cfg.env.getRwaAddress req.chainId = .ok contract ∧
      s.HasKey (contract, ofNat minted.tokenId)

theorem persistent_hasRecorded {minted : MintResult} :
    (contract cfg kept).Persistent (HasRecorded cfg cycleId req minted) := by
  rintro i s t hst ⟨hminted, contract, haddress, hkey⟩
  exact ⟨persistent_hasMinted i s t hst hminted, contract, haddress,
    persistent_hasKey i s t hst hkey⟩

theorem record_does (hfree : ∀ k ∈ kept, k.id ≠ cycleId) {wallet : JsStr}
    (hwallet : cfg.custodyWallet = .ok wallet) (hne : cfg.owner req ≠ [])
    (partnerId : Option JsStr) (minted : MintResult) :
    Does cfg kept (HasMinted cycleId req minted)
      (record cfg req cycleId (req.mintToAddress wallet) partnerId minted)
      fun _ => HasRecorded cfg cycleId req minted := by
  have hpers : (contract cfg kept).Persistent (HasMinted cycleId req minted) := persistent_hasMinted
  apply triple_seq hpers
  · refine triple_conseq (noteMintAttemptTx_does req hfree _) (fun s hs => ?_)
      fun _ _ _ => trivial
    exact ⟨hs.1, hs.2.1, fun id hid => ⟨minted.tokenId, (Option.some.inj hid).symm, hs.2.2⟩⟩
  intro _
  apply triple_bind (does_address req.chainId)
  intro address
  have hboth : (contract cfg kept).Persistent fun s =>
      cfg.env.getRwaAddress req.chainId = .ok address ∧ HasMinted cycleId req minted s :=
    persistent_and (persistent_const _) hpers
  refine triple_conseq (triple_frame hboth (recordMintResult_does req hfree)) (fun s hs => ?_)
    fun _ s hs => ⟨hs.2.2, address, hs.2.1, hs.1⟩
  obtain ⟨haddress, -, hminted⟩ := hs
  refine ⟨⟨hminted.1, haddress, ⟨_, rfl, hminted.2.2⟩, rfl, rfl, rfl, ?_, rfl⟩, haddress, hminted⟩
  exact stored_owner (owner_of_wallet hwallet req).symm hne

def Truthful (cfg : Config) (s : Store) (req : Request) (res : MintRwaResult) : Prop :=
  res.chainId = req.chainId ∧ lower (trim res.mintedTo) = cfg.owner req ∧
    ∃ cycleId, HasRecorded cfg cycleId req ⟨res.tokenId, res.txHash⟩ s

theorem onlyIf_does {K : Store → Prop} {b : Bool} {p : M Unit} (hp : Does cfg kept K p fun _ => K) :
    Does cfg kept K (onlyIf b p) fun _ => K := by
  cases b with
  | true => exact hp
  | false => exact triple_ok fun _ hs => hs

theorem mintReserved_does (hfree : ∀ k ∈ kept, k.id ≠ cycleId) (partnerId : Option JsStr)
    (vaultRef : JsStr) :
    Does cfg kept (fun s => s.ReservedFor cycleId req)
      (mintReserved cfg req partnerId vaultRef cycleId) (fun res s => Truthful cfg s req res) := by
  have hpers : (contract cfg kept).Persistent fun s => s.ReservedFor cycleId req :=
    persistent_reserved
  unfold mintReserved
  apply triple_bind
  · exact does_silent hpers fun _ => trivial
  intro submissionLinked
  cases hwallet : cfg.custodyWallet with
  | error e => exact triple_error
  | ok wallet =>
    apply does_pure
    apply triple_seq hpers (beginMintAttempt_does hfree hwallet partnerId)
    intro _ i s hs
    have hne : cfg.owner req ≠ [] := hs.1
    have hrecipient : MintRequest.recipient
        ⟨req.mintToAddress wallet, some (trim req.tokenURI), vaultRef⟩ = cfg.owner req :=
      (owner_of_wallet hwallet req).symm
    refine triple_bind (mintOrCancel_does hfree hrecipient) (fun minted => ?_) i s hs.2
    have hrecorded : (contract cfg kept).Persistent (HasRecorded cfg cycleId req minted) :=
      persistent_hasRecorded
    apply triple_bind (record_does hfree hwallet hne partnerId minted)
    intro _
    apply triple_bind
    · exact onlyIf_does (does_silent hrecorded fun _ => trivial)
    intro _
    apply triple_bind
    · exact onlyIf_does (does_silent hrecorded fun _ => trivial)
    intro _
    exact triple_ok fun s hs => ⟨rfl, hrecipient, cycleId, hs⟩

theorem requireLinked_does (req : Request) :
    Does cfg kept (fun _ => True) (requireLinked req) (fun _ _ => True) := by
  unfold requireLinked
  split_ifs
  · exact triple_ok fun _ _ => trivial
  · apply triple_bind
    · exact does_silent persistent_true fun _ => trivial
    intro wallets
    exact triple_throwIf fun _ _ _ => trivial

theorem partnerOf_does (req : Request) :
    Does cfg kept (fun _ => True) (partnerOf req) (fun _ _ => True) := by
  unfold partnerOf
  split_ifs
  · exact triple_ok fun _ _ => trivial
  · apply does_pure
    apply triple_bind
    · exact does_silent persistent_true fun _ => trivial
    intro _
    exact triple_ok fun _ _ => trivial
  · apply triple_bind
    · exact does_silent persistent_true fun _ => trivial
    intro partnerId
    apply triple_bind
    · exact does_silent persistent_true fun _ => trivial
    intro _
    exact triple_ok fun _ _ => trivial

theorem mintForUser_does (hkept : Settled kept) (req : Request) :
    Does cfg kept (fun _ => True) (mintForUser cfg req) (fun res s => Truthful cfg s req res) := by
  apply triple_bind (requireLinked_does req)
  intro _
  apply triple_bind (triple_throwIf fun _ _ _ => trivial)
  intro _
  apply triple_bind (triple_throwIf fun _ _ _ => trivial)
  intro _
  apply triple_bind (partnerOf_does req)
  intro partnerId
  apply triple_bind (triple_ret fun _ _ _ _ => trivial)
  intro vaultRef
  apply triple_bind (reconcileBlockingOpenCycle_does hkept req.cert req.chainId)
  intro _
  apply triple_bind (F := fun reserved s => s.ReservedFor reserved.2.id req ∧
    ∀ k ∈ kept, k.id ≠ reserved.2.id)
  · apply triple_bind
    · exact does_perform persistent_true fun _ _ => trivial
    intro reserved
    refine triple_ret fun r hr s hs => hs r ?_
    cases reserved with
    | error e => cases hr
    | ok r' => exact congrArg Except.ok (Except.ok.inj hr)
  · intro reserved i s hs
    exact mintReserved_does hs.2 partnerId vaultRef i s hs.1

end Service

end UserMint
