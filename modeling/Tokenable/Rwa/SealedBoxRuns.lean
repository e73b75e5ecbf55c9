import Tokenable.Rwa.SealedBoxMint

/-!
# What calls of `mintForPartner` report

`Fit` is what every row says that is stored or about to be saved: its token was read off the receipt
of a transaction broadcast for the row, and carries metadata that was pinned for it. Calls of one
request may overwrite each other's rows, and each of the rows is fit, provided that nobody changes a
row between the two statements of its save: the update of the columns that differ would else mix
the columns of two calls.

Some rows may be `kept`: rows that had a mint transaction when the process was started again. No
call of any request changes their transaction and token, or broadcasts another one for them.
-/

namespace SealedBox
open Js Platform Async Chain

section Facts
variable (cfg : Config) (kept : List SealedBoxMint)

def Store.Holds (s : Store) (id userId clientRequestId : JsStr) : Prop :=
  ∃ r ∈ s.mints.rows, r.id = id ∧ r.userId = userId ∧ r.clientRequestId = clientRequestId

def Store.MintedFor (s : Store) (box : JsStr) (minted : MintResult) : Prop :=
  ∃ sent ∈ s.sent, ∃ mined ∈ s.mined, sent.box = box ∧ mined.box = box ∧
    mined.txHash = sent.txHash ∧ readReceipt mined.receipt = .ok minted

def Store.PinnedFor (s : Store) (box productName tokenUri : JsStr) : Prop :=
  ∃ pin ∈ s.pinned, pin.box = box ∧ pin.metadata.name = productName ∧
    tokenUri = js "ipfs://" ++ pin.cid

def Store.Registered (s : Store) (chainId : ℕ) (tokenId : JsStr) : Prop :=
  ∃ token ∈ s.tokens.rows, cfg.env.getRwaAddress chainId = .ok token.tokenContract ∧
    token.tokenId = tokenId

structure Store.Backed (s : Store) (row : SealedBoxMint) (minted : MintResult)
    (tokenUri contract : JsStr) : Prop where
  mined : s.MintedFor row.id minted
  pinned : s.PinnedFor row.id row.productName tokenUri
  address : cfg.env.getRwaAddress row.chainId = .ok contract
  numbered : 1 ≤ minted.tokenId
  row : row.tokenId = some (ofNat minted.tokenId) ∧ row.mintTxHash = some minted.txHash ∧
    row.tokenUri = some tokenUri ∧ row.tokenContract = some contract

structure Fit (s : Store) (row : SealedBoxMint) : Prop where
  holds : s.Holds row.id row.userId row.clientRequestId
  submitted : truthy row.mintTxHash = true → row.status = .minting ∨ row.status = .minted
  backed : truthy row.tokenId = true → ∃ minted uri contract, s.Backed cfg row minted uri contract
  reported : row.status = .minted →
    ∃ tokenId, row.tokenId = some tokenId ∧ tokenId ≠ [] ∧ s.Registered cfg row.chainId tokenId
  kept : ∀ k ∈ kept, k.id = row.id → row.mintTxHash = k.mintTxHash ∧ row.tokenId = k.tokenId

structure Sound (s : Store) : Prop where
  fit : ∀ row ∈ s.mints.rows, Fit cfg kept s row
  single : ∀ row ∈ s.mints.rows, ∀ row' ∈ s.mints.rows, row.userId = row'.userId →
    row.clientRequestId = row'.clientRequestId → row.id = row'.id
  held : ∀ k ∈ kept, ∃ row ∈ s.mints.rows, row.id = k.id

/-- Rows and records stay, and nothing is broadcast for the kept rows. -/
structure Later (s t : Store) : Prop where
  holds : ∀ id userId clientRequestId, s.Holds id userId clientRequestId →
    t.Holds id userId clientRequestId
  sent : s.sent ⊆ t.sent
  mined : s.mined ⊆ t.mined
  pinned : s.pinned ⊆ t.pinned
  tokens : ∀ token ∈ s.tokens.rows, ∃ token' ∈ t.tokens.rows, token'.key = token.key
  quiet : ∀ k ∈ kept, (t.sent.filter fun x => x.box = k.id) = s.sent.filter fun x => x.box = k.id

/-- The request of a result, and what its token is. -/
structure Truthful (s : Store) (req : Request) (res : SealedBoxMintResult) : Prop where
  own : s.Holds res.id req.userId req.clientRequestId
  mined : ∃ minted, s.MintedFor res.id minted ∧ 1 ≤ minted.tokenId ∧
    res.tokenId = ofNat minted.tokenId ∧ res.txHash = minted.txHash
  pinned : s.PinnedFor res.id res.productName res.tokenURI
  registered : s.Registered cfg res.chainId res.tokenId

def Reports (s : Store) (req : Request) (res : SealedBoxMintResult) : Prop :=
  Truthful cfg s req res ∧
    ∀ k ∈ kept, k.id = res.id → k.tokenId = some res.tokenId ∧ k.mintTxHash = some res.txHash

end Facts

variable {cfg : Config} {kept : List SealedBoxMint} {s t u : Store} {row : SealedBoxMint}

theorem Later.refl (s : Store) : Later kept s s :=
  ⟨fun _ _ _ h => h, fun _ h => h, fun _ h => h, fun _ h => h, fun token h => ⟨token, h, rfl⟩,
    fun _ _ => rfl⟩

theorem Later.trans (h : Later kept s t) (h' : Later kept t u) : Later kept s u where
  holds id userId clientRequestId hs := h'.holds _ _ _ (h.holds _ _ _ hs)
  sent := List.Subset.trans h.sent h'.sent
  mined := List.Subset.trans h.mined h'.mined
  pinned := List.Subset.trans h.pinned h'.pinned
  tokens token htoken := by
    obtain ⟨token₁, h₁, hkey₁⟩ := h.tokens token htoken
    obtain ⟨token₂, h₂, hkey₂⟩ := h'.tokens token₁ h₁
    exact ⟨token₂, h₂, hkey₂.trans hkey₁⟩
  quiet k hk := (h'.quiet k hk).trans (h.quiet k hk)

theorem Later.mintedFor (h : Later kept s t) {box : JsStr} {minted : MintResult}
    (hs : s.MintedFor box minted) : t.MintedFor box minted := by
  obtain ⟨sent, hsent, mined, hmined, hrest⟩ := hs
  exact ⟨sent, h.sent hsent, mined, h.mined hmined, hrest⟩

theorem Later.pinnedFor (h : Later kept s t) {box productName uri : JsStr}
    (hs : s.PinnedFor box productName uri) : t.PinnedFor box productName uri := by
  obtain ⟨pin, hpin, hrest⟩ := hs
  exact ⟨pin, h.pinned hpin, hrest⟩

theorem Later.registered (h : Later kept s t) {chainId : ℕ} {tokenId : JsStr}
    (hs : s.Registered cfg chainId tokenId) : t.Registered cfg chainId tokenId := by
  obtain ⟨token, htoken, hcontract, hid⟩ := hs
  obtain ⟨token', htoken', hkey⟩ := h.tokens token htoken
  obtain ⟨hcontract', hid'⟩ := Prod.mk.inj hkey
  exact ⟨token', htoken', hcontract.trans (congrArg Except.ok hcontract'.symm), hid'.trans hid⟩

theorem Later.fit (h : Later kept s t) (hs : Fit cfg kept s row) : Fit cfg kept t row where
  holds := h.holds _ _ _ hs.holds
  submitted := hs.submitted
  backed htoken := by
    obtain ⟨minted, uri, contract, hbacked⟩ := hs.backed htoken
    exact ⟨minted, uri, contract, h.mintedFor hbacked.mined, h.pinnedFor hbacked.pinned,
      hbacked.address, hbacked.numbered, hbacked.row⟩
  reported hstatus := by
    obtain ⟨tokenId, htoken, hne, hregistered⟩ := hs.reported hstatus
    exact ⟨tokenId, htoken, hne, h.registered hregistered⟩
  kept := hs.kept

theorem Later.reports (h : Later kept s t) {req : Request} {res : SealedBoxMintResult}
    (hs : Reports cfg kept s req res) : Reports cfg kept t req res := by
  refine ⟨⟨h.holds _ _ _ hs.1.own, ?_, h.pinnedFor hs.1.pinned, h.registered hs.1.registered⟩, hs.2⟩
  obtain ⟨minted, hminted, hrest⟩ := hs.1.mined
  exact ⟨minted, h.mintedFor hminted, hrest⟩

section Steps

/-- The row that a save updates is the one that it has selected. -/
abbrev Undisturbed : Allowed Store Cmd
  | _, s, .write loaded row => s.mints.get row.id = loaded
  | _, _, _ => True

instance (i : ℕ) (s : Store) (c : Cmd) : Decidable (Undisturbed i s c) := by
  unfold Undisturbed
  split <;> infer_instance

/-- Where a command may be issued. -/
def Pre (cfg : Config) (kept : List SealedBoxMint) : Cmd → Store → Prop
  | .create row, _ => row.tokenId = none ∧ row.mintTxHash = none ∧ row.status = .pending
  | .select row, s => Fit cfg kept s row
  | .write _ row, s => Fit cfg kept s row
  | .mint box _, _ => ∀ k ∈ kept, k.id ≠ box
  | _, _ => True

/-- What an answer says. -/
def Post (cfg : Config) (kept : List SealedBoxMint) : (c : Cmd) → Value c → Store → Prop
  | .findMint userId clientRequestId, found, s => ∀ row : SealedBoxMint, found = some row →
    Fit cfg kept s row ∧ row.userId = userId ∧ row.clientRequestId = clientRequestId
  | .create row, (row' : SealedBoxMint), s =>
    Fit cfg kept s row' ∧ row' = { row with id := row'.id }
  | .uploadMetadata boxId metadata, cid, s => ⟨boxId, metadata, cid⟩ ∈ s.pinned
  | .mint boxId recipient, txHash, s => ⟨boxId, recipient, txHash⟩ ∈ s.sent
  | .wait boxId txHash, receipt, s => ⟨boxId, txHash, receipt⟩ ∈ s.mined
  | .upsertToken values, _, s => ∃ token ∈ s.tokens.rows, token.key = values.key
  | _, _, _ => True

theorem ofRequest_eq_some {userId clientRequestId : JsStr}
    (h : ofRequest s userId clientRequestId = some row) :
    row ∈ s.mints.rows ∧ row.userId = userId ∧ row.clientRequestId = clientRequestId := by
  have hmem := Db.Table.mem_find.mp (List.mem_of_head? h)
  simp only [Bool.and_eq_true, decide_eq_true_eq] at hmem
  exact ⟨hmem.1, hmem.2⟩

theorem ofRequest_eq_none {userId clientRequestId : JsStr}
    (h : (ofRequest s userId clientRequestId).isSome = false) {r : SealedBoxMint}
    (hr : r ∈ s.mints.rows) (huser : r.userId = userId) : r.clientRequestId ≠ clientRequestId := by
  intro hrequest
  have hfind : r ∈ s.mints.find fun r =>
      r.userId = userId && r.clientRequestId = clientRequestId := by
    apply Db.Table.mem_find.mpr
    simp [hr, huser, hrequest]
  unfold ofRequest at h
  cases hlist : s.mints.find fun r =>
      r.userId = userId && r.clientRequestId = clientRequestId with
  | nil =>
    rw [hlist] at hfind
    cases hfind
  | cons x xs => simp [hlist] at h

/-- A row without a transaction and a token. -/
theorem fit_of_blank (hholds : s.Holds row.id row.userId row.clientRequestId)
    (hhash : truthy row.mintTxHash = false) (htoken : truthy row.tokenId = false)
    (hstatus : row.status ≠ .minted) (hfree : ∀ k ∈ kept, k.id ≠ row.id) : Fit cfg kept s row where
  holds := hholds
  submitted h := by simp [hhash] at h
  backed h := by simp [htoken] at h
  reported h := absurd h hstatus
  kept k hk hid := absurd hid (hfree k hk)

theorem holds_save {id userId clientRequestId : JsStr}
    (hrow : s.Holds row.id row.userId row.clientRequestId) (h : s.Holds id userId clientRequestId) :
    Store.Holds { s with mints := s.mints.save row } id userId clientRequestId := by
  obtain ⟨r, hr, rfl, rfl, rfl⟩ := h
  by_cases hid : r.id = row.id
  · obtain ⟨r', hr', hid', huser, hrequest⟩ := hrow
    have hsame : r = r' := List.inj_on_of_nodup_map s.mints.nodup hr hr' (hid.trans hid'.symm)
    rw [hsame]
    exact ⟨row, Db.Table.mem_saveRows.mpr (.inl rfl), hid'.symm, huser.symm, hrequest.symm⟩
  · exact ⟨r, Db.Table.mem_saveRows.mpr (.inr ⟨hr, hid⟩), rfl, rfl, rfl⟩

theorem later_save (hrow : s.Holds row.id row.userId row.clientRequestId) :
    Later kept s { s with mints := s.mints.save row } :=
  { Later.refl s with holds := fun _ _ _ h => holds_save hrow h }

/-- The row of a request is replaced by one of the same request. -/
theorem sound_save (hsound : Sound cfg kept s) (hfit : Fit cfg kept s row) :
    Sound cfg kept { s with mints := s.mints.save row } := by
  have hlater : Later kept s { s with mints := s.mints.save row } := later_save hfit.holds
  obtain ⟨old, hold, hid, huser, hrequest⟩ := hfit.holds
  -- the stored row of the same id has the same request
  have hsucc : ∀ r ∈ (s.mints.save row).rows, ∃ r' ∈ s.mints.rows,
      r'.id = r.id ∧ r'.userId = r.userId ∧ r'.clientRequestId = r.clientRequestId := by
    intro r hr
    rcases Db.Table.mem_saveRows.mp hr with rfl | ⟨hr', -⟩
    · exact ⟨old, hold, hid, huser, hrequest⟩
    · exact ⟨r, hr', rfl, rfl, rfl⟩
  constructor
  · intro r hr
    rcases Db.Table.mem_saveRows.mp hr with rfl | ⟨hr', -⟩
    · exact hlater.fit hfit
    · exact hlater.fit (hsound.fit r hr')
  · intro r hr r' hr' hu hc
    obtain ⟨x, hx, hxid, hxuser, hxrequest⟩ := hsucc r hr
    obtain ⟨x', hx', hxid', hxuser', hxrequest'⟩ := hsucc r' hr'
    rw [← hxid, ← hxid']
    apply hsound.single x hx x' hx'
    · rw [hxuser, hxuser', hu]
    · rw [hxrequest, hxrequest', hc]
  · intro k hk
    obtain ⟨r, hr, hrid⟩ := hsound.held k hk
    obtain ⟨r', hr', hrid', -, -⟩ :=
      hlater.holds r.id r.userId r.clientRequestId ⟨r, hr, rfl, rfl, rfl⟩
    exact ⟨r', hr', hrid'.trans hrid⟩

/-- What leaves the rows as they are. -/
theorem Sound.of_rows (hsound : Sound cfg kept s) (hlater : Later kept s t)
    (hrows : t.mints.rows = s.mints.rows) : Sound cfg kept t where
  fit r hr := hlater.fit (hsound.fit r (hrows ▸ hr))
  single := by
    rw [hrows]
    exact hsound.single
  held := by
    rw [hrows]
    exact hsound.held

/-- A new row, whose request and id no row has. -/
theorem sound_create (hsound : Sound cfg kept s) {id : JsStr} (hnew : s.mints.get id = none)
    (hrequest : (ofRequest s row.userId row.clientRequestId).isSome = false)
    (hblank : row.tokenId = none ∧ row.mintTxHash = none ∧ row.status = .pending) :
    let row' := { row with id := id }
    let t := { s with mints := s.mints.save row' }
    Sound cfg kept t ∧ Later kept s t ∧ Fit cfg kept t row' := by
  intro row' t
  have hid : ∀ r ∈ s.mints.rows, r.id ≠ id := Db.Table.get_eq_none.mp hnew
  have hstored : row' ∈ t.mints.rows := Db.Table.mem_saveRows.mpr (.inl rfl)
  have hstays : ∀ r ∈ s.mints.rows, r ∈ t.mints.rows := fun r hr =>
    Db.Table.mem_saveRows.mpr (.inr ⟨hr, hid r hr⟩)
  have hlater : Later kept s t :=
    { Later.refl s with
      holds := by
        rintro _ _ _ ⟨r, hr, rfl, rfl, rfl⟩
        exact ⟨r, hstays r hr, rfl, rfl, rfl⟩ }
  have hfit : Fit cfg kept t row' := by
    apply fit_of_blank
    · exact ⟨row', hstored, rfl, rfl, rfl⟩
    · simp [row', hblank.2.1, truthy]
    · simp [row', hblank.1, truthy]
    · simp [row', hblank.2.2]
    · intro k hk hkid
      obtain ⟨r, hr, hrid⟩ := hsound.held k hk
      exact hid r hr (hrid.trans hkid)
  refine ⟨⟨fun r hr => ?_, fun r hr r' hr' hu hc => ?_, fun k hk => ?_⟩, hlater, hfit⟩
  · rcases Db.Table.mem_saveRows.mp hr with rfl | ⟨hr', -⟩
    · exact hfit
    · exact hlater.fit (hsound.fit r hr')
  · rcases Db.Table.mem_saveRows.mp hr with rfl | ⟨hold, -⟩
    · rcases Db.Table.mem_saveRows.mp hr' with rfl | ⟨hold', -⟩
      · rfl
      · exact absurd hc.symm (ofRequest_eq_none hrequest hold' hu.symm)
    · rcases Db.Table.mem_saveRows.mp hr' with rfl | ⟨hold', -⟩
      · exact absurd hc (ofRequest_eq_none hrequest hold hu)
      · exact hsound.single r hold r' hold' hu hc
  · obtain ⟨r, hr, hrid⟩ := hsound.held k hk
    exact ⟨r, hstays r hr, hrid⟩

theorem column_self {α : Type} [DecidableEq α] (old new : α) : column old new old = new := by
  unfold column
  split_ifs with heq
  · exact heq.symm
  · rfl

theorem merge_self {old row : SealedBoxMint} (hid : old.id = row.id) : old.merge row old = row := by
  cases row
  simp only [SealedBoxMint.merge, column_self]
  exact congrArg (SealedBoxMint.mk · _ _ _ _ _ _ _ _ _ _ _ _ _ _ _ _ _ _) hid

/-- An update of the row that was selected makes it the row that is saved. -/
theorem write_eq {loaded : Option SealedBoxMint} (hok : s.mints.get row.id = loaded) :
    write s loaded row = (.ok (), { s with mints := s.mints.save row }) := by
  unfold write
  rw [hok]
  cases loaded with
  | none => rfl
  | some old =>
    dsimp only
    rw [merge_self (Db.Table.get_key hok)]

theorem run_spec (hsound : Sound cfg kept s) {i : ℕ} {x : Answer} {c : Cmd}
    (hpre : Pre cfg kept c s) (hok : Undisturbed i s c) {r : Res c} (h : run s x c = some (r, t)) :
    Sound cfg kept t ∧ Later kept s t ∧ ∀ a, r = .ok a → Post cfg kept c a t := by
  cases c with
  | findMint userId clientRequestId =>
    obtain ⟨rfl, rfl⟩ := Prod.mk.inj (Option.some.inj h)
    refine ⟨hsound, .refl _, fun a ha row hrow => ?_⟩
    obtain rfl := Except.ok.inj ha
    obtain ⟨hmem, huser, hrequest⟩ := ofRequest_eq_some hrow
    exact ⟨hsound.fit row hmem, huser, hrequest⟩
  | create row =>
    simp only [run] at h
    split_ifs at h with hrequest hid
    · obtain ⟨rfl, rfl⟩ := Prod.mk.inj (Option.some.inj h)
      exact ⟨hsound, .refl _, fun a ha => by cases ha⟩
    · obtain ⟨rfl, rfl⟩ := Prod.mk.inj (Option.some.inj h)
      obtain ⟨hsound', hlater, hfit⟩ := sound_create hsound (Option.not_isSome_iff_eq_none.mp hid)
        (Bool.not_eq_true _ ▸ hrequest) hpre
      refine ⟨hsound', hlater, fun a ha => ?_⟩
      obtain rfl := Except.ok.inj ha
      exact ⟨hfit, rfl⟩
  | write loaded row =>
    have hwrite := Option.some.inj h
    rw [write_eq hok] at hwrite
    obtain ⟨rfl, rfl⟩ := Prod.mk.inj hwrite
    exact ⟨sound_save hsound hpre, later_save hpre.holds, fun _ _ => trivial⟩
  | uploadMetadata boxId metadata =>
    obtain ⟨rfl, rfl⟩ := Prod.mk.inj (Option.some.inj h)
    have hlater : Later kept s { s with pinned := s.pinned ++ [⟨boxId, metadata, x.text⟩] } :=
      { Later.refl s with pinned := List.subset_append_left _ _ }
    refine ⟨hsound.of_rows hlater rfl, hlater, fun a ha => ?_⟩
    obtain rfl := Except.ok.inj ha
    exact List.mem_append_right _ (List.mem_singleton_self _)
  | mint boxId recipient =>
    obtain ⟨rfl, rfl⟩ := Prod.mk.inj (Option.some.inj h)
    have hrefl : Later kept s s := .refl s
    have hlater : Later kept s { s with sent := s.sent ++ [⟨boxId, recipient, x.text⟩] } :=
      { hrefl with
        sent := List.subset_append_left _ _
        quiet := fun k hk => by
          rw [List.filter_append]
          simp [Ne.symm (hpre k hk)] }
    refine ⟨hsound.of_rows hlater rfl, hlater, fun a ha => ?_⟩
    obtain rfl := Except.ok.inj ha
    exact List.mem_append_right _ (List.mem_singleton_self _)
  | wait boxId txHash =>
    obtain ⟨rfl, rfl⟩ := Prod.mk.inj (Option.some.inj h)
    have hlater : Later kept s { s with mined := s.mined ++ [⟨boxId, txHash, x.receipt⟩] } :=
      { Later.refl s with mined := List.subset_append_left _ _ }
    refine ⟨hsound.of_rows hlater rfl, hlater, fun a ha => ?_⟩
    obtain rfl := Except.ok.inj ha
    exact List.mem_append_right _ (List.mem_singleton_self _)
  | upsertToken values =>
    obtain ⟨rfl, rfl⟩ := Prod.mk.inj (Option.some.inj h)
    have hcolumns : ∀ old : Vault.RwaToken, old.key = values.key →
        (updated old values).key = values.key := fun _ hkey => hkey
    obtain ⟨hkeys, hnew⟩ := Db.Table.exists_key_upsertRows hcolumns
    have hlater : Later kept s { s with tokens := upsertToken s.tokens values } :=
      { Later.refl s with tokens := hkeys }
    exact ⟨hsound.of_rows hlater rfl, hlater, fun _ _ => hnew⟩
  | _ =>
    obtain ⟨rfl, rfl⟩ := Prod.mk.inj (Option.some.inj h)
    exact ⟨hsound, .refl _, fun _ _ => trivial⟩

/-- A call that fails leaves the store as it was or as the call makes it. -/
theorem exec_spec (hsound : Sound cfg kept s) {i : ℕ} {x : Answer} {c : Cmd}
    (hpre : Pre cfg kept c s) (hok : Undisturbed i s c) {r : Res c}
    (h : exec i s x c = some (r, t)) :
    Sound cfg kept t ∧ Later kept s t ∧ ∀ a, r = .ok a → Post cfg kept c a t := by
  unfold exec at h
  cases hfate : x.fate with
  | done =>
    rw [hfate] at h
    exact run_spec hsound hpre hok h
  | failed e =>
    rw [hfate] at h
    obtain ⟨rfl, rfl⟩ := Prod.mk.inj (Option.some.inj h)
    exact ⟨hsound, .refl _, fun a ha => by cases ha⟩
  | unseen e =>
    rw [hfate] at h
    obtain ⟨⟨r', t'⟩, hrun, heq⟩ := Option.map_eq_some_iff.mp h
    obtain ⟨rfl, rfl⟩ := Prod.mk.inj heq
    obtain ⟨hsound', hlater, -⟩ := run_spec hsound hpre hok hrun
    exact ⟨hsound', hlater, fun a ha => by cases ha⟩

end Steps

section Rows

theorem toResult_eq_ok {res : SealedBoxMintResult} (h : toResult row = .ok res) :
    row.tokenId = some res.tokenId ∧ row.tokenUri = some res.tokenURI ∧
      row.mintTxHash = some res.txHash ∧ res.tokenId ≠ [] ∧ res.id = row.id ∧
      res.chainId = row.chainId ∧ res.productName = row.productName := by
  unfold toResult at h
  split at h
  · rename_i tokenId uri image hash htoken huri _ hhash
    split_ifs at h with hempty
    obtain rfl := Except.ok.inj h
    simp only [Bool.or_eq_true, List.isEmpty_iff, not_or] at hempty
    exact ⟨htoken, huri, hhash, hempty.1.1.1, rfl, rfl, rfl⟩
  · cases h

theorem registryValues_eq_some {values : Vault.RwaToken} (h : registryValues row = some values) :
    row.tokenContract = some values.tokenContract ∧ row.tokenId = some values.tokenId ∧
      values.tokenId ≠ [] := by
  unfold registryValues at h
  split at h
  · rename_i contract tokenId uri ref hcontract htoken _ _
    split_ifs at h with hempty
    obtain rfl := Option.some.inj h
    simp only [Bool.or_eq_true, List.isEmpty_iff, not_or] at hempty
    exact ⟨hcontract, htoken, hempty.1.1.2⟩
  · cases h

/-- A row with a token has its transaction. -/
theorem Fit.submitted_of_token (h : Fit cfg kept s row) (htoken : truthy row.tokenId = true) :
    truthy row.mintTxHash = true := by
  obtain ⟨minted, uri, contract, hbacked⟩ := h.backed htoken
  obtain ⟨sent, -, mined, -, -, -, -, hreceipt⟩ := hbacked.mined
  obtain ⟨-, -, -, hne, -⟩ := readReceipt_eq_ok hreceipt
  simp [hbacked.row.2.1, truthy, hne]

/-- A registry row with the contract and the token of the mint's row. -/
theorem Fit.registered (h : Fit cfg kept s row) {values token : Vault.RwaToken}
    (hvalues : registryValues row = some values) (htoken : token ∈ s.tokens.rows)
    (hkey : token.key = values.key) : s.Registered cfg row.chainId values.tokenId := by
  obtain ⟨hcontract, hid, hne⟩ := registryValues_eq_some hvalues
  obtain ⟨hkeyc, hkeyt⟩ := Prod.mk.inj hkey
  have htruthy : truthy row.tokenId = true := by simp [hid, truthy, hne]
  obtain ⟨minted, uri, contract, hbacked⟩ := h.backed htruthy
  have hsame : contract = values.tokenContract :=
    Option.some.inj (hbacked.row.2.2.2.symm.trans hcontract)
  refine ⟨token, htoken, ?_, hkeyt⟩
  rw [hkeyc, ← hsame]
  exact hbacked.address

theorem Fit.complete (h : Fit cfg kept s row) {tokenId : JsStr}
    (htoken : row.tokenId = some tokenId)
    (hne : tokenId ≠ []) (hregistered : s.Registered cfg row.chainId tokenId) :
    Fit cfg kept s { row with status := .minted, errorMessage := none } where
  holds := h.holds
  submitted _ := .inr rfl
  backed ht := by
    obtain ⟨minted, uri, contract, hbacked⟩ := h.backed ht
    exact ⟨minted, uri, contract, hbacked.mined, hbacked.pinned, hbacked.address, hbacked.numbered,
      hbacked.row⟩
  reported _ := ⟨tokenId, htoken, hne, hregistered⟩
  kept := h.kept

/-- The row that a failure leaves. -/
theorem Fit.reset (h : Fit cfg kept s row) (text : JsStr) :
    Fit cfg kept s { row with
      errorMessage := some text
      status := if truthy row.mintTxHash then .minting else .failed } where
  holds := h.holds
  submitted hhash := .inl (if_pos hhash)
  backed ht := by
    obtain ⟨minted, uri, contract, hbacked⟩ := h.backed ht
    exact ⟨minted, uri, contract, hbacked.mined, hbacked.pinned, hbacked.address, hbacked.numbered,
      hbacked.row⟩
  reported hstatus := by
    dsimp only at hstatus
    split_ifs at hstatus
  kept := h.kept

theorem reports_of_minted {req : Request} {res : SealedBoxMintResult} (h : Fit cfg kept s row)
    (hstatus : row.status = .minted) (huser : row.userId = req.userId)
    (hrequest : row.clientRequestId = req.clientRequestId) (hres : toResult row = .ok res) :
    Reports cfg kept s req res := by
  obtain ⟨htoken, huri, hhash, hne, hid, hchain, hname⟩ := toResult_eq_ok hres
  obtain ⟨tokenId, htoken', -, hregistered⟩ := h.reported hstatus
  obtain rfl := Option.some.inj (htoken.symm.trans htoken')
  obtain ⟨minted, uri, contract, hbacked⟩ := h.backed (by simp [htoken, truthy, hne])
  obtain ⟨hrowtoken, hrowhash, hrowuri, -⟩ := hbacked.row
  obtain rfl := Option.some.inj (huri.symm.trans hrowuri)
  refine ⟨⟨?_, ?_, ?_, ?_⟩, ?_⟩
  · rw [hid, ← huser, ← hrequest]
    exact h.holds
  · refine ⟨minted, hid ▸ hbacked.mined, hbacked.numbered, ?_, ?_⟩
    · exact Option.some.inj (htoken.symm.trans hrowtoken)
    · exact Option.some.inj (hhash.symm.trans hrowhash)
  · rw [hid, hname]
    exact hbacked.pinned
  · rw [hchain]
    exact hregistered
  · intro k hk hkid
    obtain ⟨hkhash, hktoken⟩ := h.kept k hk (hkid.trans hid)
    exact ⟨hktoken.symm.trans htoken, hkhash.symm.trans hhash⟩

structure Claimed (input : Claim) (row : SealedBoxMint) : Prop where
  user : row.userId = input.userId
  request : row.clientRequestId = input.clientRequestId
  chain : alreadySubmitted (some row) = false → row.chainId = input.chainId

theorem reuse_spec {input : Claim} (h : Fit cfg kept s row) (huser : row.userId = input.userId)
    (hrequest : row.clientRequestId = input.clientRequestId) :
    Fit cfg kept s (reuse row input) ∧ Claimed input (reuse row input) := by
  unfold reuse
  split_ifs with hsubmitted
  · refine ⟨h, huser, hrequest, fun hnot => ?_⟩
    simp [alreadySubmitted] at hnot hsubmitted
    simp [hnot] at hsubmitted
  · simp only [Bool.or_eq_true, decide_eq_true_eq, not_or, Bool.not_eq_true] at hsubmitted
    obtain ⟨⟨-, htoken⟩, hhash⟩ := hsubmitted
    refine ⟨⟨h.holds, fun ht => ?_, fun ht => ?_, fun ht => ?_, h.kept⟩, huser, hrequest,
      fun _ => rfl⟩
    · simp [hhash] at ht
    · simp [htoken] at ht
    · cases ht

end Rows

section Programs
variable (cfg : Config) (kept : List SealedBoxMint)

def contract : Contract Store := .ofPreorder (Sound cfg kept) (Later kept) .refl fun _ _ _ => .trans

abbrev Does {α : Type} (K : Store → Prop) (p : M α) (F : α → Store → Prop) : Prop :=
  Triple exec Undisturbed (contract cfg kept) K p F

/-- `Does`, where the row of the call is fit however the function ends. -/
abbrev Assigns {α : Type} (K : Store → Prop) (p : M α) (F : α → Store → Prop) : Prop :=
  Tracks exec Undisturbed (contract cfg kept) assigned (fun row s => Fit cfg kept s row) K p F

variable {cfg kept} {α β : Type} {K K' : Store → Prop} {F : α → Store → Prop}
  {F₂ : β → Store → Prop} {c : Cmd}

theorem persistent_of_later (h : ∀ s t, Later kept s t → K s → K t) :
    (contract cfg kept).Persistent K := fun _ s t hst hs => h s t (hst.elim id id) hs

theorem persistent_holds {id userId clientRequestId : JsStr} :
    (contract cfg kept).Persistent fun s => s.Holds id userId clientRequestId :=
  persistent_of_later fun _ _ h => h.holds _ _ _

theorem persistent_fit : (contract cfg kept).Persistent fun s => Fit cfg kept s row :=
  persistent_of_later fun _ _ h => h.fit

theorem does_perform (hK : (contract cfg kept).Persistent K) (hpre : ∀ s, K s → Pre cfg kept c s) :
    Does cfg kept K (perform c) (Post cfg kept c) := by
  apply triple_call hK
  intro i t ht hKt hok x r u hu
  obtain ⟨hsound, hlater, hpost⟩ := exec_spec ht (hpre t hKt) hok hu
  exact ⟨hsound, hlater, hpost⟩

theorem pre_of_assigned {w : SealedBoxMint} (hc : assigned c = some w) (h : Pre cfg kept c s) :
    Fit cfg kept s w := by
  cases c with
  | select row => exact Option.some.inj hc ▸ h
  | _ => cases hc

theorem assigns_perform (hK : (contract cfg kept).Persistent K)
    (hpre : ∀ s, K s → Pre cfg kept c s) :
    Assigns cfg kept K (perform c) (Post cfg kept c) := by
  refine tracks_of_triple (P := (· = c)) (fun _ => persistent_fit) hK ⟨rfl, fun _ => trivial⟩ ?_
    (does_perform hK hpre)
  rintro _ w t rfl hKt hw
  exact pre_of_assigned hw (hpre t hKt)

/-- A part that issues no command. -/
theorem assigns_silent {p : M α} (hK : (contract cfg kept).Persistent K)
    (hp : p.Issues fun _ => False) (h : Does cfg kept K p F) : Assigns cfg kept K p F :=
  tracks_of_triple (fun _ => persistent_fit) hK hp (fun _ _ _ hc => hc.elim) h

/-- Commands that may be issued anywhere, and assign nothing. -/
def Reads : Cmd → Prop
  | .create _ | .select _ | .write .. | .mint .. => False
  | _ => True

theorem pre_of_reads (h : Reads c) : Pre cfg kept c s := by
  cases c with
  | create _ | select _ | write _ _ | mint _ _ => exact h.elim
  | _ => trivial

theorem not_assigned_of_reads (h : Reads c) {w : SealedBoxMint} : assigned c ≠ some w := by
  cases c with
  | select _ => exact h.elim
  | _ => exact fun hw => by cases hw

theorem does_reads {p : M α} (hK : (contract cfg kept).Persistent K) (hp : p.Issues Reads) :
    Does cfg kept K p fun _ => K := by
  apply triple_of_issues hK _ hp
  intro c hc i t x r u ht hok hu
  obtain ⟨hsound, hlater, -⟩ := exec_spec ht (pre_of_reads hc) hok hu
  exact ⟨hsound, hlater⟩

theorem assigns_reads {p : M α} (hK : (contract cfg kept).Persistent K) (hp : p.Issues Reads) :
    Assigns cfg kept K p fun _ => K := by
  apply tracks_of_triple (fun _ => persistent_fit) hK hp _ (does_reads hK hp)
  exact fun c w t hc _ hw => absurd hw (not_assigned_of_reads hc)

/-- A save of a fit row, which its two statements issue, assigns that row. -/
theorem save_issues {P : Cmd → Prop} (hselect : P (.select row))
    (hwrite : ∀ loaded, P (.write loaded row)) : (save row).Issues P := by
  apply Prog.issues_bind (Prog.issues_call hselect)
  intro loaded
  split_ifs
  · exact Prog.issues_ret _
  · exact Prog.issues_call (hwrite loaded)

theorem does_save (hK : (contract cfg kept).Persistent K) (hfit : ∀ s, K s → Fit cfg kept s row) :
    Does cfg kept K (save row) fun _ _ => True := by
  apply triple_seq hK (does_perform (c := .select row) hK hfit)
  intro loaded
  refine triple_conseq (K := K) ?_ (fun _ hs => hs.2) fun _ _ hF => hF
  split_ifs
  · exact triple_ok fun _ _ => trivial
  · exact does_perform (c := .write loaded row) hK hfit

theorem assigns_save (hK : (contract cfg kept).Persistent K)
    (hfit : ∀ s, K s → Fit cfg kept s row) :
    Assigns cfg kept K (save row) fun _ _ => True := by
  apply tracks_of_triple (P := fun c => ∀ w, assigned c = some w → w = row)
    (fun _ => persistent_fit) hK _ _ (does_save hK hfit)
  · exact save_issues (fun w hw => (Option.some.inj hw).symm) fun _ w hw => by cases hw
  · exact fun c w t hc hKt hw => hc w hw ▸ hfit t hKt

theorem requireProduct_reads (id : JsStr) : (requireProduct id).Issues Reads := by
  apply Prog.issues_bind (Prog.issues_call trivial)
  intro rows
  apply Prog.issues_bind (Prog.issues_orThrow _ _)
  intro product
  apply Prog.issues_bind (Prog.issues_throwIf _ _)
  intro _
  exact Prog.issues_ret _

theorem resolveRecipient_reads (userId : JsStr) (explicit : Option JsStr) :
    (resolveRecipient userId explicit).Issues Reads := by
  unfold resolveRecipient
  split_ifs
  · apply Prog.issues_bind (Prog.issues_call trivial)
    intro wallets
    apply Prog.issues_bind (Prog.issues_throwIf _ _)
    intro _
    exact Prog.issues_ret _
  · apply Prog.issues_bind (Prog.issues_call trivial)
    intro wallets
    apply Prog.issues_bind (Prog.issues_throwIf _ _)
    intro _
    exact Prog.issues_ret _

theorem resolveMintImage_reads (req : Request) (product : CatalogProduct) :
    (resolveMintImage cfg req product).Issues Reads := by
  unfold resolveMintImage
  split
  · exact Prog.issues_ret _
  · apply Prog.issues_bind (Prog.issues_throwIf _ _)
    intro _
    apply Prog.issues_settle (Prog.issues_call trivial)
    intro r
    cases r with
    | ok fetched =>
      dsimp only
      split_ifs <;> exact Prog.issues_ret _
    | error err =>
      dsimp only
      split_ifs <;> exact Prog.issues_ret _

theorem afterRace_does (input : Claim) (err : Thrown) :
    Does cfg kept (fun _ => True) (afterRace input err)
      (fun row s => Fit cfg kept s row ∧ Claimed input row) := by
  apply triple_bind (triple_throwIf (G := fun _ => True) fun _ _ h => h)
  intro _
  apply triple_bind
  · exact does_perform (persistent_const True) fun _ _ => trivial
  intro raced
  apply triple_bind (F := fun row s =>
    Fit cfg kept s row ∧ row.userId = input.userId ∧ row.clientRequestId = input.clientRequestId)
  · exact triple_orThrow fun row hrow s hpost => hpost row hrow
  · intro row
    exact triple_ok fun s hs => reuse_spec hs.1 hs.2.1 hs.2.2

theorem claimRow_does (input : Claim) :
    Does cfg kept (fun _ => True) (claimRow input)
      (fun row s => Fit cfg kept s row ∧ Claimed input row) := by
  apply triple_bind
  · exact does_perform (persistent_const True) fun _ _ => trivial
  intro found
  cases found with
  | some existing =>
    refine triple_ok fun s hpost => ?_
    obtain ⟨hfit, huser, hrequest⟩ := hpost existing rfl
    exact reuse_spec hfit huser hrequest
  | none =>
    refine triple_conseq (K := fun _ => True) ?_ (fun _ _ => trivial) fun _ _ h => h
    apply triple_settle (persistent_const True)
    · exact does_perform (persistent_const True) fun _ _ => ⟨rfl, rfl, rfl⟩
    · intro row
      refine triple_ok fun s hpost => ?_
      obtain ⟨hfit, hrow⟩ := hpost
      refine ⟨hfit, ?_, ?_, fun _ => ?_⟩
      · rw [hrow]
        rfl
      · rw [hrow]
        rfl
      · rw [hrow]
        rfl
    · exact afterRace_does input

structure Unsubmitted (kept : List SealedBoxMint) (row : SealedBoxMint) : Prop where
  hash : truthy row.mintTxHash = false
  token : truthy row.tokenId = false
  status : row.status ≠ .minted
  free : ∀ k ∈ kept, k.id ≠ row.id

/-- The row with the hash of a transaction that was just submitted. -/
theorem Unsubmitted.noted (h : Unsubmitted kept row)
    (hs : s.Holds row.id row.userId row.clientRequestId) (txHash : JsStr) :
    Fit cfg kept s { row with mintTxHash := some txHash, status := .minting } where
  holds := hs
  submitted _ := .inl rfl
  backed htoken := by simp [h.token] at htoken
  reported hstatus := by cases hstatus
  kept k hk hid := absurd hid (h.free k hk)

theorem mintSteps (h : Unsubmitted kept row) (recipient : JsStr) :
    MintSteps exec Undisturbed (contract cfg kept)
      (fun s => s.Holds row.id row.userId row.clientRequestId) (mintOps row) recipient
      (fun txHash s => ⟨row.id, recipient, txHash⟩ ∈ s.sent)
      (fun txHash receipt s => ⟨row.id, txHash, receipt⟩ ∈ s.mined) where
  start := persistent_holds
  broadcast_persistent _ := persistent_of_later fun _ _ hl hs => hl.sent hs
  mined_persistent _ _ := persistent_of_later fun _ _ hl hs => hl.mined hs
  mint := does_perform persistent_holds fun _ _ => h.free
  onSubmitted txHash := by
    refine triple_conseq (K := fun s => s.Holds row.id row.userId row.clientRequestId)
      (does_save persistent_holds fun s hs => ?_) (fun _ hs => hs.2) fun _ _ _ => trivial
    exact h.noted hs txHash
  wait txHash := by
    apply does_perform
    · exact persistent_of_later fun _ _ hl hs => hl.sent hs
    · exact fun _ _ => trivial
  recordOwner _ := does_reads (persistent_const True) (Prog.issues_call trivial)
  sleep _ := does_reads persistent_holds (Prog.issues_call trivial)

theorem submit_does (h : Unsubmitted kept row) (recipient tokenUri vaultRef : JsStr) :
    Does cfg kept (fun s => s.Holds row.id row.userId row.clientRequestId)
      (submit row recipient tokenUri vaultRef) (fun minted s => s.MintedFor row.id minted) := by
  refine triple_settle persistent_holds (triple_mintTo (mintSteps h _))
    (fun _ => triple_ok fun _ hs => ?_) fun _ => triple_error
  obtain ⟨txHash, receipt, hsent, hmined, hread⟩ := hs
  exact ⟨_, hsent, _, hmined, rfl, rfl, rfl, hread⟩

/-- The commands of `submit`, and what they assign. -/
theorem submit_issues (recipient tokenUri vaultRef : JsStr) :
    (submit row recipient tokenUri vaultRef).Issues fun c => ∀ w, assigned c = some w →
      ∃ hash, w = { row with mintTxHash := some hash, status := .minting } := by
  have hattempt : ∀ to_, (mintAttempt (mintOps row) to_).Issues fun c => ∀ w, assigned c = some w →
      ∃ hash, w = { row with mintTxHash := some hash, status := .minting } := by
    intro to_
    apply Prog.issues_bind (Prog.issues_call fun w hw => by cases hw)
    intro txHash
    apply Prog.issues_bind
    · exact save_issues (fun w hw => ⟨txHash, (Option.some.inj hw).symm⟩) fun _ w hw => by cases hw
    intro _
    apply Prog.issues_bind (Prog.issues_call fun w hw => by cases hw)
    intro receipt
    apply Prog.issues_bind (Prog.issues_ret _)
    intro minted
    apply Prog.issues_bind (Prog.issues_call fun w hw => by cases hw)
    exact fun _ => Prog.issues_ret _
  have hretry : ∀ left attempt to_, (retryFrom (mintOps row).sleep
      (mintAttempt (mintOps row) to_) left attempt).Issues fun c => ∀ w, assigned c = some w →
        ∃ hash, w = { row with mintTxHash := some hash, status := .minting } := by
    intro left
    induction left with
    | zero => exact fun _ _ => Prog.issues_ret _
    | succ left ih =>
      intro attempt to_
      apply Prog.issues_settle (hattempt to_)
      intro r
      cases r with
      | ok minted => exact Prog.issues_ret _
      | error err =>
        dsimp only
        split_ifs
        · exact Prog.issues_ret _
        · apply Prog.issues_settle (Prog.issues_call fun w hw => by cases hw)
          exact fun _ => ih _ _
  apply Prog.issues_settle
  · unfold mintTo
    split
    · exact Prog.issues_ret _
    · apply Prog.issues_settle (hretry _ _ _)
      intro r
      cases r <;> exact Prog.issues_ret _
  · intro r
    cases r <;> exact Prog.issues_ret _

theorem submit_assigns (h : Unsubmitted kept row) (recipient tokenUri vaultRef : JsStr) :
    Assigns cfg kept (fun s => s.Holds row.id row.userId row.clientRequestId)
      (submit row recipient tokenUri vaultRef) (fun minted s => s.MintedFor row.id minted) := by
  apply tracks_of_triple (fun _ => persistent_fit) persistent_holds
    (submit_issues recipient tokenUri vaultRef) _ (submit_does h recipient tokenUri vaultRef)
  intro c w s hc hs hw
  obtain ⟨hash, rfl⟩ := hc w hw
  exact h.noted hs hash

def Store.RegistryHas (s : Store) (cfg : Config) (row : SealedBoxMint) : Prop :=
  ∃ tokenId, row.tokenId = some tokenId ∧ tokenId ≠ [] ∧ s.Registered cfg row.chainId tokenId

theorem writeRegistry_does :
    Does cfg kept (fun s => Fit cfg kept s row) (writeRegistry row)
      (fun _ s => s.RegistryHas cfg row) := by
  apply triple_bind (F := fun values s => registryValues row = some values ∧ Fit cfg kept s row)
  · exact triple_orThrow fun values hvalues s hs => ⟨hvalues, hs⟩
  intro values
  have hpers : (contract cfg kept).Persistent fun s =>
      registryValues row = some values ∧ Fit cfg kept s row :=
    persistent_and (persistent_const _) persistent_fit
  refine triple_conseq (triple_frame hpers (does_perform hpers fun _ _ => trivial))
    (fun s hs => ⟨hs, hs⟩) fun _ s hs => ?_
  obtain ⟨⟨token, htoken, hkey⟩, hvalues, hfit⟩ := hs
  obtain ⟨-, hid, hne⟩ := registryValues_eq_some hvalues
  exact ⟨values.tokenId, hid, hne, hfit.registered hvalues htoken hkey⟩

theorem writeRegistry_reads (row : SealedBoxMint) : (writeRegistry row).Issues Reads := by
  apply Prog.issues_bind (Prog.issues_orThrow _ _)
  exact fun values => Prog.issues_call trivial

theorem persistent_registryHas : (contract cfg kept).Persistent fun s => s.RegistryHas cfg row := by
  apply persistent_of_later
  rintro s t hst ⟨tokenId, hid, hne, hregistered⟩
  exact ⟨tokenId, hid, hne, hst.registered hregistered⟩

/-- The end of a mint: the row is saved as minted and read as the result. -/
def report (row : SealedBoxMint) : M SealedBoxMintResult := do
  save { row with status := .minted, errorMessage := none }
  .ret (toResult { row with status := .minted, errorMessage := none })

theorem fit_reported (hs : s.RegistryHas cfg row ∧ Fit cfg kept s row) :
    Fit cfg kept s { row with status := .minted, errorMessage := none } := by
  obtain ⟨⟨tokenId, hid, hne, hregistered⟩, hfit⟩ := hs
  exact hfit.complete hid hne hregistered

theorem report_does {req : Request} (huser : row.userId = req.userId)
    (hrequest : row.clientRequestId = req.clientRequestId) :
    Does cfg kept (fun s => s.RegistryHas cfg row ∧ Fit cfg kept s row) (report row)
      (fun res s => Reports cfg kept s req res) := by
  have hpers : (contract cfg kept).Persistent fun s => s.RegistryHas cfg row ∧ Fit cfg kept s row :=
    persistent_and persistent_registryHas persistent_fit
  apply triple_seq hpers
  · exact does_save hpers fun _ => fit_reported
  intro _
  refine triple_ret fun res hres s hs => ?_
  exact reports_of_minted (fit_reported hs.2) rfl huser hrequest hres

theorem report_assigns {req : Request} (huser : row.userId = req.userId)
    (hrequest : row.clientRequestId = req.clientRequestId) :
    Assigns cfg kept (fun s => s.RegistryHas cfg row ∧ Fit cfg kept s row) (report row)
      (fun res s => Reports cfg kept s req res) := by
  apply tracks_of_triple
    (P := fun c => ∀ w, assigned c = some w → w = { row with status := .minted, errorMessage := none })
    (fun _ => persistent_fit) (persistent_and persistent_registryHas persistent_fit)
  · refine Prog.issues_bind ?_ fun _ => Prog.issues_ret _
    exact save_issues (fun w hw => (Option.some.inj hw).symm) fun _ w hw => by cases hw
  · exact fun c w t hc hs hw => hc w hw ▸ fit_reported hs
  · exact report_does huser hrequest

structure Ready (cfg : Config) (kept : List SealedBoxMint) (row : SealedBoxMint)
    (uri contract : JsStr) : Prop extends Unsubmitted kept row where
  uri : row.tokenUri = some uri
  address : cfg.env.getRwaAddress row.chainId = .ok contract
  deployed : row.tokenContract = some contract
  minting : row.status = .minting

/-- What is known where the transaction has been mined. -/
structure Store.Mints (s : Store) (row : SealedBoxMint) (uri : JsStr) (minted : MintResult) :
    Prop where
  holds : s.Holds row.id row.userId row.clientRequestId
  pinned : s.PinnedFor row.id row.productName uri
  mined : s.MintedFor row.id minted

theorem Ready.token_fit {uri address : JsStr} (h : Ready cfg kept row uri address)
    {minted : MintResult} (hs : s.Mints row uri minted) (hnumbered : 1 ≤ minted.tokenId) :
    Fit cfg kept s { row with
      tokenId := some (ofNat minted.tokenId), mintTxHash := some minted.txHash } where
  holds := hs.holds
  submitted _ := .inl h.minting
  backed _ := ⟨minted, uri, address, hs.mined, hs.pinned, h.address, hnumbered, rfl, rfl, h.uri,
    h.deployed⟩
  reported hstatus := absurd hstatus h.status
  kept k hk hid := absurd hid (h.free k hk)

theorem finish_assigns {req : Request} {uri address : JsStr} {minted : MintResult}
    (h : Ready cfg kept row uri address) (huser : row.userId = req.userId)
    (hrequest : row.clientRequestId = req.clientRequestId) :
    Assigns cfg kept (fun s => s.Mints row uri minted) (finish row minted)
      (fun res s => Reports cfg kept s req res) := by
  have hmints : (contract cfg kept).Persistent fun s => s.Mints row uri minted :=
    persistent_of_later fun _ _ hl hs =>
      ⟨hl.holds _ _ _ hs.holds, hl.pinnedFor hs.pinned, hl.mintedFor hs.mined⟩
  apply tracks_seq hmints (F := fun _ _ => 1 ≤ minted.tokenId)
  · apply assigns_silent hmints (Prog.issues_throwIf _ _)
    refine triple_throwIf fun hb s _ => ?_
    have hlt := of_decide_eq_false hb
    omega
  intro _
  have hnumbered : (contract cfg kept).Persistent fun s =>
      1 ≤ minted.tokenId ∧ s.Mints row uri minted := persistent_and (persistent_const _) hmints
  apply tracks_seq hnumbered
  · exact assigns_save hnumbered fun s hs => h.token_fit hs.2 hs.1
  intro _
  refine tracks_conseq (K := fun s => Fit cfg kept s { row with
    tokenId := some (ofNat minted.tokenId), mintTxHash := some minted.txHash }) ?_
    (fun s hs => h.token_fit hs.2.2 hs.2.1) fun _ _ hF => hF
  apply tracks_seq persistent_fit
  · exact tracks_of_triple (fun _ => persistent_fit) persistent_fit (writeRegistry_reads _)
      (fun c w t hc _ hw => absurd hw (not_assigned_of_reads hc)) writeRegistry_does
  exact fun _ => report_assigns huser hrequest

/-- A part whose answer nothing is known of. -/
theorem assigns_then {p : M β} {f : β → M α} (hK : (contract cfg kept).Persistent K)
    (hp : Assigns cfg kept K p F₂) (hf : ∀ a, Assigns cfg kept K (f a) F) :
    Assigns cfg kept K (p >>= f) F := by
  apply tracks_seq hK hp
  exact fun a => tracks_conseq (hf a) (fun _ hs => hs.2) fun _ _ hF => hF

/-- The mint of a row that has been saved with all that the token needs. -/
theorem submit_finish_assigns {req : Request} {uri vaultRef recipient : JsStr} (address : JsStr)
    (h : Ready cfg kept row uri address) (huser : row.userId = req.userId)
    (hrequest : row.clientRequestId = req.clientRequestId) :
    Assigns cfg kept
      (fun s => s.PinnedFor row.id row.productName uri ∧
        s.Holds row.id row.userId row.clientRequestId)
      (submit row recipient uri vaultRef >>= finish row)
      (fun res s => Reports cfg kept s req res) := by
  have hpers : (contract cfg kept).Persistent fun s => s.PinnedFor row.id row.productName uri ∧
      s.Holds row.id row.userId row.clientRequestId :=
    persistent_and (persistent_of_later fun _ _ hl => hl.pinnedFor) persistent_holds
  apply tracks_seq hpers
  · exact tracks_conseq (submit_assigns h.toUnsubmitted recipient uri vaultRef) (fun _ hs => hs.2)
      fun _ _ hF => hF
  intro minted
  exact tracks_conseq (finish_assigns h huser hrequest) (fun _ hs => ⟨hs.2.2, hs.2.1, hs.1⟩)
    fun _ _ hF => hF

theorem mintBox_assigns {req : Request} {product : CatalogProduct} (recipient : JsStr)
    (h : Unsubmitted kept row) (hchain : row.chainId = req.chainId)
    (huser : row.userId = req.userId) (hrequest : row.clientRequestId = req.clientRequestId) :
    Assigns cfg kept (fun s => s.Holds row.id row.userId row.clientRequestId)
      (mintBox cfg req product recipient row) (fun res s => Reports cfg kept s req res) := by
  apply tracks_seq persistent_holds
  · exact assigns_reads persistent_holds (resolveMintImage_reads req product)
  intro image
  refine tracks_conseq (K := fun s => s.Holds row.id row.userId row.clientRequestId) ?_
    (fun _ hs => hs.2) fun _ _ hF => hF
  apply assigns_then persistent_holds
  · exact assigns_perform persistent_holds fun _ _ => trivial
  intro photo
  apply assigns_then persistent_holds
  · exact assigns_save persistent_holds fun s hs => fit_of_blank hs h.hash h.token h.status h.free
  intro _
  apply assigns_then persistent_holds
  · exact assigns_perform persistent_holds fun _ _ => trivial
  intro imageCid
  apply tracks_seq persistent_holds
  · exact assigns_perform persistent_holds fun _ _ => trivial
  intro metadataCid
  -- from here on the metadata of the token is pinned
  refine tracks_conseq (K := fun s => s.PinnedFor row.id row.productName
    (js "ipfs://" ++ metadataCid) ∧ s.Holds row.id row.userId row.clientRequestId) ?_
    (fun s hs => ⟨⟨_, hs.1, rfl, rfl, rfl⟩, hs.2⟩) fun _ _ hF => hF
  have hpers : (contract cfg kept).Persistent fun s => s.PinnedFor row.id row.productName
      (js "ipfs://" ++ metadataCid) ∧ s.Holds row.id row.userId row.clientRequestId :=
    persistent_and (persistent_of_later fun _ _ hl => hl.pinnedFor) persistent_holds
  apply assigns_then hpers
  · exact assigns_save hpers fun s hs => fit_of_blank hs.2 h.hash h.token h.status h.free
  intro _
  apply tracks_seq hpers (F := fun address _ => cfg.env.getRwaAddress req.chainId = .ok address)
  · apply assigns_silent hpers (Prog.issues_ret _)
    refine triple_ret fun address haddress s _ => ?_
    cases hget : cfg.env.getRwaAddress req.chainId with
    | ok found =>
      rw [hget] at haddress
      exact congrArg Except.ok (Except.ok.inj haddress)
    | error e =>
      rw [hget] at haddress
      cases haddress
  intro address
  have hpers' := persistent_and (persistent_const (Γ := contract cfg kept)
    (cfg.env.getRwaAddress req.chainId = .ok address)) hpers
  apply assigns_then hpers'
  · exact assigns_save hpers' fun s hs => fit_of_blank hs.2.2 h.hash h.token (by simp) h.free
  intro _
  apply tracks_of_fact
  intro haddress
  refine tracks_conseq (submit_finish_assigns address ?_ ?_ ?_) (fun _ hs => hs) fun _ _ hF => hF
  · exact ⟨⟨h.hash, h.token, by simp, h.free⟩, rfl, hchain ▸ haddress, rfl, rfl⟩
  · exact huser
  · exact hrequest

theorem fail_does (err : Thrown) :
    Does cfg kept (fun s => Fit cfg kept s row) (fail row err : M α) F := by
  apply triple_bind (F := fun _ _ => True)
  · exact does_save persistent_fit fun s hs => hs.reset _
  · exact fun _ => triple_error

/-- A row that nothing was submitted for, unless its call returns or throws before it mints. -/
theorem unsubmitted_of_fit (hkept : ∀ k ∈ kept, truthy k.mintTxHash = true)
    (hfit : Fit cfg kept s row) (hboth : (truthy row.tokenId && truthy row.mintTxHash) = false)
    (hminting : (decide (row.status = .minting) && truthy row.mintTxHash) = false) :
    Unsubmitted kept row := by
  have htoken : truthy row.tokenId = false := by
    by_contra htoken
    rw [Bool.not_eq_false] at htoken
    simp [htoken, hfit.submitted_of_token htoken] at hboth
  have hstatus : row.status ≠ .minted := by
    intro hstatus
    obtain ⟨tokenId, hid, hne, -⟩ := hfit.reported hstatus
    simp [hid, truthy, hne] at htoken
  have hhash : truthy row.mintTxHash = false := by
    by_contra hhash
    rw [Bool.not_eq_false] at hhash
    rcases hfit.submitted hhash with hst | hst
    · simp [hst, hhash] at hminting
    · exact hstatus hst
  refine ⟨hhash, htoken, hstatus, fun k hk hid => ?_⟩
  have hk' := hkept k hk
  rw [← (hfit.kept k hk hid).1, hhash] at hk'
  cases hk'

theorem proceed_does (hkept : ∀ k ∈ kept, truthy k.mintTxHash = true) {req : Request}
    {product : CatalogProduct} {recipient : JsStr} (huser : row.userId = req.userId)
    (hrequest : row.clientRequestId = req.clientRequestId)
    (hchain : alreadySubmitted (some row) = false → row.chainId = req.chainId) :
    Does cfg kept (fun s => Fit cfg kept s row) (proceed cfg req product recipient row)
      (fun res s => Reports cfg kept s req res) := by
  unfold proceed
  split_ifs with hreported hboth hminting
  · refine triple_ret fun res hres s hs => reports_of_minted hs ?_ huser hrequest hres
    simp only [isReported, Bool.and_eq_true, decide_eq_true_eq] at hreported
    exact hreported.1.1.1.1
  · apply triple_seq persistent_fit writeRegistry_does
    exact fun _ => report_does huser hrequest
  · exact triple_error
  · intro i s hs
    have h := unsubmitted_of_fit hkept hs (Bool.not_eq_true _ ▸ hboth)
      (Bool.not_eq_true _ ▸ hminting)
    have hchain' : row.chainId = req.chainId := by
      apply hchain
      simp [alreadySubmitted, h.hash, h.token, h.status]
    refine triple_recollect (mintBox_assigns recipient h hchain' huser hrequest) ?_ ?_ i s
      ⟨hs.holds, hs⟩
    · exact fun _ _ => triple_ok fun _ hs => hs
    · exact fun _ err => fail_does err

theorem mintForPartner_does (hkept : ∀ k ∈ kept, truthy k.mintTxHash = true) (req : Request) :
    Does cfg kept (fun _ => True) (mintForPartner cfg req)
      (fun res s => Reports cfg kept s req res) := by
  have htrue : (contract cfg kept).Persistent fun _ => True := persistent_const True
  apply triple_bind (does_reads htrue (requireProduct_reads _))
  intro product
  apply triple_bind
  · exact triple_conseq (does_perform htrue fun _ _ => trivial) (fun _ hs => hs)
      fun _ _ _ => trivial
  intro existing
  apply triple_bind (triple_throwIf fun _ _ hs => hs)
  intro _
  apply triple_bind
  · exact does_reads htrue (Prog.issues_call trivial)
  intro partnerId
  apply triple_bind (does_reads htrue (resolveRecipient_reads _ _))
  intro recipient
  apply triple_bind
  · exact does_reads htrue (Prog.issues_call trivial)
  intro _
  apply triple_bind (claimRow_does _)
  intro row i s hs
  exact proceed_does hkept hs.2.user hs.2.request hs.2.chain i s hs.1

end Programs

section Runs
variable {cfg : Config} {kept : List SealedBoxMint}

def Ends (cfg : Config) (kept : List SealedBoxMint) (_ : ℕ)
    (r : Except Thrown (Request × SealedBoxMintResult)) (s : Store) : Prop :=
  ∀ a, r = .ok a → Reports cfg kept s a.1 a.2

theorem stablePost_ends : (contract cfg kept).StablePost (Ends cfg kept) :=
  fun _ _ _ _ hst h a ha => hst.reports (h a ha)

theorem safe_calls (hkept : ∀ k ∈ kept, truthy k.mintTxHash = true) {s : Store}
    (hs : Sound cfg kept s) {p : Pool Store Cmd Res Thrown (Request × SealedBoxMintResult)}
    (hp : Pool.Reach exec (call cfg) Undisturbed ⟨s, []⟩ p) :
    Pool.Safe exec Undisturbed (contract cfg kept) (Ends cfg kept) p ∧ Later kept s p.shared := by
  have hcall : ∀ req i s, (contract cfg kept).inv s →
      wp exec Undisturbed (contract cfg kept) i (call cfg req) (Ends cfg kept i) s := by
    intro req i s _
    refine triple_bind (mintForPartner_does hkept req) ?_ i s trivial
    exact fun res => triple_ok fun s hs => hs
  have hsafe : Pool.Safe exec Undisturbed (contract cfg kept) (Ends cfg kept) ⟨s, []⟩ :=
    Pool.safe_nil hs
  refine ⟨Pool.safe_reach stablePost_ends hcall hp hsafe, ?_⟩
  exact Pool.evolves_of_reach stablePost_ends hcall Later.refl (fun _ _ _ => Later.trans)
    (fun _ _ _ h => h) hsafe hp

theorem sound_empty : Sound cfg [] {} where
  fit _ hrow := by cases hrow
  single _ hrow := by cases hrow
  held _ hk := by cases hk

/-- After a restart of the process, with one of the stored rows kept. -/
theorem sound_restart {s : Store} (hs : Sound cfg [] s) {row : SealedBoxMint}
    (hrow : row ∈ s.mints.rows) : Sound cfg [row] s where
  fit r hr := by
    have hfit := hs.fit r hr
    refine ⟨hfit.holds, hfit.submitted, hfit.backed, hfit.reported, fun k hk hid => ?_⟩
    obtain rfl := List.mem_singleton.mp hk
    obtain rfl := List.inj_on_of_nodup_map s.mints.nodup hrow hr hid
    exact ⟨rfl, rfl⟩
  single := hs.single
  held k hk := ⟨row, hrow, congrArg SealedBoxMint.id (List.mem_singleton.mp hk).symm⟩

/-- In every interleaving of calls, whatever fails, a call that returns names the row of its request
and a token read off the receipt of a transaction that was broadcast for this row. The token carries
metadata pinned for the row under the name of its product, and the registry has it. -/
theorem mint_truthful {p : Pool Store Cmd Res Thrown (Request × SealedBoxMintResult)}
    (hp : Pool.Reach exec (call cfg) Undisturbed ⟨{}, []⟩ p) {i : ℕ} {req : Request}
    {res : SealedBoxMintResult} (hi : p.tasks[i]? = some (.ret (.ok (req, res)))) :
    Truthful cfg p.shared req res :=
  ((safe_calls (fun k hk => by cases hk) sound_empty hp).1.ended hi _ rfl).1

/-- Once the hash of a transaction is stored for a request and the process has started again, no
call broadcasts another one for the request, in any interleaving and whatever fails. Its row keeps
the transaction and the token, and a call of the request that returns reports these. -/
theorem submitted_once {p q : Pool Store Cmd Res Thrown (Request × SealedBoxMintResult)}
    (hp : Pool.Reach exec (call cfg) Undisturbed ⟨{}, []⟩ p) {row : SealedBoxMint}
    (hrow : row ∈ p.shared.mints.rows) (hsubmitted : truthy row.mintTxHash = true)
    (hq : Pool.Reach exec (call cfg) Undisturbed ⟨p.shared, []⟩ q) :
    (q.shared.sent.filter fun x => x.box = row.id) = (p.shared.sent.filter fun x =>
      x.box = row.id) ∧
      (∃ row' ∈ q.shared.mints.rows, row'.id = row.id ∧ row'.mintTxHash = row.mintTxHash ∧
        row'.tokenId = row.tokenId) ∧
      ∀ (i : ℕ) (req : Request) (res : SealedBoxMintResult),
        q.tasks[i]? = some (.ret (.ok (req, res))) → req.userId = row.userId →
          req.clientRequestId = row.clientRequestId →
          row.tokenId = some res.tokenId ∧ row.mintTxHash = some res.txHash := by
  have hsound : Sound cfg [] p.shared :=
    (safe_calls (fun k hk => by cases hk) sound_empty hp).1.inv
  obtain ⟨hsafe, hlater⟩ := safe_calls
    (fun k hk => by rw [List.mem_singleton.mp hk, hsubmitted]) (sound_restart hsound hrow) hq
  have hinv : Sound cfg [row] q.shared := hsafe.inv
  obtain ⟨row', hrow', hid, huser, hrequest⟩ :=
    hlater.holds row.id row.userId row.clientRequestId ⟨row, hrow, rfl, rfl, rfl⟩
  refine ⟨hlater.quiet row (List.mem_singleton_self row), ⟨row', hrow', hid, ?_⟩, ?_⟩
  · exact (hinv.fit row' hrow').kept row (List.mem_singleton_self row) hid.symm
  · intro i req res hi hu hc
    obtain ⟨htruthful, hkept⟩ := hsafe.ended hi _ rfl
    obtain ⟨r, hr, hrid, hruser, hrrequest⟩ := htruthful.own
    -- the result is of the row of the request
    have hsame : row'.id = r.id := by
      apply hinv.single row' hrow' r hr
      · rw [huser, hruser, hu]
      · rw [hrequest, hrrequest, hc]
    apply hkept row (List.mem_singleton_self row)
    rw [← hid, hsame, hrid]

end Runs

section Schedules

def boxCfg : Config :=
  { env := { rwaAddresses := [(1, js "0x00000000000000000000000000000000000000aa")] }
    keccak := fun s => js "0x" ++ s
    pinataGateway := js "gateway.example"
    protocol := fun _ => none }

def boxRequest : Request :=
  { userId := js "u1"
    chainId := 1
    pricechartingProductId := js "77"
    clientRequestId := js "r1"
    file := some ⟨[1], js "image/png"⟩ }

def boxProduct : ProductRow := ⟨js "77", some (js "Booster Box"), none, none, none⟩

def boxWallet : LinkedWallet := ⟨js "0x00000000000000000000000000000000000000bb", true⟩

def claimAnswers (id : String) : List Answer :=
  [{ product := some boxProduct }, {}, { partnerId := js "p1" }, { wallets := [boxWallet] }, {}, {},
    { text := js id }]

/-- From the claim to the save of the transaction's hash. -/
def submitAnswers (txHash : String) : List Answer :=
  [{ photo := (js "key", js "https://cdn.example/box") }, {}, {}, { text := js "image" },
    { text := js "meta" }, {}, {}, {}, {}, { text := js txHash }, {}, {}]

def mintReceipt (txHash : String) (tokenId : ℕ) : Option Receipt :=
  some ⟨some (js txHash), [.transfer zeroAddress tokenId]⟩

def minedAnswers (txHash : String) (tokenId : ℕ) : List Answer :=
  { receipt := mintReceipt txHash tokenId } :: List.replicate 6 {}

def stepsOf (i : ℕ) (xs : List Answer) : List (Pool.Event Request Answer) := xs.map (.run i)

abbrev Calls := Pool Store Cmd Res Thrown (Request × SealedBoxMintResult)

def resultOf (p : Calls) (i : ℕ) : Option (JsStr × JsStr) :=
  match p.tasks[i]? with
  | some (.ret (.ok (_, res))) => some (res.tokenId, res.txHash)
  | _ => none

/-- Two calls of one request claim the row before either submits, and each mints a token. -/
def twoCalls : List (Pool.Event Request Answer) :=
  [.spawn boxRequest, .spawn boxRequest] ++ stepsOf 0 (claimAnswers "b1") ++
    stepsOf 1 ((claimAnswers "").take 6) ++ stepsOf 0 (submitAnswers "0xt1") ++
    stepsOf 1 (submitAnswers "0xt2") ++ stepsOf 0 (minedAnswers "0xt1" 1) ++
    stepsOf 1 (minedAnswers "0xt2" 2)

def twoResults (p : Calls) : List (Option (JsStr × JsStr)) := [resultOf p 0, resultOf p 1]

theorem settled_of_resultOf {p : Calls} {i : ℕ} {x : JsStr × JsStr} (h : resultOf p i = some x) :
    ∃ req res, p.tasks[i]? = some (.ret (.ok (req, res))) ∧ (res.tokenId, res.txHash) = x := by
  unfold resultOf at h
  split at h
  · rename_i req res hi
    exact ⟨req, res, hi, Option.some.inj h⟩
  · cases h

theorem mint_truthful_twoCalls : ∃ p, Pool.Reach exec (call boxCfg) Undisturbed ⟨{}, []⟩ p ∧
    twoResults p = [some (js "1", js "0xt1"), some (js "2", js "0xt2")] ∧
    ∃ req res, (res.tokenId, res.txHash) = (js "2", js "0xt2") ∧
      Truthful boxCfg p.shared req res := by
  obtain ⟨p, hp, hresults⟩ : ∃ p, Pool.Reach exec (call boxCfg) Undisturbed ⟨{}, []⟩ p ∧
      twoResults p = [some (js "1", js "0xt1"), some (js "2", js "0xt2")] :=
    Pool.exists_reach_of_runSchedule twoCalls twoResults (by decide +kernel)
  have hsecond : resultOf p 1 = some (js "2", js "0xt2") :=
    (List.cons.inj (List.cons.inj hresults).2).1
  obtain ⟨req, res, hi, hres⟩ := settled_of_resultOf hsecond
  exact ⟨p, hp, hresults, req, res, hres, mint_truthful hp hi⟩

/-- The process dies once the hash is stored, and the client repeats the request. -/
def stoppedCall : List (Pool.Event Request Answer) :=
  [.spawn boxRequest] ++ stepsOf 0 (claimAnswers "b1") ++ stepsOf 0 (submitAnswers "0xt1")

def repeatedCall : List (Pool.Event Request Answer) :=
  [.spawn boxRequest] ++ stepsOf 0 ((claimAnswers "").take 6)

def hashes (p : Calls) : List (JsStr × Option JsStr) :=
  p.shared.mints.rows.map fun row => (row.id, row.mintTxHash)

def conflicts (p : Calls) : Bool :=
  match p.tasks.head? with
  | some (.ret (.error err)) => decide (err = Thrown.ofHttp alreadySubmittedConflict)
  | _ => false

theorem submitted_once_repeated : ∃ p q, Pool.Reach exec (call boxCfg) Undisturbed ⟨{}, []⟩ p ∧
    Pool.Reach exec (call boxCfg) Undisturbed ⟨p.shared, []⟩ q ∧ conflicts q = true ∧
    (p.shared.sent.filter fun x => x.box = js "b1").length = 1 ∧
    (q.shared.sent.filter fun x => x.box = js "b1") =
      p.shared.sent.filter fun x => x.box = js "b1" := by
  have hruns : ((Pool.runSchedule exec (call boxCfg) Undisturbed stoppedCall ⟨{}, []⟩).bind fun p =>
      (Pool.runSchedule exec (call boxCfg) Undisturbed repeatedCall ⟨p.shared, []⟩).map fun q =>
        (hashes p, (p.shared.sent.filter fun x => x.box = js "b1").length, conflicts q)) =
      some ([(js "b1", some (js "0xt1"))], 1, true) := by decide +kernel
  obtain ⟨p, hp, hrest⟩ := Option.bind_eq_some_iff.mp hruns
  obtain ⟨q, hq, hview⟩ := Option.map_eq_some_iff.mp hrest
  obtain ⟨hhashes, hsent, hconflict⟩ : hashes p = [(js "b1", some (js "0xt1"))] ∧
      (p.shared.sent.filter fun x => x.box = js "b1").length = 1 ∧ conflicts q = true := by
    simpa using hview
  have hpreach := Pool.reach_of_runSchedule hp
  have hqreach := Pool.reach_of_runSchedule hq
  obtain ⟨row, hrow, hview⟩ : ∃ row ∈ p.shared.mints.rows,
      (row.id, row.mintTxHash) = (js "b1", some (js "0xt1")) := by
    apply List.mem_map.mp
    rw [show p.shared.mints.rows.map (fun row => (row.id, row.mintTxHash)) = hashes p from rfl,
      hhashes]
    exact List.mem_singleton_self _
  obtain ⟨hid, hhash⟩ := Prod.mk.inj hview
  have honce := submitted_once hpreach hrow (by rw [hhash]; rfl) hqreach
  refine ⟨p, q, hpreach, hqreach, hconflict, hsent, ?_⟩
  rw [← hid]
  exact honce.1

/-- A call of the same request fails meanwhile. It selects the row before the hash is stored, and updates
its status after that. -/
def tornSave : List (Pool.Event Request Answer) :=
  [.spawn boxRequest, .spawn boxRequest] ++ stepsOf 0 (claimAnswers "b1") ++
    stepsOf 1 ((claimAnswers "").take 6) ++ stepsOf 0 ((submitAnswers "0xt1").take 10) ++
    stepsOf 1 [{ fate := .failed (.primitive (js "S3")) }, {}] ++ stepsOf 0 [{}, {}] ++
    stepsOf 1 [{}]

/-- Where such a save is not excluded, the request that is repeated sends another transaction. -/
theorem submitted_again_after_torn_save : ∃ p q,
    Pool.Reach exec (call boxCfg) anyStep ⟨{}, []⟩ p ∧
    Pool.Reach exec (call boxCfg) anyStep ⟨p.shared, []⟩ q ∧
    hashes p = [(js "b1", some (js "0xt1"))] ∧
    (p.shared.sent.filter fun x => x.box = js "b1").length = 1 ∧
    (q.shared.sent.filter fun x => x.box = js "b1").length = 2 := by
  have hruns : ((Pool.runSchedule exec (call boxCfg) anyStep tornSave ⟨{}, []⟩).bind fun p =>
      (Pool.runSchedule exec (call boxCfg) anyStep
        (repeatedCall ++ stepsOf 0 (submitAnswers "0xt2")) ⟨p.shared, []⟩).map fun q =>
        (hashes p, (p.shared.sent.filter fun x => x.box = js "b1").length,
          (q.shared.sent.filter fun x => x.box = js "b1").length)) =
      some ([(js "b1", some (js "0xt1"))], 1, 2) := by decide +kernel
  obtain ⟨p, hp, hrest⟩ := Option.bind_eq_some_iff.mp hruns
  obtain ⟨q, hq, hview⟩ := Option.map_eq_some_iff.mp hrest
  obtain ⟨hhashes, hview⟩ := Prod.mk.inj hview
  obtain ⟨hsent, hagain⟩ := Prod.mk.inj hview
  exact ⟨p, q, Pool.reach_of_runSchedule hp, Pool.reach_of_runSchedule hq, hhashes, hsent, hagain⟩

end Schedules

end SealedBox
