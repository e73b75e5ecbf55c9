import Tokenable.Async.Crash
import Tokenable.Custody.Intake

/-!
# What confirmations record

Calls of `confirmCustodyTransfers` one after the other, each of which may fail or be stopped anywhere,
while users move NFTs on the chain. An `Intake` records whether custody owned the NFT of a row when the
row was set to `in_custody`, and `overwritten` the rows in custody that were written again.
-/

namespace Custody
open Js Platform Async Vault Redeem

structure Intake where
  redemptionId : JsStr
  heldByCustody : Bool
  deriving DecidableEq

structure Watched where
  store : Store
  intakes : List Intake := []
  overwritten : List JsStr := []

structure Turn where
  moves : List (Nft × JsStr) := []
  answer : Answer

namespace Store

def row (s : Store) (id : JsStr) : Option VaultRedemption := s.db.redemptions.get id

def statusOf (s : Store) (id : JsStr) : Option RedemptionStatus :=
  (s.row id).map VaultRedemption.status

/-- The chain of a redemption: its own, or that of its cycle. -/
def chainOf (s : Store) (id : JsStr) : Option ℕ :=
  (s.row id).bind fun r => (s.db.cycles.get r.vaultCycleId).map fun c => r.chainId.getD c.chainId

def tokenOf (s : Store) (id : JsStr) : Option ℕ :=
  ((s.tokenIdForRedemption id).filter fun t => !t.isEmpty).bind toNumber

def InCustody (cfg : Config) (s : Store) (id : JsStr) : Prop :=
  ∃ chainId ∈ s.chainOf id, ∃ tokenId ∈ s.tokenOf id,
    s.owner (chainId, tokenId) = some (cfg.custodyWallet chainId)

instance (cfg : Config) (s : Store) (id : JsStr) : Decidable (s.InCustody cfg id) := by
  unfold InCustody
  infer_instance

variable (cfg : Config)

def userTransfers (s : Store) (moves : List (Nft × JsStr)) : Store :=
  moves.foldl (fun s m => s.userTransfer cfg m.1 m.2) s

/-- The rows that a command sets to `in_custody`. -/
def intakesOf (s : Store) : Cmd → List Intake
  | .redeem (.saveRedemptions rows) =>
    ((rows.map Prod.snd).filter fun r => r.status = .inCustody ∧
      s.statusOf r.id ≠ some .inCustody).map fun r => ⟨r.id, decide (s.InCustody cfg r.id)⟩
  | _ => []

def overwrittenBy (s : Store) : Cmd → List JsStr
  | .redeem (.saveRedemptions rows) =>
    (rows.map fun p => p.2.id).filter fun id => s.statusOf id = some .inCustody
  | _ => []

end Store

def confirming (cfg : Config) : SerialHandler Watched Turn (LockCmd JsStr ⊕ Cmd) (LockRes JsStr Res)
  | s, _, .inl _ => ((), s)
  | s, x, .inr c =>
    let u := s.store.userTransfers cfg x.moves
    ((exec cfg u x.answer c).1,
      ⟨(exec cfg u x.answer c).2, s.intakes ++ u.intakesOf cfg c, s.overwritten ++ u.overwrittenBy c⟩)

section Received
variable {cfg : Config} {ids ids' : List JsStr} {s t u : Store} {id : JsStr}

/-- From `s` to `t` some of the rows with these ids were received, and users moved NFTs. -/
structure Received (cfg : Config) (ids : List JsStr) (s t : Store) : Prop where
  cycles : t.db.cycles = s.db.cycles
  tokens : t.db.tokens = s.db.tokens
  assets : t.assets = s.assets
  custody : ∀ nft, s.owner nft = some (cfg.custodyWallet nft.1) →
    t.owner nft = some (cfg.custodyWallet nft.1)
  rows : ∀ id, t.row id = s.row id ∨ id ∈ ids ∧ ∃ r txHash at_, s.row id = some r ∧
    r.status = .ownershipVerified ∧ t.row id = some (received r txHash at_)

theorem Received.refl : Received cfg ids s s :=
  ⟨rfl, rfl, rfl, fun _ h => h, fun _ => .inl rfl⟩

theorem Received.trans (h : Received cfg ids s t) (h' : Received cfg ids t u) :
    Received cfg ids s u := by
  refine ⟨h'.cycles.trans h.cycles, h'.tokens.trans h.tokens, h'.assets.trans h.assets,
    fun nft hnft => h'.custody nft (h.custody nft hnft), fun id => ?_⟩
  rcases h'.rows id with heq | ⟨hid, r, txHash, at_, hr, hstatus, hu⟩
  · rcases h.rows id with heq' | ⟨hid, r, txHash, at_, hr, hstatus, ht⟩
    · exact .inl (heq.trans heq')
    · exact .inr ⟨hid, r, txHash, at_, hr, hstatus, heq.trans ht⟩
  · rcases h.rows id with heq' | ⟨-, r', txHash', at_', hr', hstatus', ht⟩
    · exact .inr ⟨hid, r, txHash, at_, heq'.symm.trans hr, hstatus, hu⟩
    · rw [hr, Option.some.injEq] at ht
      rw [ht] at hstatus
      cases hstatus

theorem Received.mono (hids : ids ⊆ ids') (h : Received cfg ids s t) : Received cfg ids' s t := by
  refine ⟨h.cycles, h.tokens, h.assets, h.custody, fun id => ?_⟩
  rcases h.rows id with heq | ⟨hid, hrow⟩
  · exact .inl heq
  · exact .inr ⟨hids hid, hrow⟩

/-- Being received changes neither the cycle nor the chain of a row. -/
theorem Received.chainOf (h : Received cfg ids s t) : t.chainOf id = s.chainOf id := by
  rw [Store.chainOf, Store.chainOf, h.cycles]
  rcases h.rows id with heq | ⟨-, r, txHash, at_, hr, -, ht⟩
  · rw [heq]
  · rw [hr, ht]
    rfl

theorem Received.tokenIdForRedemption (h : Received cfg ids s t) :
    t.tokenIdForRedemption id = s.tokenIdForRedemption id := by
  unfold Store.tokenIdForRedemption
  rw [h.cycles, h.tokens, h.assets]
  rcases h.rows id with heq | ⟨-, r, txHash, at_, hr, -, ht⟩
  · change t.db.redemptions.get id = s.db.redemptions.get id at heq
    rw [heq]
  · change s.db.redemptions.get id = some r at hr
    change t.db.redemptions.get id = some (received r txHash at_) at ht
    rw [hr, ht]
    rfl

theorem Received.tokenOf (h : Received cfg ids s t) : t.tokenOf id = s.tokenOf id := by
  rw [Store.tokenOf, Store.tokenOf, h.tokenIdForRedemption]

theorem Received.inCustody (h : Received cfg ids s t) (hs : s.InCustody cfg id) :
    t.InCustody cfg id := by
  obtain ⟨chainId, hchain, tokenId, htoken, howner⟩ := hs
  refine ⟨chainId, ?_, tokenId, ?_, h.custody _ howner⟩
  · rw [h.chainOf]
    exact hchain
  · rw [h.tokenOf]
    exact htoken

/-- A row in custody is left as it is. -/
theorem Received.row_of_inCustody (h : Received cfg ids s t) {r : VaultRedemption}
    (hr : s.row id = some r) (hstatus : r.status = .inCustody) : t.row id = some r := by
  rcases h.rows id with heq | ⟨-, r', txHash, at_, hr', hstatus', -⟩
  · rw [heq, hr]
  · rw [hr, Option.some.injEq] at hr'
    rw [← hr', hstatus] at hstatus'
    cases hstatus'

theorem Received.statusOf (h : Received cfg ids s t) (hs : s.statusOf id = some .inCustody) :
    t.statusOf id = some .inCustody := by
  obtain ⟨r, hr, hstatus⟩ := Option.map_eq_some_iff.mp hs
  rw [Store.statusOf, h.row_of_inCustody hr hstatus, Option.map_some, hstatus]

theorem Received.row_of_not_mem (h : Received cfg ids s t) (hid : id ∉ ids) : t.row id = s.row id := by
  rcases h.rows id with heq | ⟨hmem, -⟩
  · exact heq
  · exact absurd hmem hid

theorem userTransfer_received {nft : Nft} {to_ : JsStr} :
    Received cfg ids s (s.userTransfer cfg nft to_) := by
  unfold Store.userTransfer
  split_ifs with hkept
  · exact Received.refl
  · rw [not_or] at hkept
    refine ⟨rfl, rfl, rfl, fun other hother => ?_, fun _ => .inl rfl⟩
    have hne : other ≠ nft := by
      rintro rfl
      exact hkept.2 hother
    exact (Function.update_of_ne hne _ _).trans hother

theorem userTransfer_db {nft : Nft} {to_ : JsStr} : (s.userTransfer cfg nft to_).db = s.db := by
  unfold Store.userTransfer
  split_ifs <;> rfl

theorem userTransfers_received {moves : List (Nft × JsStr)} :
    Received cfg ids s (s.userTransfers cfg moves) := by
  induction moves generalizing s with
  | nil => exact Received.refl
  | cons m moves ih => exact userTransfer_received.trans ih

theorem userTransfers_db {moves : List (Nft × JsStr)} : (s.userTransfers cfg moves).db = s.db := by
  induction moves generalizing s with
  | nil => rfl
  | cons m moves ih => exact ih.trans userTransfer_db

end Received

section Steps
variable {cfg : Config} {Ok : AllowedStep Watched Turn (LockCmd JsStr ⊕ Cmd)} {ids : List JsStr}
  {s : Store} {w u : Watched} {id : JsStr} {α β : Type}

/-- Since the store `s` some of the rows were received, custody owned the NFT of each row that was, and
no row in custody was written. -/
structure Truthful (cfg : Config) (ids : List JsStr) (s : Store) (w : Watched) : Prop where
  received : Received cfg ids s w.store
  held : ∀ e ∈ w.intakes, e.heldByCustody = true
  kept : w.overwritten = []

/-- Only users have moved NFTs. -/
structure Moved (cfg : Config) (w u : Watched) : Prop where
  received : Received cfg [] w.store u.store
  db : u.store.db = w.store.db
  intakes : u.intakes = w.intakes
  overwritten : u.overwritten = w.overwritten

theorem Truthful.moved (h : Truthful cfg ids s w) (hu : Moved cfg w u) : Truthful cfg ids s u :=
  ⟨h.received.trans (hu.received.mono (List.nil_subset _)), hu.intakes ▸ h.held,
    hu.overwritten.trans h.kept⟩

theorem Truthful.mono {ids' : List JsStr} (hids : ids ⊆ ids') (h : Truthful cfg ids s w) :
    Truthful cfg ids' s w := ⟨h.received.mono hids, h.held, h.kept⟩

/-- What holds since a later store holds since an earlier one. -/
theorem Truthful.since (h : Received cfg ids s w.store) (hu : Truthful cfg ids w.store u) :
    Truthful cfg ids s u := ⟨h.trans hu.received, hu.held, hu.kept⟩

def Reads (cfg : Config) (c : Cmd) : Prop :=
  ∀ s, (∀ x, (exec cfg s x c).2 = s) ∧ s.intakesOf cfg c = [] ∧ s.overwrittenBy c = []

/-- A reading command: users may have moved NFTs before it. -/
theorem holds_read {c : Cmd} {f : Custody.Res c → M β} {Q : Except HttpError β → Watched → Prop}
    (hc : Reads cfg c) (hw : Truthful cfg ids s w)
    (hf : ∀ u x, Moved cfg w u → Ok w x (.inr c) →
      (f (exec cfg u.store x.answer c).1).Holds (confirming cfg) Ok (Truthful cfg ids s) Q u) :
    (perform c >>= f).Holds (confirming cfg) Ok (Truthful cfg ids s) Q w := by
  refine Prog.holds_call_bind hw fun x hx => ?_
  obtain ⟨hstore, hintakes, hoverwritten⟩ := hc (w.store.userTransfers cfg x.moves)
  have hnext : (confirming cfg w x (.inr c)).2 =
      ⟨w.store.userTransfers cfg x.moves, w.intakes, w.overwritten⟩ := by
    simp only [confirming, hstore, hintakes, hoverwritten, List.append_nil]
  rw [hnext]
  exact hf ⟨w.store.userTransfers cfg x.moves, w.intakes, w.overwritten⟩ x
    ⟨userTransfers_received, userTransfers_db, rfl, rfl⟩ hx

/-- The save of a row whose NFT custody owns. -/
theorem truthful_save {r : VaultRedemption} {txHash : JsStr} {at_ : ℕ} {x : Turn}
    (hw : Truthful cfg [id] s w) (hr : w.store.row id = some r) (hstatus : r.status = .ownershipVerified)
    (hheld : w.store.InCustody cfg id) :
    let v := (confirming cfg w x (.inr (.redeem (.saveRedemptions [(r, received r txHash at_)])))).2
    Truthful cfg [id] s v ∧ v.store.statusOf id = some .inCustody := by
  intro v
  have hid : r.id = id := Db.Table.get_key hr
  have hmoves : Received cfg [id] w.store (w.store.userTransfers cfg x.moves) :=
    userTransfers_received
  have hrow : (w.store.userTransfers cfg x.moves).row id = some r := by
    rw [Store.row, userTransfers_db]
    exact hr
  have hopen : (w.store.userTransfers cfg x.moves).statusOf id = some .ownershipVerified := by
    rw [Store.statusOf, hrow, Option.map_some, hstatus]
  have hsaved : v.store.row id = some (received r txHash at_) := by
    have hself := Db.Table.get_save_self (w.store.userTransfers cfg x.moves).db.redemptions
      (received r txHash at_)
    have hkey : (received r txHash at_).id = id := hid
    rw [hkey] at hself
    exact hself
  have hother : ∀ other, other ≠ id → v.store.row other = w.store.row other := by
    intro other hne
    have hkey : other ≠ (received r txHash at_).id := fun heq => hne (heq.trans hid)
    refine (Db.Table.get_save_of_ne hkey).trans ?_
    rw [userTransfers_db]
    rfl
  have hstep : Received cfg [id] w.store v.store := by
    refine ⟨hmoves.cycles, hmoves.tokens, hmoves.assets, hmoves.custody, fun other => ?_⟩
    by_cases hne : other = id
    · rw [hne]
      exact .inr ⟨List.mem_singleton.mpr rfl, r, txHash, at_, hr, hstatus, hsaved⟩
    · exact .inl (hother other hne)
  refine ⟨⟨hw.received.trans hstep, fun e he => ?_, ?_⟩, ?_⟩
  · rcases List.mem_append.mp he with hold | hnew
    · exact hw.held e hold
    · obtain ⟨r', hr', rfl⟩ := List.mem_map.mp hnew
      have heq : r' = received r txHash at_ := by simpa using (List.mem_filter.mp hr').1
      have hkey : r'.id = id := by
        rw [heq]
        exact hid
      rw [hkey]
      exact decide_eq_true (hmoves.inCustody hheld)
  · change w.overwritten ++ [r.id].filter (fun id =>
      decide ((w.store.userTransfers cfg x.moves).statusOf id = some .inCustody)) = []
    rw [hw.kept, hid]
    simp [hopen]
  · rw [Store.statusOf, hsaved]
    rfl

/-- Everything outside the tables works for the caller. -/
structure Answer.Cooperates (x : Answer) : Prop where
  approved : x.approved = .ok ()
  isRequester : x.isRequester = true
  answered : x.rpcFailure = none

/-- An owner that was read is the owner. -/
theorem owner_of_read {s : Store} {x : Answer} {tokenId chainId : ℕ} {owner : JsStr}
    (h : (exec cfg s x (.getRwaTokenOwner tokenId chainId)).1 = .ok owner) :
    s.owner (chainId, tokenId) = some owner := by
  simp only [exec] at h
  cases hfail : x.rpcFailure with
  | some e => simp [hfail] at h
  | none =>
    cases howner : s.owner (chainId, tokenId) with
    | none => simp [hfail, howner] at h
    | some found =>
      simp only [hfail, howner, Except.ok.injEq] at h
      rw [h]

theorem read_of_owner {s : Store} {x : Answer} {tokenId chainId : ℕ} {owner : JsStr}
    (hanswered : x.rpcFailure = none) (h : s.owner (chainId, tokenId) = some owner) :
    (exec cfg s x (.getRwaTokenOwner tokenId chainId)).1 = .ok owner := by
  simp only [exec, hanswered, h]

def Cooperative : AllowedStep Watched Turn (LockCmd JsStr ⊕ Cmd) := fun _ x _ => x.answer.Cooperates

variable {good : Prop} (hgood : good → ∀ w x c, Ok w x c → x.answer.Cooperates)

theorem holds_markCustodyReceived {txHash : JsStr} (hw : Truthful cfg [id] s w)
    (hheld : w.store.InCustody cfg id) :
    (markCustodyReceived id txHash).Holds (confirming cfg) Ok (Truthful cfg [id] s)
      (fun o v => w.store.statusOf id = some .ownershipVerified →
        o = .ok () ∧ v.store.statusOf id = some .inCustody) w := by
  refine holds_read (fun s => ⟨fun x => rfl, rfl, rfl⟩) hw fun u x hu _ => ?_
  have hsame : u.store.row id = w.store.row id := by rw [Store.row, Store.row, hu.db]
  refine Prog.holds_orThrow_bind (fun r hr => ?_) fun hnone => ⟨hw.moved hu, fun hverified => ?_⟩
  · change u.store.row id = some r at hr
    have hstatus : w.store.statusOf id = some r.status := by
      rw [Store.statusOf, ← hsame, hr, Option.map_some]
    split_ifs with hdone
    · refine Prog.holds_ret (hw.moved hu) fun hverified => ?_
      rw [Bool.and_eq_true, decide_eq_true_eq] at hdone
      rw [hstatus, hdone.1] at hverified
      cases hverified
    · refine Prog.holds_throwIf_bind (fun hopen => ?_) fun hclosed => ⟨hw.moved hu, fun hverified => ?_⟩
      · have hverified : r.status = .ownershipVerified := by simpa using hopen
        refine holds_read (fun s => ⟨fun x => rfl, rfl, rfl⟩) (hw.moved hu) fun v y hv _ => ?_
        have hrow : v.store.row id = some r := by
          rw [Store.row, hv.db]
          exact hr
        refine ⟨(hw.moved hu).moved hv, fun z _ => ?_⟩
        obtain ⟨htruthful, hreceived⟩ := truthful_save ((hw.moved hu).moved hv) hrow hverified
          (hv.received.inCustody (hu.received.inCustody hheld))
        exact ⟨htruthful, fun _ => ⟨rfl, hreceived⟩⟩
      · rw [hstatus, Option.some.injEq] at hverified
        simp [hverified] at hclosed
  · change u.store.row id = none at hnone
    rw [Store.statusOf, ← hsame, hnone] at hverified
    cases hverified

/-- After a verified transaction custody owns the NFT. -/
theorem holds_verifyNftTransferredToCustody {txHash rwa fromAddress : JsStr} {tokenId chainId : ℕ}
    (hcustody : lower (cfg.custodyWallet chainId) = cfg.custodyWallet chainId)
    (hw : Truthful cfg ids s w) :
    (verifyNftTransferredToCustody txHash rwa fromAddress (cfg.custodyWallet chainId) tokenId
      chainId).Holds (confirming cfg) Ok (Truthful cfg ids s)
      (fun o v => ∀ a, o = .ok a → Received cfg [] w.store v.store ∧ v.store.db = w.store.db ∧
        v.store.owner (chainId, tokenId) = some (cfg.custodyWallet chainId)) w := by
  refine holds_read (fun s => ⟨fun x => rfl, rfl, rfl⟩) hw fun u x hu _ => ?_
  have hut := hw.moved hu
  refine Prog.holds_ret_bind (fun found _ => ?_) fun e => ⟨hut, fun a h => by cases h⟩
  refine Prog.holds_orThrow_bind (fun receipt _ => ?_) fun _ => ⟨hut, fun a h => by cases h⟩
  refine Prog.holds_throwIf_bind (fun _ => ?_) fun _ => ⟨hut, fun a h => by cases h⟩
  refine holds_read (fun s => ⟨fun x => rfl, rfl, rfl⟩) hut fun v y hv _ => ?_
  refine Prog.holds_ret_bind (fun owner howner => ?_) fun e => ⟨hut.moved hv, fun a h => by cases h⟩
  refine Prog.holds_throwIf (hut.moved hv) (fun hpass a _ => ?_) fun _ a h => by cases h
  refine ⟨hu.received.trans hv.received, hv.db.trans hu.db, ?_⟩
  have hsame : owner = cfg.custodyWallet chainId := by simpa [hcustody] using hpass
  rw [owner_of_read howner, hsame]

theorem holds_attempt_bind {r : Except HttpError α} {f : α → M β}
    {Q : Except HttpError β → Watched → Prop}
    (hok : ∀ a, r = .ok a → (f a).Holds (confirming cfg) Ok (Truthful cfg ids s) Q w)
    (herr : ∀ e, r = .error e → Truthful cfg ids s w ∧ Q (.error e) w) :
    (attempt r >>= f).Holds (confirming cfg) Ok (Truthful cfg ids s) Q w := by
  cases r with
  | ok a => exact hok a rfl
  | error e => exact herr e rfl

def Store.Ready (cfg : Config) (s : Store) (id : JsStr) : Prop :=
  s.statusOf id = some .ownershipVerified ∧ s.InCustody cfg id

theorem Moved.statusOf (hu : Moved cfg w u) : u.store.statusOf id = w.store.statusOf id := by
  rw [Store.statusOf, Store.statusOf, Store.row, Store.row, hu.db]

theorem Moved.ready (hu : Moved cfg w u) (h : w.store.Ready cfg id) : u.store.Ready cfg id :=
  ⟨hu.statusOf.trans h.1, hu.received.inCustody h.2⟩

include hgood in
/-- A turn of the loop receives the row, if custody owns its NFT and everything answers. -/
theorem holds_confirmRow (rwa : JsStr) (transfers : List (ℕ × JsStr)) {chainId : ℕ}
    {r : VaultRedemption} (hcustody : lower (cfg.custodyWallet chainId) = cfg.custodyWallet chainId)
    (hw : Truthful cfg [r.id] s w) (hchain : w.store.chainOf r.id = some chainId) :
    (confirmRow cfg rwa transfers chainId r).Holds (confirming cfg) Ok (Truthful cfg [r.id] s)
      (fun o v => good → w.store.Ready cfg r.id →
        o = .ok () ∧ v.store.statusOf r.id = some .inCustody) w := by
  refine holds_read (fun s => ⟨fun x => rfl, rfl, rfl⟩) hw fun u x hu _ => ?_
  have hut := hw.moved hu
  have huchain : u.store.chainOf r.id = some chainId := hu.received.chainOf.trans hchain
  change Prog.Holds _ _ _ (Prog.orThrow _ ((u.store.tokenIdForRedemption r.id).filter _) >>= _) _ u
  -- An NFT that custody owns has a token id.
  have htokenOf : w.store.Ready cfg r.id → ∃ tokenId, u.store.tokenOf r.id = some tokenId ∧
      u.store.owner (chainId, tokenId) = some (cfg.custodyWallet chainId) := by
    intro hready
    obtain ⟨chainId', hchain', tokenId, htoken, howner⟩ := (hu.ready hready).2
    obtain rfl : chainId = chainId' := Option.some.inj (huchain.symm.trans hchain')
    exact ⟨tokenId, htoken, howner⟩
  refine Prog.holds_orThrow_bind (fun text htext => ?_) fun hnone => ⟨hut, fun _ hready => ?_⟩
  · refine Prog.holds_orThrow_bind (fun tokenId hnumber => ?_) fun hnone => ⟨hut, fun _ hready => ?_⟩
    · have htoken : u.store.tokenOf r.id = some tokenId := by
        rw [Store.tokenOf, htext, Option.bind_some, hnumber]
      refine holds_read (fun s => ⟨fun x => rfl, rfl, rfl⟩) hut fun v y hv hy => ?_
      have hvt := hut.moved hv
      have hvtoken : v.store.tokenOf r.id = some tokenId := hv.received.tokenOf.trans htoken
      have hvchain : v.store.chainOf r.id = some chainId := hv.received.chainOf.trans huchain
      have hread : good → w.store.Ready cfg r.id → (exec cfg v.store y.answer
          (.getRwaTokenOwner tokenId chainId)).1 = .ok (cfg.custodyWallet chainId) := by
        intro hg hready
        obtain ⟨tokenId', htoken', howner⟩ := htokenOf hready
        obtain rfl : tokenId = tokenId' := Option.some.inj (htoken.symm.trans htoken')
        exact read_of_owner (hgood hg _ _ _ hy).answered (hv.received.custody _ howner)
      refine holds_attempt_bind (fun onChainOwner hanswer => ?_) fun e hanswer => ⟨hvt, fun hg hready => ?_⟩
      · have howner : v.store.owner (chainId, tokenId) = some onChainOwner := owner_of_read hanswer
        split_ifs with hheld
        · have hin : v.store.InCustody cfg r.id :=
            ⟨chainId, hvchain, tokenId, hvtoken, howner.trans (congrArg some hheld)⟩
          refine (holds_markCustodyReceived hvt hin).mono fun o z _ hz _ hready => hz ?_
          exact hv.statusOf.trans (hu.ready hready).1
        · have hnever : good → w.store.Ready cfg r.id → False := by
            intro hg hready
            have hsame := hread hg hready
            rw [hanswer, Except.ok.injEq] at hsame
            exact hheld hsame
          refine Prog.holds_throwIf_bind (fun _ => ?_) fun _ => ⟨hvt, fun hg hready => ?_⟩
          · refine Prog.holds_orThrow_bind (fun txHash _ => ?_) fun _ => ⟨hvt, fun hg hready => ?_⟩
            · refine Prog.holds_bind (holds_verifyNftTransferredToCustody hcustody hvt) ?_
                fun e z _ hg hready => (hnever hg hready).elim
              rintro - z hz ⟨hreceived, -, hzowner⟩
              have hin : z.store.InCustody cfg r.id :=
                ⟨chainId, hreceived.chainOf.trans hvchain, tokenId,
                  hreceived.tokenOf.trans hvtoken, hzowner⟩
              refine (holds_markCustodyReceived hz hin).mono fun o _ _ _ hg hready => ?_
              exact (hnever hg hready).elim
            · exact (hnever hg hready).elim
          · exact (hnever hg hready).elim
      · rw [hread hg hready] at hanswer
        cases hanswer
    · obtain ⟨tokenId, htoken, -⟩ := htokenOf hready
      rw [Store.tokenOf, htext, Option.bind_some, hnone] at htoken
      cases htoken
  · obtain ⟨tokenId, htoken, -⟩ := htokenOf hready
    rw [Store.tokenOf, hnone] at htoken
    cases htoken

include hgood in
theorem holds_confirmRows (rwa : JsStr) (transfers : List (ℕ × JsStr)) {chainId : ℕ}
    {rows : List VaultRedemption}
    (hcustody : lower (cfg.custodyWallet chainId) = cfg.custodyWallet chainId)
    (hnodup : (rows.map VaultRedemption.id).Nodup)
    (hw : Truthful cfg (rows.map VaultRedemption.id) w.store w)
    (hchain : ∀ r ∈ rows, w.store.chainOf r.id = some chainId) :
    (confirmRows cfg rwa transfers chainId rows).Holds (confirming cfg) Ok
      (Truthful cfg (rows.map VaultRedemption.id) w.store)
      (fun o v => good → (∀ r ∈ rows, w.store.Ready cfg r.id) →
        o = .ok () ∧ ∀ r ∈ rows, v.store.statusOf r.id = some .inCustody) w := by
  induction rows generalizing w with
  | nil => exact Prog.holds_ret hw fun _ _ => ⟨rfl, fun r hr => absurd hr List.not_mem_nil⟩
  | cons r rows ih =>
    rw [List.map_cons, List.nodup_cons] at hnodup
    have hhead : [r.id] ⊆ (r :: rows).map VaultRedemption.id := by simp
    have htail : rows.map VaultRedemption.id ⊆ (r :: rows).map VaultRedemption.id :=
      List.subset_cons_self _ _
    have hrow := holds_confirmRow hgood rwa transfers hcustody
      ⟨Received.refl, hw.held, hw.kept⟩ (hchain r List.mem_cons_self)
    refine Prog.holds_settle ((hrow.mono fun o u hu ho => And.intro hu ho).weaken
      (fun u hu => hu.mono hhead) |>.mono ?_)
    rintro o u - ⟨hu, ho⟩
    cases o with
    | error e =>
      refine ⟨hu.mono hhead, fun hg hready => ?_⟩
      have hok := (ho hg (hready r List.mem_cons_self)).1
      cases hok
    | ok a =>
      have hne : ∀ r' ∈ rows, r'.id ∉ [r.id] := by
        intro r' hr' hmem
        rw [List.mem_singleton] at hmem
        exact hnodup.1 (hmem ▸ List.mem_map_of_mem hr')
      have hrest := ih (w := u) hnodup.2 ⟨Received.refl, hu.held, hu.kept⟩ fun r' hr' =>
        hu.received.chainOf.trans (hchain r' (List.mem_cons_of_mem r hr'))
      refine ((hrest.mono fun o v hv hq => And.intro hv hq).weaken fun v hv =>
        (hv.mono htail).since (hu.received.mono hhead)).mono ?_
      rintro o' v - ⟨hv, hq⟩ hg hready
      have hrest' : ∀ r' ∈ rows, u.store.Ready cfg r'.id := by
        intro r' hr'
        obtain ⟨hstatus, hin⟩ := hready r' (List.mem_cons_of_mem r hr')
        refine ⟨?_, hu.received.inCustody hin⟩
        rw [Store.statusOf, hu.received.row_of_not_mem (hne r' hr')]
        exact hstatus
      obtain ⟨hok, hall⟩ := hq hg hrest'
      refine ⟨hok, fun r' hr' => ?_⟩
      rcases List.mem_cons.mp hr' with rfl | hr'
      · exact hv.received.statusOf (ho hg (hready r' List.mem_cons_self)).2
      · exact hall r' hr'

end Steps

section Calls
variable {cfg : Config} {Ok : AllowedStep Watched Turn (LockCmd JsStr ⊕ Cmd)} {s : Store}
  {w u : Watched} {batchId : JsStr} {chainId : ℕ} {ids : List JsStr} {α : Type}

/-- The rows that `findRedemptionsByBatchId` returns. -/
def Store.batchRows (s : Store) (batchId : JsStr) (chainId : ℕ) : List VaultRedemption :=
  if (trim batchId).isEmpty then [] else s.batchOnChain (trim batchId) chainId

theorem mem_batchRows {r : VaultRedemption} (hr : r ∈ s.batchRows batchId chainId) :
    s.row r.id = some r ∧ s.chainOf r.id = some chainId := by
  rw [Store.batchRows] at hr
  split_ifs at hr
  · exact absurd hr List.not_mem_nil
  · rw [Store.batchOnChain, VaultRedemption.mem_oldestFirst, Db.Table.mem_find] at hr
    obtain ⟨hmem, hbatch⟩ := hr
    have hrow : s.row r.id = some r := Db.Table.get_of_mem hmem
    refine ⟨hrow, ?_⟩
    rw [Bool.and_eq_true] at hbatch
    rw [Store.chainOf, hrow, Option.bind_some]
    cases hcycle : s.db.cycles.get r.vaultCycleId with
    | none => simp [hcycle] at hbatch
    | some c => simpa [hcycle] using hbatch.2

theorem nodup_batchRows : ((s.batchRows batchId chainId).map VaultRedemption.id).Nodup := by
  rw [Store.batchRows]
  split_ifs
  · exact List.nodup_nil
  · have hperm : (s.batchOnChain (trim batchId) chainId).Perm _ := List.perm_insertionSort _ _
    rw [(hperm.map VaultRedemption.id).nodup_iff]
    exact (List.filter_sublist.map _).nodup s.db.redemptions.nodup

theorem batchRows_congr {t : Store} (h : t.db = s.db) :
    t.batchRows batchId chainId = s.batchRows batchId chainId := by
  rw [Store.batchRows, Store.batchRows, Store.batchOnChain, Store.batchOnChain, h]

/-- Custody owned the NFT of each row that was received, and no row in custody was written. -/
def Watched.Sound (w : Watched) : Prop :=
  (∀ e ∈ w.intakes, e.heldByCustody = true) ∧ w.overwritten = []

theorem Truthful.sound (h : Truthful cfg ids s w) : w.Sound := ⟨h.held, h.kept⟩

theorem holds_findRedemptionsByBatchId {f : List VaultRedemption → M α}
    {Q : Except HttpError α → Watched → Prop} (hw : Truthful cfg ids s w)
    (hf : ∀ u, Moved cfg w u → (f (w.store.batchRows batchId chainId)).Holds (confirming cfg) Ok
      (Truthful cfg ids s) Q u) :
    (findRedemptionsByBatchId batchId chainId >>= f).Holds (confirming cfg) Ok (Truthful cfg ids s)
      Q w := by
  rw [findRedemptionsByBatchId]
  by_cases hblank : (trim batchId).isEmpty = true
  · have hrows := hf w ⟨Received.refl, rfl, rfl, rfl⟩
    rw [Store.batchRows, if_pos hblank] at hrows
    rw [if_pos hblank]
    exact hrows
  · rw [if_neg hblank]
    refine holds_read (fun s => ⟨fun x => rfl, rfl, rfl⟩) hw fun u x hu _ => ?_
    have hrows := hf u hu
    rw [← batchRows_congr hu.db, Store.batchRows, if_neg hblank] at hrows
    exact hrows

/-- Custody owns the NFT of each row of the batch that waits for it, and no refund has begun. -/
structure Store.Complete (cfg : Config) (s : Store) (batchId : JsStr) (chainId : ℕ) : Prop where
  unrefunded : ∀ r ∈ s.batchRows batchId chainId, r.refundStatus = .none ∧ r.status ≠ .refunded
  held : ∀ r ∈ s.batchRows batchId chainId, r.status = .ownershipVerified → s.InCustody cfg r.id

def waiting (rows : List VaultRedemption) : List VaultRedemption :=
  rows.filter fun r => r.status = .ownershipVerified

theorem mem_waiting {rows : List VaultRedemption} {r : VaultRedemption} :
    r ∈ waiting rows ↔ r ∈ rows ∧ r.status = .ownershipVerified := by
  rw [waiting, List.mem_filter, decide_eq_true_eq]

/-- The loop over the rows that wait, and the check after it. -/
theorem holds_confirmWaiting (batchId rwa : JsStr) (transfers : List (ℕ × JsStr)) (e : HttpError)
    {good : Prop} (hgood : good → ∀ w x c, Ok w x c → x.answer.Cooperates)
    (hcustody : lower (cfg.custodyWallet chainId) = cfg.custodyWallet chainId)
    (hw : Truthful cfg ((w.store.batchRows batchId chainId).map VaultRedemption.id) w.store w) :
    (do
      confirmRows cfg rwa transfers chainId (waiting (w.store.batchRows batchId chainId))
      let updated ← findRedemptionsByBatchId batchId chainId
      Prog.throwIf (!updated.all fun r => r.status = .inCustody) e : M Unit).Holds (confirming cfg) Ok
      (Truthful cfg ((w.store.batchRows batchId chainId).map VaultRedemption.id) w.store)
      (fun _ v => good → w.store.Complete cfg batchId chainId →
        ∀ r ∈ w.store.batchRows batchId chainId, r.status = .ownershipVerified →
          v.store.statusOf r.id = some .inCustody) w := by
  generalize hrows : w.store.batchRows batchId chainId = rows at hw ⊢
  have hsub : ((waiting rows).map VaultRedemption.id).Sublist (rows.map VaultRedemption.id) :=
    List.filter_sublist.map _
  have hnodup : ((waiting rows).map VaultRedemption.id).Nodup := hsub.nodup (hrows ▸ nodup_batchRows)
  have hstored : ∀ r ∈ waiting rows, w.store.row r.id = some r ∧ w.store.chainOf r.id = some chainId :=
    fun r hr => mem_batchRows (hrows ▸ (mem_waiting.mp hr).1)
  have hloop := holds_confirmRows hgood rwa transfers hcustody hnodup
    ⟨Received.refl, hw.held, hw.kept⟩ fun r hr => (hstored r hr).2
  refine Prog.holds_settle ((hloop.weaken fun t ht => ht.mono hsub.subset).mono fun o t ht ho => ?_)
  have hreceived : good → w.store.Complete cfg batchId chainId →
      o = .ok () ∧ ∀ r ∈ rows, r.status = .ownershipVerified →
        t.store.statusOf r.id = some .inCustody := by
    intro hg hcomplete
    have hready : ∀ r ∈ waiting rows, w.store.Ready cfg r.id := by
      intro r hr
      obtain ⟨hmem, hverified⟩ := mem_waiting.mp hr
      refine ⟨?_, hcomplete.held r (hrows ▸ hmem) hverified⟩
      rw [Store.statusOf, (hstored r hr).1, Option.map_some, hverified]
    obtain ⟨hok, hall⟩ := ho hg hready
    exact ⟨hok, fun r hr hverified => hall r (mem_waiting.mpr ⟨hr, hverified⟩)⟩
  cases o with
  | error e' =>
    refine ⟨ht, fun hg hcomplete => ?_⟩
    cases (hreceived hg hcomplete).1
  | ok a =>
    refine holds_findRedemptionsByBatchId ht fun u hu => ?_
    have hend : good → w.store.Complete cfg batchId chainId → ∀ r ∈ rows,
        r.status = .ownershipVerified → u.store.statusOf r.id = some .inCustody := by
      intro hg hcomplete r hr hverified
      exact hu.statusOf.trans ((hreceived hg hcomplete).2 r hr hverified)
    exact Prog.holds_throwIf (ht.moved hu) (fun _ => hend) fun _ => hend

theorem Moved.trans {v : Watched} (hu : Moved cfg w u) (hv : Moved cfg u v) : Moved cfg w v :=
  ⟨hu.received.trans hv.received, hv.db.trans hu.db, hv.intakes.trans hu.intakes,
    hv.overwritten.trans hu.overwritten⟩

theorem Moved.batchRows (hu : Moved cfg w u) :
    u.store.batchRows batchId chainId = w.store.batchRows batchId chainId := batchRows_congr hu.db

theorem Moved.complete (hu : Moved cfg w u) (h : w.store.Complete cfg batchId chainId) :
    u.store.Complete cfg batchId chainId := by
  constructor
  · rw [hu.batchRows]
    exact h.unrefunded
  · rw [hu.batchRows]
    exact fun r hr hverified => hu.received.inCustody (h.held r hr hverified)

/-- A call is sound, and on a complete batch it receives all rows that wait. -/
theorem holds_confirmCustodyTransfers (batchId : JsStr) (transfers : List (ℕ × JsStr)) (chainId : ℕ)
    {good : Prop} (hgood : good → ∀ w x c, Ok w x c → x.answer.Cooperates)
    (hcustody : ∀ c, lower (cfg.custodyWallet c) = cfg.custodyWallet c) (hw : w.Sound) :
    (confirmCustodyTransfers cfg batchId transfers chainId).Holds (confirming cfg) Ok Watched.Sound
      (fun _ v => good → chainId = redeemV1ChainId → (∃ rwa, cfg.env.getRwaAddress chainId = .ok rwa) →
        w.store.Complete cfg batchId chainId → ∀ r ∈ w.store.batchRows batchId chainId,
          r.status = .ownershipVerified → v.store.statusOf r.id = some .inCustody) w := by
  have hnow : Truthful cfg ((w.store.batchRows batchId chainId).map VaultRedemption.id) w.store w :=
    ⟨Received.refl, hw.1, hw.2⟩
  refine Prog.Holds.weaken (fun v hv => Truthful.sound hv)
    (holds_read (fun s => ⟨fun x => rfl, rfl, rfl⟩) hnow fun u x hu hx => ?_)
  have hut := hnow.moved hu
  refine holds_attempt_bind (fun _ _ => ?_) fun e hrefused => ⟨hut, fun hg _ _ _ => ?_⟩
  swap
  · change x.answer.approved = .error e at hrefused
    rw [(hgood hg _ _ _ hx).approved] at hrefused
    cases hrefused
  refine Prog.holds_throwIf_bind (fun _ => ?_) fun hchain => ⟨hut, fun _ hv1 _ _ => ?_⟩
  swap
  · simp [hv1] at hchain
  refine holds_findRedemptionsByBatchId hut fun v hv => ?_
  have hvt := hut.moved hv
  refine Prog.holds_throwIf_bind (fun _ => ?_) fun hempty => ⟨hvt, fun _ _ _ _ r hr => ?_⟩
  swap
  · rw [← hu.batchRows, List.isEmpty_iff.mp hempty] at hr
    exact absurd hr List.not_mem_nil
  refine holds_read (fun s => ⟨fun x => rfl, rfl, rfl⟩) hvt fun z y hz hy => ?_
  have hzt := hvt.moved hz
  have hwz : Moved cfg w z := (hu.trans hv).trans hz
  refine Prog.holds_throwIf_bind (fun _ => ?_) fun hother => ⟨hzt, fun hg _ _ _ => ?_⟩
  swap
  · change (!y.answer.isRequester) = true at hother
    rw [(hgood hg _ _ _ hy).isRequester] at hother
    cases hother
  refine Prog.holds_throwIf_bind (fun _ => ?_) fun hrefunded => ⟨hzt, fun _ _ _ hcomplete => ?_⟩
  swap
  · obtain ⟨r, hr, hbad⟩ := List.any_eq_true.mp hrefunded
    obtain ⟨hnone, hopen⟩ := hcomplete.unrefunded r (hu.batchRows ▸ hr)
    simp [hnone, hopen] at hbad
  refine holds_attempt_bind (fun rwa _ => ?_) fun e hmissing => ⟨hzt, fun _ _ hrwa _ => ?_⟩
  swap
  · obtain ⟨rwa, hrwa⟩ := hrwa
    rw [hrwa] at hmissing
    cases hmissing
  have hrows : u.store.batchRows batchId chainId = z.store.batchRows batchId chainId :=
    (hv.trans hz).batchRows.symm
  rw [hrows, ← hwz.batchRows]
  rw [← hwz.batchRows] at hzt
  dsimp only
  split_ifs with hdone
  · refine Prog.holds_ret hzt fun _ _ _ _ r hr hverified => ?_
    have hmem : r ∈ waiting (z.store.batchRows batchId chainId) := mem_waiting.mpr ⟨hr, hverified⟩
    rw [waiting, List.isEmpty_iff.mp hdone] at hmem
    exact absurd hmem List.not_mem_nil
  · have hloop := holds_confirmWaiting batchId (lower rwa) transfers (.badRequest
      (js "Not all NFTs in this batch are in custody yet")) hgood (hcustody chainId)
      (w := z) ⟨Received.refl, hzt.held, hzt.kept⟩
    have hsince : Received cfg ((z.store.batchRows batchId chainId).map VaultRedemption.id)
        w.store z.store := hwz.received.mono (List.nil_subset _)
    refine (hloop.weaken fun t ht => ht.since hsince).mono ?_
    intro o t _ ht hg _ _ hcomplete
    exact ht hg (hwz.complete hcomplete)

structure Confirmation where
  batchId : JsStr
  transfers : List (ℕ × JsStr)
  chainId : ℕ

def Confirmation.task (cfg : Config) (c : Confirmation) : M Unit :=
  confirmCustodyTransfers cfg c.batchId c.transfers c.chainId

/-- No call has run in between; the tables and the chain may have changed in any way. -/
def Watched.Idle (s t : Watched) : Prop := t.intakes = s.intakes ∧ t.overwritten = s.overwritten

/-- Calls one after the other, each of which ends or is stopped at any command. -/
def Attempts (cfg : Config) : List Confirmation → Watched → Watched → Prop
  | [], s, t => s.Idle t
  | c :: rest, s, t => ∃ u v, s.Idle u ∧ (c.task cfg).StopsIn (confirming cfg) anyAnswer u v ∧
      Attempts cfg rest v t

theorem Watched.Sound.idle {t : Watched} (h : w.Sound) (ht : w.Idle t) : t.Sound := by
  refine ⟨?_, ht.2.trans h.2⟩
  rw [ht.1]
  exact h.1

theorem sound_of_attempts (hcustody : ∀ c, lower (cfg.custodyWallet c) = cfg.custodyWallet c)
    {calls : List Confirmation} (hrun : Attempts cfg calls w u) (hw : w.Sound) : u.Sound := by
  induction calls generalizing w with
  | nil => exact hw.idle hrun
  | cons c calls ih =>
    obtain ⟨v, z, hv, hz, hrest⟩ := hrun
    have hnever : False → ∀ w x c, (anyAnswer : AllowedStep Watched Turn (LockCmd JsStr ⊕ Cmd)) w x c →
        x.answer.Cooperates := False.elim
    have hcall := holds_confirmCustodyTransfers c.batchId c.transfers c.chainId hnever hcustody
      (hw.idle hv)
    exact ih hrest (hcall.stopsIn hz)

/-- After any calls, a row has been set to `in_custody` only while custody owned its NFT, and no row in
custody has been written; and from there one call receives all rows of a complete batch. -/
theorem custody_confirmed (hcustody : ∀ c, lower (cfg.custodyWallet c) = cfg.custodyWallet c)
    {calls : List Confirmation} (hrun : Attempts cfg calls ⟨s, [], []⟩ w) :
    (∀ e ∈ w.intakes, e.heldByCustody = true) ∧ w.overwritten = [] ∧
      ∀ batchId transfers (xs : ℕ → Turn), (∀ n, (xs n).answer.Cooperates) →
        (∃ rwa, cfg.env.getRwaAddress redeemV1ChainId = .ok rwa) →
        w.store.Complete cfg batchId redeemV1ChainId →
        ∀ r ∈ w.store.batchRows batchId redeemV1ChainId, r.status = .ownershipVerified →
          ((confirmCustodyTransfers cfg batchId transfers redeemV1ChainId).playEach (confirming cfg)
            xs w).2.store.statusOf r.id = some .inCustody := by
  have hsound : w.Sound := sound_of_attempts hcustody hrun ⟨fun e he => absurd he List.not_mem_nil, rfl⟩
  refine ⟨hsound.1, hsound.2, fun batchId transfers xs hxs hrwa hcomplete r hr hverified => ?_⟩
  have hanswers : True → ∀ w x c, Cooperative w x c → x.answer.Cooperates := fun _ _ _ _ hx => hx
  have hcall := holds_confirmCustodyTransfers batchId transfers redeemV1ChainId hanswers hcustody hsound
  exact hcall.playEach (fun n _ _ => hxs n) trivial rfl hrwa hcomplete r hr hverified

/-- A confirmation of batch `b` without transfers. -/
def confirmOnce (w : Watched) : Except HttpError Unit × Watched :=
  (confirmCustodyTransfers sepolia (js "b") [] redeemV1ChainId).playEach (confirming sepolia)
    (fun _ => ⟨[], minedAs "0x0c"⟩) w

def bothStatuses (w : Watched) : Option RedemptionStatus × Option RedemptionStatus :=
  (w.store.statusOf (js "r1"), w.store.statusOf (js "r2"))

def secondArrives (w : Watched) : Watched :=
  { w with store := w.store.userTransfer sepolia (redeemV1ChainId, 8) custodyAddress }

/-- The first call receives one of two cards and fails for the other; after its NFT has arrived, the
second call receives that one. -/
theorem custody_confirmed_later :
    let halfway := (confirmOnce ⟨twoCards verifiedCard, [], []⟩).2
    bothStatuses halfway = (some .inCustody, some .ownershipVerified) ∧
      bothStatuses (confirmOnce (secondArrives halfway)).2 = (some .inCustody, some .inCustody) := by
  intro halfway
  have hcustody : ∀ c, lower (sepolia.custodyWallet c) = sepolia.custodyWallet c := by
    intro c
    change lower custodyAddress = custodyAddress
    decide +kernel
  have hfailed := Prog.stopsIn_of_runs (Prog.runs_playEach (H := confirming sepolia)
    (Confirmation.task sepolia ⟨js "b", [], redeemV1ChainId⟩) (fun _ => ⟨[], minedAs "0x0c"⟩)
    ⟨twoCards verifiedCard, [], []⟩)
  have hrun : Attempts sepolia [⟨js "b", [], redeemV1ChainId⟩] ⟨twoCards verifiedCard, [], []⟩
      (secondArrives halfway) := ⟨_, halfway, ⟨rfl, rfl⟩, hfailed, rfl, rfl⟩
  have hfirst : bothStatuses halfway = (some .inCustody, some .ownershipVerified) := by decide +kernel
  have hsecond := (custody_confirmed hcustody hrun).2.2 (js "b") [] (fun _ => ⟨[], minedAs "0x0c"⟩)
    (fun _ => ⟨rfl, rfl, rfl⟩) ⟨rwaAddress, by decide +kernel⟩ ⟨by decide +kernel, by decide +kernel⟩
    { verifiedCard with id := js "r2", vaultCycleId := js "c2" } (by decide +kernel) rfl
  refine ⟨hfirst, Prod.ext ?_ hsecond⟩
  decide +kernel

end Calls

end Custody
