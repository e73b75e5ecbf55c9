import Tokenable.OwnerIndex.Completeness

/-!
# Whether the index catches up with the chain

Passes replay the Transfer logs while other calls write owners that they have read, or caused, on the
chain some steps before. A row that differs from the chain is right again once the replay comes to the
last transfer of its token: so every write has to be either of the current owner or ahead of the replay
on that token. A write that is neither stays.
-/

namespace OwnerIndex
open Js Async Db

section Writers
variable (cfg : Config) (custody : JsStr)

def mineAndWait (tx : Tx) : M Unit := do
  let block ← Prog.call (.mine tx) .ret
  perform (.awaitBlock block)

/-- The attempts of a mint, with the id that the contract gives to each. -/
def mintAttempts (recipient : JsStr) : List ℕ → M ℕ
  | [] => .ret (.error .rpc)
  | tokenId :: tokenIds =>
    Prog.settle (ε := Failure) (do
      mineAndWait (.mint tokenId recipient)
      recordOwner .caller tokenId recipient
      pure tokenId) fun
    | .ok minted => .ret (.ok minted)
    | .error e => if tokenIds.isEmpty then .ret (.error e) else mintAttempts recipient tokenIds

def mintTo (to_ : JsStr) (tokenIds : List ℕ) : M ℕ :=
  if isAddress (lower (trim to_)) then mintAttempts (lower (trim to_)) tokenIds
  else .ret (.error .rejected)

def getRwaTokenOwner (tokenId : ℕ) : M JsStr := do
  let owner ← Prog.call (.ownerOf tokenId) .ret
  pure (lower (trim owner))

def safeTransferFromCustody (tokenId : ℕ) (to_ : JsStr) : M Unit := do
  Prog.throwIf (!isAddress (lower (trim to_))) .rejected
  let owner ← getRwaTokenOwner tokenId
  Prog.throwIf (owner ≠ custody) .rejected
  mineAndWait (.transfer custody tokenId (lower (trim to_)))
  recordOwner .caller tokenId (lower (trim to_))

/-- A failed write is logged only. -/
def recordBuyerOwnershipAfterSettle (tokenId : ℕ) (buyerWallet : JsStr) : M Unit :=
  if (trim buyerWallet).isEmpty then pure ()
  else Prog.swallow (recordOwner .caller tokenId (lower (trim buyerWallet)))

def settleAsk (seller : JsStr) (tokenId : ℕ) (buyer : JsStr) : M Unit := do
  mineAndWait (.transfer seller tokenId buyer)
  recordBuyerOwnershipAfterSettle tokenId buyer

/-- What `filterTokenIdsOwnedByWallet` does for one of its tokens; those of a chunk are asked at once. -/
def keepIfOwned (expected : JsStr) (tokenId : ℕ) : M Bool :=
  (getRwaTokenOwner tokenId).settle fun
    | .error _ => pure false
    | .ok onChain =>
      if onChain = expected then pure true
      else do
        Prog.swallow (recordOwner .caller tokenId onChain)
        pure false

def filterTokenOwnedByWallet (wallet : JsStr) (tokenId : ℕ) : M Bool :=
  if isAddress (lower (trim wallet)) && 0 < tokenId then keepIfOwned (lower (trim wallet)) tokenId
  else pure false

/-- The receiver of a token is an address, in lower case as the replay reads it. -/
def Tx.Addressed : Tx → Prop
  | .mint _ to_ => isAddress to_ = true
  | .transfer _ _ to_ => isAddress to_ = true
  | .burn _ => True

inductive WriterCall where
  | transact (tx : Tx) (h : tx.Addressed)
  | sealBlocks (blocks : ℕ)
  | mintTo (to_ : JsStr) (tokenIds : List ℕ)
  | safeTransferFromCustody (tokenId : ℕ) (to_ : JsStr)
  | settleAsk (seller : JsStr) (tokenId : ℕ) (buyer : JsStr) (h : isAddress buyer = true)
  | filterTokenOwnedByWallet (wallet : JsStr) (tokenId : ℕ)

def WriterCall.body : WriterCall → M Unit
  | .transact tx _ => Prog.discard (.call (.mine tx) .ret : M ℕ)
  | .sealBlocks blocks => perform (.sealBlocks blocks)
  | .mintTo to_ tokenIds => (OwnerIndex.mintTo to_ tokenIds).discard
  | .safeTransferFromCustody tokenId to_ => OwnerIndex.safeTransferFromCustody custody tokenId to_
  | .settleAsk seller tokenId buyer _ => OwnerIndex.settleAsk seller tokenId buyer
  | .filterTokenOwnedByWallet wallet tokenId =>
    (OwnerIndex.filterTokenOwnedByWallet wallet tokenId).discard

/-- The database fails after the first `n` commands of a call. -/
inductive IndexCall where
  | runPass (maxBlocksPerRun n : ℕ)
  | write (call : WriterCall) (n : ℕ)

def IndexCall.task : IndexCall → M Unit
  | .runPass maxBlocksPerRun n => OwnerIndex.runPass cfg maxBlocksPerRun n
  | .write call n => (call.body custody).failAfter .database n

end Writers

def Store.covered (cfg : Config) (s : Store) : ℕ := s.queried.getD (s.scanned cfg)

/-- A transfer of the token is still to be written by the replay: in the chunk at hand, or after it. -/
def Store.Pending (cfg : Config) (s : Store) (tokenId : ℕ) : Prop :=
  (∃ e ∈ s.ahead, e.tokenId = tokenId) ∨
    ∃ e ∈ s.chain.log, e.tokenId = tokenId ∧ s.covered cfg < e.blockNumber ∧
      e.blockNumber ≤ s.chain.head

instance (cfg : Config) (s : Store) (tokenId : ℕ) : Decidable (s.Pending cfg tokenId) :=
  inferInstanceAs (Decidable (_ ∨ _))

/-- An owner is written while it is the current one, or ahead of the replay. -/
def Timely (cfg : Config) : Allowed Store Cmd
  | _, s, .writeOwner .caller tokenId wallet =>
    s.chain.ownerOf tokenId = none ∨ s.chain.ownerOf tokenId = some wallet ∨ s.Pending cfg tokenId
  | _, _, _ => True

def decidableTimelyWrite (cfg : Config) (i : ℕ) (s : Store) (tokenId : ℕ) (wallet : JsStr) :
    (by_ : Writer) → Decidable (Timely cfg i s (.writeOwner by_ tokenId wallet))
  | .replay => .isTrue trivial
  | .caller => instDecidableOr

/-- Every other command is timely. -/
def decidableTimely (cfg : Config) (i : ℕ) (s : Store) : (c : Cmd) → Decidable (Timely cfg i s c)
  | .writeOwner by_ tokenId wallet => decidableTimelyWrite cfg i s tokenId wallet by_
  | .sealBlocks _ | .startPass | .endPass | .getBlockNumber | .queryTransferLogs _ _ | .totalSupply
  | .tokenByIndex _ | .ownerOf _ | .mine _ | .awaitBlock _ | .findCursor | .saveCursor _ _
  | .markBackfillComplete _ | .countLiveIndexedOwners | .countIndexedTokenRows | .writeBurn _ _
  | .writeOwners _ | .deleteRows _ | .readSupplyCache | .decideRescan _ _ | .settleHeal _ _
  | .joinHeal _ | .sleep _ => .isTrue trivial

instance (cfg : Config) (i : ℕ) (s : Store) (c : Cmd) : Decidable (Timely cfg i s c) :=
  decidableTimely cfg i s c

section Chains
variable {c d : Chain} {id block : ℕ}

/-- The log is in order, and reaches at most into the block under construction. -/
structure Chain.WellFormed (c : Chain) : Prop where
  sorted : c.log.Pairwise fun a b => a.before b = true
  upToNext : ∀ e ∈ c.log, e.blockNumber ≤ c.head + 1
  numbered : ∀ e ∈ c.log, e.blockNumber = c.head + 1 →
    e.index < (c.log.filter fun e => e.blockNumber = c.head + 1).length
  recipients : ∀ e ∈ c.log, isAddress e.to_ = true

/-- A later state of the chain: sealed blocks stay as they are. -/
structure Chain.Later (c d : Chain) : Prop where
  head : c.head ≤ d.head
  log : ∃ new, d.log = c.log ++ new ∧ ∀ e ∈ new, c.head < e.blockNumber

theorem Chain.Later.refl (c : Chain) : c.Later c :=
  ⟨le_rfl, [], (List.append_nil _).symm, fun e he => by cases he⟩

theorem Chain.Later.trans {e : Chain} (h : c.Later d) (h' : d.Later e) : c.Later e := by
  obtain ⟨hhead, new, hlog, hnew⟩ := h
  obtain ⟨hhead', new', hlog', hnew'⟩ := h'
  refine ⟨hhead.trans hhead', new ++ new', ?_, fun f hf => ?_⟩
  · rw [hlog', hlog, List.append_assoc]
  · rcases List.mem_append.mp hf with hold | hlate
    · exact hnew f hold
    · have hlt := hnew' f hlate
      omega

theorem Chain.Later.mem (h : c.Later d) {e : Transfer} (he : e ∈ c.log) : e ∈ d.log := by
  obtain ⟨new, hlog, -⟩ := h.log
  rw [hlog]
  exact List.mem_append_left _ he

/-- What is chosen from the sealed blocks alone stays the same. -/
theorem Chain.Later.filter_eq (h : c.Later d) {p : Transfer → Bool}
    (hp : ∀ e, p e = true → e.blockNumber ≤ c.head) : d.log.filter p = c.log.filter p := by
  obtain ⟨new, hlog, hnew⟩ := h.log
  have hnone : new.filter p = [] := by
    rw [List.filter_eq_nil_iff]
    intro e he hpe
    have hle := hp e hpe
    have hlt := hnew e he
    omega
  rw [hlog, List.filter_append, hnone, List.append_nil]

theorem Chain.Later.chunkOf_eq (h : c.Later d) {stop : ℕ} (hstop : stop ≤ c.head) (block : ℕ) :
    chunkOf d.log block stop = chunkOf c.log block stop := by
  unfold chunkOf
  rw [h.filter_eq]
  intro e he
  simp only [Bool.and_eq_true, decide_eq_true_eq] at he
  omega

theorem Chain.Later.pastOf_eq (h : c.Later d) (hblock : block ≤ c.head) (id : ℕ) :
    pastOf d.log id block = pastOf c.log id block := by
  unfold pastOf upTo
  rw [h.filter_eq]
  intro e he
  have hle : e.blockNumber ≤ block := by simpa using he
  omega

theorem Chain.ownerOf_eq (c : Chain) (id : ℕ) :
    c.ownerOf id = (replayed (pastOf c.log id c.head)).bind Marked.value := by
  unfold Chain.ownerOf
  rw [foldTransfers_upTo]

/-- A token without an event after `block` has the owner that it had there. -/
theorem Chain.ownerOf_of_no_event (hc : c.WellFormed) (hblock : block ≤ c.head)
    (hnone : ∀ e ∈ c.log, e.tokenId = id → block < e.blockNumber → ¬ e.blockNumber ≤ c.head) :
    c.ownerOf id = (replayed (pastOf c.log id block)).bind Marked.value := by
  have hempty : eventsOf c.log id block c.head = [] := by
    unfold eventsOf
    rw [List.map_eq_nil_iff, List.filter_eq_nil_iff]
    intro e he hevent
    simp only [Bool.and_eq_true, decide_eq_true_eq] at hevent
    exact hnone e he hevent.1.1 hevent.1.2 hevent.2
  rw [Chain.ownerOf_eq, pastOf_append hc.sorted hblock, hempty, List.append_nil]

theorem Chain.WellFormed.seal (hc : c.WellFormed) (n : ℕ) :
    Chain.WellFormed { c with head := c.head + n } := by
  refine ⟨hc.sorted, fun e he => ?_, fun e he hnext => ?_, hc.recipients⟩
  · have hle := hc.upToNext e he
    change e.blockNumber ≤ c.head + n + 1
    omega
  · cases n with
    | zero => exact hc.numbered e he hnext
    | succ n =>
      have hle := hc.upToNext e he
      change e.blockNumber = c.head + (n + 1) + 1 at hnext
      omega

theorem Chain.accepts_addressed {tx : Tx} (htx : tx.Addressed) {from_ to_ : JsStr}
    (h : c.accepts tx = some (from_, to_)) : isAddress to_ = true := by
  cases tx with
  | mint tokenId receiver =>
    simp only [Chain.accepts] at h
    split_ifs at h
    obtain ⟨-, rfl⟩ := Prod.mk.inj (Option.some.inj h)
    exact htx
  | transfer sender tokenId receiver =>
    simp only [Chain.accepts] at h
    split_ifs at h
    obtain ⟨-, rfl⟩ := Prod.mk.inj (Option.some.inj h)
    exact htx
  | burn tokenId =>
    obtain ⟨owner, -, hpair⟩ := Option.map_eq_some_iff.mp h
    obtain ⟨-, rfl⟩ := Prod.mk.inj hpair
    decide

theorem Chain.later_mine (c : Chain) (tx : Tx) : c.Later (c.mine tx) := by
  unfold Chain.mine
  cases c.accepts tx with
  | none => exact Chain.Later.refl c
  | some pair =>
    refine ⟨le_rfl, _, rfl, fun e he => ?_⟩
    obtain rfl := List.mem_singleton.mp he
    exact Nat.lt_succ_self _

theorem Chain.WellFormed.mine (hc : c.WellFormed) {tx : Tx} (htx : tx.Addressed) :
    (c.mine tx).WellFormed := by
  unfold Chain.mine
  cases haccepts : c.accepts tx with
  | none => exact hc
  | some pair =>
    obtain ⟨from_, to_⟩ := pair
    dsimp only
    refine ⟨?_, fun e he => ?_, fun e he hnext => ?_, fun e he => ?_⟩
    · refine List.pairwise_append.mpr ⟨hc.sorted, List.pairwise_singleton _ _, ?_⟩
      intro a ha b hb
      obtain rfl := List.mem_singleton.mp hb
      have hle := hc.upToNext a ha
      have hlt := hc.numbered a ha
      simp only [Transfer.before, Bool.or_eq_true, Bool.and_eq_true, decide_eq_true_eq]
      omega
    · rcases List.mem_append.mp he with hold | hnew
      · exact hc.upToNext e hold
      · rw [List.mem_singleton.mp hnew]
    · rw [List.filter_append, List.length_append]
      rcases List.mem_append.mp he with hold | hnew
      · have hlt := hc.numbered e hold hnext
        exact hlt.trans_le (Nat.le_add_right _ _)
      · rw [List.mem_singleton.mp hnew]
        simp
    · rcases List.mem_append.mp he with hold | hnew
      · exact hc.recipients e hold
      · rw [List.mem_singleton.mp hnew]
        exact Chain.accepts_addressed htx haccepts

end Chains

def Store.indexedOwner (s : Store) (id : ℕ) : Option JsStr := (holdings s.rows id).bind Marked.value

/-- The invariant: every row that is not right is still to be written by the replay. -/
structure Following (cfg : Config) (s : Store) : Prop where
  chain : s.chain.WellFormed
  scanned : s.scanned cfg ≤ s.covered cfg
  covered : s.covered cfg ≤ s.chain.head
  ahead : ∃ done, done ++ s.ahead = chunkOf s.chain.log (s.scanned cfg) (s.covered cfg)
  idle : s.pass = none → s.queried = none
  rows : ∀ id, 1 ≤ id → ∀ owner, s.chain.ownerOf id = some owner →
    s.indexedOwner id = some owner ∨ s.Pending cfg id

section Keeping
variable {cfg : Config} {s : Store}

theorem chunkOf_self (log : List Transfer) (block : ℕ) : chunkOf log block block = [] := by
  unfold chunkOf
  rw [List.filter_eq_nil_iff]
  intro e he
  have hrange := (List.mem_filter.mp he).2
  simp only [Bool.and_eq_true, decide_eq_true_eq] at hrange
  omega

theorem Store.Pending.later {t : Store} {id : ℕ} (h : s.Pending cfg id) (hahead : t.ahead = s.ahead)
    (hcovered : t.covered cfg = s.covered cfg) (hchain : s.chain.Later t.chain) :
    t.Pending cfg id := by
  rcases h with ⟨e, he, hid⟩ | ⟨e, he, hid, hlow, hhigh⟩
  · exact .inl ⟨e, hahead ▸ he, hid⟩
  · exact .inr ⟨e, hchain.mem he, hid, hcovered ▸ hlow, hhigh.trans hchain.head⟩

/-- The chain goes on, and nothing else changes. -/
theorem Following.later {t : Store} (h : Following cfg s) (hchain : s.chain.Later t.chain)
    (hwell : t.chain.WellFormed) (hrows : t.rows = s.rows) (hcursor : t.cursor = s.cursor)
    (hqueried : t.queried = s.queried) (hahead : t.ahead = s.ahead) (hpass : t.pass = s.pass) :
    Following cfg t := by
  have hscanned : t.scanned cfg = s.scanned cfg := by unfold Store.scanned; rw [hcursor]
  have hcovered : t.covered cfg = s.covered cfg := by unfold Store.covered; rw [hqueried, hscanned]
  refine ⟨hwell, ?_, ?_, ?_, ?_, fun id hid owner howner => ?_⟩
  · rw [hscanned, hcovered]
    exact h.scanned
  · rw [hcovered]
    exact h.covered.trans hchain.head
  · rw [hscanned, hcovered, hahead, hchain.chunkOf_eq h.covered]
    exact h.ahead
  · rw [hpass, hqueried]
    exact h.idle
  · by_cases hevent : ∃ e ∈ t.chain.log, e.tokenId = id ∧ t.covered cfg < e.blockNumber ∧
        e.blockNumber ≤ t.chain.head
    · exact .inr (.inr hevent)
    · have hnone : ∀ e ∈ t.chain.log, e.tokenId = id → s.chain.head < e.blockNumber →
          ¬ e.blockNumber ≤ t.chain.head := by
        intro e he htoken hlate hle
        have hbelow := h.covered
        have hmore : t.covered cfg < e.blockNumber := by omega
        exact hevent ⟨e, he, htoken, hmore, hle⟩
      have hbefore : s.chain.ownerOf id = some owner := by
        rw [Chain.ownerOf_of_no_event hwell hchain.head hnone, hchain.pastOf_eq le_rfl] at howner
        rw [Chain.ownerOf_eq]
        exact howner
      rcases h.rows id hid owner hbefore with hrow | hpending
      · left
        unfold Store.indexedOwner
        rw [hrows]
        exact hrow
      · exact .inr (hpending.later hahead hcovered hchain)

/-- A caller writes the current owner, or one that the replay will write over. -/
theorem Following.writeOwner (h : Following cfg s) {i tokenId : ℕ} {wallet : JsStr}
    (hok : Timely cfg i s (.writeOwner .caller tokenId wallet)) :
    Following cfg (s.write .caller (upsertOwner tokenId wallet s.rows)) := by
  refine ⟨h.chain, h.scanned, h.covered, h.ahead, h.idle, fun id hid owner howner => ?_⟩
  change s.chain.ownerOf id = some owner at howner
  have howned : (s.write .caller (upsertOwner tokenId wallet s.rows)).indexedOwner id =
      if id = tokenId then some wallet else s.indexedOwner id := by
    change (holdings (upsertOwner tokenId wallet s.rows) id).bind Marked.value = _
    rw [holdings_upsertOwner]
    by_cases htoken : id = tokenId
    · subst htoken
      rw [Function.update_self, if_pos rfl]
      rfl
    · rw [Function.update_of_ne htoken, if_neg htoken]
      rfl
  rw [howned]
  split_ifs with htoken
  · subst htoken
    rcases hok with hnone | hsame | hpending
    · rw [hnone] at howner
      cases howner
    · exact .inl (hsame.symm.trans howner)
    · exact .inr hpending
  · exact h.rows id hid owner howner

/-- The logs of the next chunk are read. -/
theorem Following.query (h : Following cfg s) (hqueried : s.queried = none) {stop : ℕ}
    (hlow : s.scanned cfg ≤ stop) (hhigh : stop ≤ s.chain.head) {logs : List Transfer}
    (hbatch : batchOf logs = chunkOf s.chain.log (s.scanned cfg) stop) (hpass : s.pass ≠ none) :
    Following cfg (s.query stop (.ok logs)) := by
  have hcovered : s.covered cfg = s.scanned cfg := by unfold Store.covered; rw [hqueried]; rfl
  refine ⟨h.chain, hlow, hhigh, ⟨[], hbatch⟩, fun hnone => absurd hnone hpass,
    fun id hid owner howner => ?_⟩
  rcases h.rows id hid owner howner with hrow | ⟨e, he, htoken⟩ | ⟨e, he, htoken, hlate, hle⟩
  · exact .inl hrow
  · obtain ⟨done, hdone⟩ := h.ahead
    rw [hcovered, chunkOf_self] at hdone
    rw [(List.append_eq_nil_iff.mp hdone).2] at he
    cases he
  · right
    rw [hcovered] at hlate
    by_cases hstop : e.blockNumber ≤ stop
    · left
      refine ⟨e, ?_, htoken⟩
      change e ∈ batchOf logs
      rw [hbatch]
      unfold chunkOf
      simp only [List.mem_filter, Bool.and_eq_true, decide_eq_true_eq]
      refine ⟨⟨he, ?_⟩, ?_⟩ <;> omega
    · right
      refine ⟨e, he, htoken, ?_, hle⟩
      change stop < e.blockNumber
      omega

/-- The replay writes the next transfer of the chunk. -/
theorem Following.replay (h : Following cfg s) {e : Transfer} {rest : List Transfer}
    (hahead : s.ahead = e :: rest) {rows : IndexRows}
    (hrows : holdings rows =
      Function.update (holdings s.rows) e.tokenId (writeEvent (holdings s.rows e.tokenId) e.event)) :
    Following cfg (s.write .replay rows) := by
  obtain ⟨done, hdone⟩ := h.ahead
  have hrest : (s.write .replay rows).ahead = rest := by
    change s.ahead.tail = rest
    rw [hahead]
    rfl
  refine ⟨h.chain, h.scanned, h.covered, ⟨done ++ [e], ?_⟩, h.idle, fun id hid owner howner => ?_⟩
  · rw [hrest, List.append_assoc]
    rw [hahead] at hdone
    exact hdone
  · change s.chain.ownerOf id = some owner at howner
    by_cases htoken : id = e.tokenId
    · by_cases hlater : (s.write .replay rows).Pending cfg id
      · exact .inr hlater
      · left
        have hlast : s.chain.ownerOf id = e.event := by
          have hnone : ∀ f ∈ s.chain.log, f.tokenId = id → s.covered cfg < f.blockNumber →
              ¬ f.blockNumber ≤ s.chain.head :=
            fun f hf hid' hlate hle => hlater (.inr ⟨f, hf, hid', hlate, hle⟩)
          have hnorest : transfersOf rest id = [] := by
            unfold transfersOf
            rw [List.filter_eq_nil_iff]
            intro f hf hid'
            exact hlater (.inl ⟨f, hrest ▸ hf, by simpa using hid'⟩)
          have hchunk : eventsOf s.chain.log id (s.scanned cfg) (s.covered cfg) =
              (transfersOf done id).map Transfer.event ++ [e.event] := by
            rw [← events_chunkOf _ _ _ hid, ← hdone, hahead, transfersOf, List.filter_append,
              List.filter_cons_of_pos (by simpa using htoken.symm), List.map_append, List.map_cons]
            have hnorest' : rest.filter (fun f => f.tokenId = id) = [] := hnorest
            rw [hnorest']
            rfl
          rw [Chain.ownerOf_of_no_event h.chain h.covered hnone,
            pastOf_append h.chain.sorted h.scanned, hchunk, ← List.append_assoc, replayed_concat]
          cases e.event <;> rfl
        unfold Store.indexedOwner
        change (holdings rows id).bind Marked.value = some owner
        rw [hrows, htoken, Function.update_self]
        rw [howner] at hlast
        rw [← hlast]
        rfl
    · have hsame : (s.write .replay rows).indexedOwner id = s.indexedOwner id := by
        change (holdings rows id).bind Marked.value = _
        rw [hrows, Function.update_of_ne htoken]
        rfl
      rw [hsame]
      rcases h.rows id hid owner howner with hrow | ⟨f, hf, hid'⟩ | hlog
      · exact .inl hrow
      · rw [hahead] at hf
        rcases List.mem_cons.mp hf with rfl | hmem
        · exact absurd hid'.symm htoken
        · exact .inr (.inl ⟨f, hrest ▸ hmem, hid'⟩)
      · exact .inr (.inr hlog)

/-- The cursor moves to the end of a chunk that is written. -/
theorem Following.saveCursor (h : Following cfg s) {stop : ℕ} (hqueried : s.queried = some stop)
    (hahead : s.ahead = []) (hdeploy : cfg.deployBlock ≤ stop) (complete : Bool) :
    Following cfg (s.saveCursor stop complete) := by
  have hcovered : s.covered cfg = stop := by unfold Store.covered; rw [hqueried]; rfl
  have hscanned : (s.saveCursor stop complete).scanned cfg = stop :=
    scanned_saveCursor complete hdeploy
  have hcovered' : (s.saveCursor stop complete).covered cfg = stop := hscanned
  refine ⟨h.chain, ?_, ?_, ⟨[], ?_⟩, fun _ => rfl, fun id hid owner howner => ?_⟩
  · rw [hscanned, hcovered']
  · rw [hcovered', ← hcovered]
    exact h.covered
  · rw [hscanned, hcovered', chunkOf_self]
    exact hahead
  · rcases h.rows id hid owner howner with hrow | ⟨e, he, -⟩ | ⟨e, he, htoken, hlate, hle⟩
    · exact .inl hrow
    · rw [hahead] at he
      cases he
    · refine .inr (.inr ⟨e, he, htoken, ?_, hle⟩)
      rw [hcovered', ← hcovered]
      exact hlate

theorem Following.mark (h : Following cfg s) : Following cfg s.markBackfillComplete := by
  have hscanned : s.markBackfillComplete.scanned cfg = s.scanned cfg := scanned_mark
  have hcovered : s.markBackfillComplete.covered cfg = s.covered cfg := by
    unfold Store.covered
    rw [hscanned]
    rfl
  refine ⟨h.chain, ?_, ?_, ?_, h.idle, fun id hid owner howner => ?_⟩
  · rw [hscanned, hcovered]
    exact h.scanned
  · rw [hcovered]
    exact h.covered
  · rw [hscanned, hcovered]
    exact h.ahead
  · rcases h.rows id hid owner howner with hrow | hpending
    · exact .inl hrow
    · exact .inr (hpending.later rfl hcovered (Chain.Later.refl _))

/-- A pass is over, and what it had not written is left to the next one. -/
theorem Following.endPass (h : Following cfg s) :
    Following cfg { s with pass := none, queried := none, ahead := [] } := by
  refine ⟨h.chain, le_rfl, h.scanned.trans h.covered, ⟨[], ?_⟩, fun _ => rfl,
    fun id hid owner howner => ?_⟩
  · exact (chunkOf_self _ _).symm
  · rcases h.rows id hid owner howner with hrow | ⟨e, he, htoken⟩ | ⟨e, he, htoken, hlate, hle⟩
    · exact .inl hrow
    · obtain ⟨done, hdone⟩ := h.ahead
      have hchunk : e ∈ chunkOf s.chain.log (s.scanned cfg) (s.covered cfg) := by
        rw [← hdone]
        exact List.mem_append_right _ he
      unfold chunkOf at hchunk
      simp only [List.mem_filter, Bool.and_eq_true, decide_eq_true_eq] at hchunk
      obtain ⟨⟨hmem, hlow, hhigh⟩, -⟩ := hchunk
      exact .inr (.inr ⟨e, hmem, htoken, hlow, hhigh.trans h.covered⟩)
    · exact .inr (.inr ⟨e, he, htoken, h.scanned.trans_lt hlate, hle⟩)

end Keeping

/-- What the steps of the others leave to task `i`: the sealed blocks, and the state of its pass. -/
structure Undisturbed (i : ℕ) (s t : Store) : Prop where
  chain : s.chain.Later t.chain
  pass : s.pass = some i ↔ t.pass = some i
  kept : s.pass = some i → t.cursor = s.cursor ∧ t.queried = s.queried ∧ t.ahead = s.ahead

theorem Undisturbed.trans {i : ℕ} {s t u : Store} (h : Undisturbed i s t) (h' : Undisturbed i t u) :
    Undisturbed i s u := by
  refine ⟨h.chain.trans h'.chain, h.pass.trans h'.pass, fun hpass => ?_⟩
  obtain ⟨hcursor, hqueried, hahead⟩ := h.kept hpass
  obtain ⟨hcursor', hqueried', hahead'⟩ := h'.kept (h.pass.mp hpass)
  exact ⟨hcursor'.trans hcursor, hqueried'.trans hqueried, hahead'.trans hahead⟩

def following (cfg : Config) : Contract Store where
  inv := Following cfg
  guar j s t := ∀ i, i ≠ j → Undisturbed i s t
  rely := Undisturbed
  rely_refl _ _ := ⟨Chain.Later.refl _, Iff.rfl, fun _ => ⟨rfl, rfl, rfl⟩⟩
  rely_trans _ _ _ _ := Undisturbed.trans
  rely_of_guar i _ _ _ hij h := h i hij

/-- The commands of the calls that are not passes. -/
def CallerCmd : Cmd → Prop
  | .sealBlocks _ => True
  | .ownerOf _ => True
  | .awaitBlock _ => True
  | .mine tx => tx.Addressed
  | .writeOwner .caller _ _ => True
  | _ => False

section Callers
variable {cfg : Config} {i : ℕ}

theorem act_of_step {s u : Store} {x : World} {c : Cmd} {r : Res c} (h : step i s x c = some (r, u)) :
    blocked s c = false ∧ act i s x c = (r, u) := by
  unfold step at h
  split_ifs at h with hblocked
  exact ⟨by simpa using hblocked, Option.some.inj h⟩

/-- A caller moves the chain on, or writes one row; the pass goes on from where it was. -/
theorem caller_step {s u : Store} {x : World} {c : Cmd} {r : Res c} (hc : CallerCmd c)
    (hs : Following cfg s) (hok : Timely cfg i s c) (h : step i s x c = some (r, u)) :
    Following cfg u ∧ ∀ j, Undisturbed j s u := by
  obtain ⟨-, hact⟩ := act_of_step h
  have hu : (act i s x c).2 = u := congrArg Prod.snd hact
  subst hu
  cases c with
  | sealBlocks blocks =>
    have hlater : s.chain.Later (s.seal blocks).chain :=
      ⟨Nat.le_add_right _ _, [], (List.append_nil _).symm, fun e he => by cases he⟩
    exact ⟨hs.later hlater (hs.chain.seal blocks) rfl rfl rfl rfl rfl,
      fun j => ⟨hlater, Iff.rfl, fun _ => ⟨rfl, rfl, rfl⟩⟩⟩
  | mine tx =>
    change Following cfg (s.mine x tx).2 ∧ ∀ j, Undisturbed j s (s.mine x tx).2
    unfold Store.mine
    split_ifs
    · exact ⟨hs, fun j => ⟨Chain.Later.refl _, Iff.rfl, fun _ => ⟨rfl, rfl, rfl⟩⟩⟩
    · have hlater := Chain.later_mine s.chain tx
      exact ⟨hs.later hlater (hs.chain.mine hc) rfl rfl rfl rfl rfl,
        fun j => ⟨hlater, Iff.rfl, fun _ => ⟨rfl, rfl, rfl⟩⟩⟩
  | ownerOf tokenId => exact ⟨hs, fun j => ⟨Chain.Later.refl _, Iff.rfl, fun _ => ⟨rfl, rfl, rfl⟩⟩⟩
  | awaitBlock block => exact ⟨hs, fun j => ⟨Chain.Later.refl _, Iff.rfl, fun _ => ⟨rfl, rfl, rfl⟩⟩⟩
  | writeOwner by_ tokenId wallet =>
    cases by_ with
    | replay => cases hc
    | caller =>
      exact ⟨hs.writeOwner hok, fun j => ⟨Chain.Later.refl _, Iff.rfl, fun _ => ⟨rfl, rfl, rfl⟩⟩⟩
  | _ => cases hc

theorem caller_mineAndWait {tx : Tx} (htx : tx.Addressed) : (mineAndWait tx).Issues CallerCmd :=
  Prog.issues_bind ⟨htx, fun _ => Prog.issues_ret _⟩ fun _ => ⟨trivial, fun _ => Prog.issues_ret _⟩

theorem caller_recordOwner (tokenId : ℕ) (owner : JsStr) :
    (recordOwner .caller tokenId owner).Issues CallerCmd := by
  unfold recordOwner
  split_ifs
  · exact ⟨trivial, fun _ => Prog.issues_ret _⟩
  · exact Prog.issues_ret _

theorem caller_mintAttempts {recipient : JsStr} (h : isAddress recipient = true)
    (tokenIds : List ℕ) : (mintAttempts recipient tokenIds).Issues CallerCmd := by
  induction tokenIds with
  | nil => exact Prog.issues_ret _
  | cons tokenId tokenIds ih =>
    refine Prog.issues_settle ?_ fun r => ?_
    · refine Prog.issues_bind (caller_mineAndWait h) fun _ => ?_
      exact Prog.issues_bind (caller_recordOwner _ _) fun _ => Prog.issues_ret _
    · cases r with
      | ok minted => exact Prog.issues_ret _
      | error e =>
        dsimp only
        split_ifs
        · exact Prog.issues_ret _
        · exact ih

theorem caller_getRwaTokenOwner (tokenId : ℕ) : (getRwaTokenOwner tokenId).Issues CallerCmd :=
  Prog.issues_bind ⟨trivial, fun _ => Prog.issues_ret _⟩ fun _ => Prog.issues_ret _

theorem caller_safeTransferFromCustody (custody : JsStr) (tokenId : ℕ) (to_ : JsStr) :
    (safeTransferFromCustody custody tokenId to_).Issues CallerCmd := by
  refine Prog.issues_guard fun hvalid => ?_
  have haddress : isAddress (lower (trim to_)) = true := by simpa using hvalid
  refine Prog.issues_bind (caller_getRwaTokenOwner tokenId) fun owner => ?_
  refine Prog.issues_bind (Prog.issues_throwIf _ _) fun _ => ?_
  exact Prog.issues_bind (caller_mineAndWait haddress) fun _ => caller_recordOwner _ _

theorem caller_filterTokenOwnedByWallet (wallet : JsStr) (tokenId : ℕ) :
    (filterTokenOwnedByWallet wallet tokenId).Issues CallerCmd := by
  unfold filterTokenOwnedByWallet
  split_ifs
  · refine Prog.issues_settle (caller_getRwaTokenOwner tokenId) fun r => ?_
    cases r with
    | error e => exact Prog.issues_ret _
    | ok onChain =>
      dsimp only
      split_ifs
      · exact Prog.issues_ret _
      · refine Prog.issues_bind ?_ fun _ => Prog.issues_ret _
        exact Prog.issues_settle (caller_recordOwner _ _) fun _ => Prog.issues_ret _
  · exact Prog.issues_ret _

theorem caller_body (custody : JsStr) (call : WriterCall) : (call.body custody).Issues CallerCmd := by
  have hdiscard : ∀ {α : Type} {p : M α}, p.Issues CallerCmd → p.discard.Issues CallerCmd := by
    intro α p hp
    refine Prog.issues_settle hp fun r => ?_
    cases r <;> exact Prog.issues_ret _
  cases call with
  | transact tx h => exact hdiscard ⟨h, fun _ => Prog.issues_ret _⟩
  | sealBlocks blocks => exact ⟨trivial, fun _ => Prog.issues_ret _⟩
  | mintTo to_ tokenIds =>
    refine hdiscard ?_
    unfold mintTo
    split_ifs with haddress
    · exact caller_mintAttempts haddress tokenIds
    · exact Prog.issues_ret _
  | safeTransferFromCustody tokenId to_ => exact caller_safeTransferFromCustody custody tokenId to_
  | settleAsk seller tokenId buyer h =>
    refine Prog.issues_bind (caller_mineAndWait h) fun _ => ?_
    unfold recordBuyerOwnershipAfterSettle
    split_ifs
    · exact Prog.issues_ret _
    · exact Prog.issues_settle (caller_recordOwner _ _) fun _ => Prog.issues_ret _
  | filterTokenOwnedByWallet wallet tokenId =>
    exact hdiscard (caller_filterTokenOwnedByWallet wallet tokenId)

end Callers

/-- Task `i` runs the pass, between two chunks: the logs up to `block` are written. -/
structure Between (cfg : Config) (i latest block : ℕ) (s : Store) : Prop where
  pass : s.pass = some i
  queried : s.queried = none
  scanned : s.scanned cfg = block
  head : latest ≤ s.chain.head

/-- Task `i` runs the pass, in the chunk after `block` of which `rest` is still to be written. -/
structure Within (cfg : Config) (i latest block stop : ℕ) (rest : List Transfer) (s : Store) :
    Prop where
  pass : s.pass = some i
  queried : s.queried = some stop
  ahead : s.ahead = rest
  scanned : s.scanned cfg = block
  head : latest ≤ s.chain.head

abbrev IndexWp {α : Type} (cfg : Config) (i : ℕ) (p : M α) (Q : Except Failure α → Store → Prop)
    (s : Store) : Prop := wp step (Timely cfg) (following cfg) i p Q s

section Passes
variable {cfg : Config} {i latest block stop : ℕ} {rest : List Transfer} {s t : Store}

theorem scanned_of_kept (h : Undisturbed i s t) (hpass : s.pass = some i) :
    t.scanned cfg = s.scanned cfg := by
  unfold Store.scanned
  rw [(h.kept hpass).1]

theorem stable_between : (following cfg).Stable i (Between cfg i latest block) := by
  intro s t hst _ hs
  have hscanned : t.scanned cfg = s.scanned cfg := scanned_of_kept hst hs.pass
  refine ⟨hst.pass.mp hs.pass, ?_, hscanned.trans hs.scanned, hs.head.trans hst.chain.head⟩
  exact (hst.kept hs.pass).2.1.trans hs.queried

theorem stable_within : (following cfg).Stable i (Within cfg i latest block stop rest) := by
  intro s t hst _ hs
  obtain ⟨-, hqueried, hahead⟩ := hst.kept hs.pass
  have hscanned : t.scanned cfg = s.scanned cfg := scanned_of_kept hst hs.pass
  exact ⟨hst.pass.mp hs.pass, hqueried.trans hs.queried, hahead.trans hs.ahead,
    hscanned.trans hs.scanned, hs.head.trans hst.chain.head⟩

theorem stable_running : (following cfg).Stable i fun s => s.pass = some i :=
  fun _ _ hst _ hs => hst.pass.mp hs

/-- The steps of the task that holds the pass are no business of the others. -/
theorem undisturbed_of_pass (hpass : s.pass = some i ∨ s.pass = none)
    (hpass' : t.pass = some i ∨ t.pass = none) (hchain : t.chain = s.chain) :
    ∀ j, j ≠ i → Undisturbed j s t := by
  intro j hji
  have hother : ∀ o : Option ℕ, o = some i ∨ o = none → o ≠ some j := by
    rintro o (rfl | rfl) heq
    · exact hji (Option.some.inj heq).symm
    · cases heq
  refine ⟨hchain ▸ Chain.Later.refl _, ?_, fun hj => absurd hj (hother _ hpass)⟩
  exact ⟨fun hj => absurd hj (hother _ hpass), fun hj => absurd hj (hother _ hpass')⟩

/-- A command that only reads. -/
theorem wp_read {α : Type} {P : Store → Prop} (hP : (following cfg).Stable i P) {c : Cmd}
    (hc : ∀ t x, (act i t x c).2 = t) {next : Res c → M α} {Q : Except Failure α → Store → Prop}
    (hs : P s) (h : ∀ t x, P t → Following cfg t → IndexWp cfg i (next (act i t x c).1) Q t) :
    IndexWp cfg i (.call c next) Q s := by
  refine wp_call P hP hs fun t ht hinv _ x r u hu => ?_
  obtain ⟨-, hact⟩ := act_of_step hu
  have hr : (act i t x c).1 = r := congrArg Prod.fst hact
  have hu' : t = u := (hc t x).symm.trans (congrArg Prod.snd hact)
  subst hr hu'
  refine ⟨hinv, fun j _ => ⟨Chain.Later.refl _, Iff.rfl, fun _ => ⟨rfl, rfl, rfl⟩⟩, h t x ht hinv⟩

/-- A command of the pass that has an effect. -/
theorem wp_passStep {α : Type} {P : Store → Prop} (hP : (following cfg).Stable i P) {c : Cmd}
    {next : Res c → M α} {Q : Except Failure α → Store → Prop} (hs : P s)
    (hpass : ∀ t, P t → t.pass = some i)
    (h : ∀ t x, P t → Following cfg t → Following cfg (act i t x c).2 ∧
      (act i t x c).2.chain = t.chain ∧
      ((act i t x c).2.pass = some i ∨ (act i t x c).2.pass = none) ∧
      IndexWp cfg i (next (act i t x c).1) Q (act i t x c).2) :
    IndexWp cfg i (.call c next) Q s := by
  refine wp_call P hP hs fun t ht hinv _ x r u hu => ?_
  obtain ⟨-, hact⟩ := act_of_step hu
  have hr : (act i t x c).1 = r := congrArg Prod.fst hact
  have hu' : (act i t x c).2 = u := congrArg Prod.snd hact
  subst hr hu'
  obtain ⟨hinv', hchain, hpass', hnext⟩ := h t x ht hinv
  exact ⟨hinv', undisturbed_of_pass (.inl (hpass t ht)) hpass' hchain, hnext⟩

theorem Within.written {e : Transfer} (h : Within cfg i latest block stop (e :: rest) s)
    (rows : IndexRows) : Within cfg i latest block stop rest (s.write .replay rows) := by
  refine ⟨h.pass, h.queried, ?_, h.scanned, h.head⟩
  change s.ahead.tail = rest
  rw [h.ahead]
  rfl

theorem wp_recordTransfers (haddressed : ∀ e ∈ rest, isAddress e.to_ = true)
    (hs : Within cfg i latest block stop rest s) :
    IndexWp cfg i (recordTransfers rest)
      (fun r t => r = .ok () ∧ Within cfg i latest block stop [] t) s := by
  induction rest generalizing s with
  | nil => exact wp_ret ⟨rfl, hs⟩
  | cons e rest ih =>
    have haddress := haddressed e List.mem_cons_self
    have hrest : ∀ f ∈ rest, isAddress f.to_ = true :=
      fun f hf => haddressed f (List.mem_cons_of_mem e hf)
    obtain ⟨hburn, howner⟩ := event_eq haddress
    unfold recordTransfers recordTransfer
    split_ifs with hzero
    · refine wp_passStep stable_within hs (fun t ht => ht.pass) fun t x ht hinv => ?_
      refine ⟨hinv.replay ht.ahead ?_, rfl, .inl ht.pass, ih hrest (ht.written _)⟩
      rw [hburn hzero]
      exact holdings_burnRow _ _ _
    · have hvalid : isAddress (lower (trim (lower (trim e.to_)))) = true := by
        rw [lower_trim_of_isAddress haddress, lower_trim_of_isAddress haddress]
        exact haddress
      unfold recordOwner
      rw [if_pos hvalid]
      refine wp_passStep stable_within hs (fun t ht => ht.pass) fun t x ht hinv => ?_
      refine ⟨hinv.replay ht.ahead ?_, rfl, .inl ht.pass, ih hrest (ht.written _)⟩
      rw [howner hzero]
      exact holdings_upsertOwner _ _ _

/-- The node answers with the logs of the chunk, in some order. -/
theorem batchOf_answer {x : World} {logs : List Transfer} (hwell : s.chain.WellFormed)
    (hlogs : x.rpc (x.arrange (s.chain.log.filter fun e =>
      block + 1 ≤ e.blockNumber && e.blockNumber ≤ stop)) = .ok logs) :
    batchOf logs = chunkOf s.chain.log block stop := by
  unfold World.rpc at hlogs
  split_ifs at hlogs
  obtain rfl := Except.ok.inj hlogs
  exact batchOf_eq hwell.sorted (x.arrange_perm _)

theorem wp_pause (hs : Between cfg i latest block s) :
    IndexWp cfg i (pause cfg stop latest)
      (fun r t => r = .ok () ∧ Between cfg i latest block t) s := by
  unfold pause
  split_ifs
  · exact wp_read stable_between (fun _ _ => rfl) hs fun t x ht _ => wp_ret ⟨rfl, ht⟩
  · exact wp_ret ⟨rfl, hs⟩

theorem wp_scanChunks (maxBlocksPerRun : ℕ) (complete : Bool) {fuel : ℕ} {sc : Scan}
    (hs : Between cfg i latest block s) (hdeploy : cfg.deployBlock ≤ sc.start)
    (hstart : latest < sc.start ∨ sc.start = block + 1) :
    IndexWp cfg i (scanChunks cfg latest maxBlocksPerRun complete fuel sc)
      (fun _ t => ∃ block', Between cfg i latest block' t) s := by
  induction fuel generalizing s sc block with
  | zero => exact wp_ret ⟨block, hs⟩
  | succ fuel ih =>
    unfold scanChunks
    split_ifs with hstop
    · exact wp_ret ⟨block, hs⟩
    · simp only [Bool.or_eq_true, decide_eq_true_eq, not_or, not_lt, not_le] at hstop
      have hnext : sc.start = block + 1 := by omega
      have hchunk := cfg.logChunkSize_pos
      dsimp only
      set stop := min (sc.start + cfg.logChunkSize - 1) latest with hstopDef
      have hbounds : block ≤ stop ∧ stop ≤ latest ∧ sc.start ≤ stop := by omega
      refine wp_passStep stable_between hs (fun t ht => ht.pass) fun t x ht hinv => ?_
      rw [hnext]
      cases hlogs : (act i t x (.queryTransferLogs (block + 1) stop)).1 with
      | error e =>
        have hsame : (act i t x (.queryTransferLogs (block + 1) stop)).2 = t := by
          change t.query stop (act i t x (.queryTransferLogs (block + 1) stop)).1 = t
          rw [hlogs]
          rfl
        rw [hsame]
        exact ⟨hinv, rfl, .inl ht.pass, wp_ret ⟨block, ht⟩⟩
      | ok logs =>
        have hread : (act i t x (.queryTransferLogs (block + 1) stop)).2 = t.query stop (.ok logs) := by
          change t.query stop (act i t x (.queryTransferLogs (block + 1) stop)).1 = _
          rw [hlogs]
        have hbatch : batchOf logs = chunkOf t.chain.log block stop :=
          batchOf_answer hinv.chain hlogs
        have hpass : t.pass ≠ none := by rw [ht.pass]; simp
        have hlow : t.scanned cfg ≤ stop := by rw [ht.scanned]; exact hbounds.1
        have hhigh : stop ≤ t.chain.head := hbounds.2.1.trans ht.head
        have hbatch' : batchOf logs = chunkOf t.chain.log (t.scanned cfg) stop := by
          rw [ht.scanned]
          exact hbatch
        rw [hread]
        refine ⟨hinv.query ht.queried hlow hhigh hbatch' hpass, rfl, .inl ht.pass, ?_⟩
        have haddressed : ∀ e ∈ batchOf logs, isAddress e.to_ = true := by
          intro e he
          rw [hbatch] at he
          exact hinv.chain.recipients e (List.mem_of_mem_filter (List.mem_of_mem_filter he))
        have hwithin : Within cfg i latest block stop (batchOf logs) (t.query stop (.ok logs)) :=
          ⟨ht.pass, rfl, rfl, ht.scanned, ht.head⟩
        change IndexWp cfg i (recordTransfers (batchOf logs) >>= _) _ (t.query stop (.ok logs))
        refine wp_bind (wp_mono (fun r u hr => ?_) (wp_recordTransfers haddressed hwithin))
        obtain ⟨rfl, hwritten⟩ := hr
        refine wp_passStep stable_within hwritten (fun v hv => hv.pass) fun v y hv hinv' => ?_
        have hstop' : cfg.deployBlock ≤ stop := hdeploy.trans hbounds.2.2
        refine ⟨hinv'.saveCursor hv.queried hv.ahead hstop' complete, rfl, .inl hv.pass, ?_⟩
        have hsaved : Between cfg i latest stop (v.saveCursor stop complete) :=
          ⟨hv.pass, rfl, scanned_saveCursor complete hstop', hv.head⟩
        change IndexWp cfg i (pause cfg stop latest >>= _) _ (v.saveCursor stop complete)
        refine wp_bind (wp_mono (fun r w hr => ?_) (wp_pause hsaved))
        obtain ⟨rfl, hw⟩ := hr
        refine ih hw (hdeploy.trans (Nat.le_add_right _ _)) ?_
        change latest < sc.start + cfg.logChunkSize ∨ sc.start + cfg.logChunkSize = stop + 1
        omega

theorem wp_judgeBackfill (sc : Scan) (hs : Between cfg i latest block s) :
    IndexWp cfg i (judgeBackfill latest sc) (fun _ t => t.pass = some i) s := by
  refine wp_read stable_between (fun _ _ => rfl) hs fun t x ht _ => ?_
  change IndexWp cfg i (Prog.ret (x.rpc t.chain.totalSupply) >>= _) _ t
  cases x.rpc t.chain.totalSupply with
  | error e => exact wp_ret ht.pass
  | ok totalMinted =>
    refine wp_read stable_between (fun _ _ => rfl) ht fun u y hu _ => ?_
    change IndexWp cfg i (if _ then _ else _) _ u
    split_ifs
    · refine wp_passStep stable_between hu (fun v hv => hv.pass) fun v z hv hinv => ?_
      exact ⟨hinv.mark, rfl, .inl hv.pass, wp_ret hv.pass⟩
    · exact wp_ret hu.pass

theorem wp_backfillFromTransferLogs (maxBlocksPerRun : ℕ) (hs : Between cfg i 0 block s) :
    IndexWp cfg i (backfillFromTransferLogs cfg maxBlocksPerRun) (fun _ t => t.pass = some i) s := by
  unfold backfillFromTransferLogs
  split_ifs with hdeploy
  · exact wp_ret hs.pass
  · refine wp_read stable_between (fun _ _ => rfl) hs fun t x ht _ => ?_
    have hresume : cfg.deployBlock ≤ resumeAfter cfg t.cursor := by
      unfold resumeAfter
      split
      · split_ifs
        · omega
        · exact le_rfl
      · exact le_rfl
    have hstart : resumeAfter cfg t.cursor = block + 1 := by
      have hscanned := ht.scanned
      unfold Store.scanned at hscanned
      omega
    refine wp_read stable_between (fun _ _ => rfl) ht fun u y hu _ => ?_
    change IndexWp cfg i (Prog.ret (y.rpc u.chain.head) >>= _) _ u
    cases hanswer : y.rpc u.chain.head with
    | error e => exact wp_ret hu.pass
    | ok latest =>
      have hlatest : latest ≤ u.chain.head := by
        unfold World.rpc at hanswer
        split_ifs at hanswer
        exact (Except.ok.inj hanswer).symm.le
      change IndexWp cfg i (if latest < max cfg.deployBlock (resumeAfter cfg t.cursor) then _ else _)
        _ u
      split_ifs with hdone
      · exact wp_ret hu.pass
      · have hcursor : (act i t x .findCursor).1 = t.cursor := rfl
        rw [hcursor, max_eq_right hresume, hstart]
        have hbetween : Between cfg i latest block u := ⟨hu.pass, hu.queried, hu.scanned, hlatest⟩
        have hdeployed : cfg.deployBlock ≤ block + 1 := hstart ▸ hresume
        refine wp_bind (wp_mono (fun r v hv => ?_)
          (wp_scanChunks maxBlocksPerRun _ hbetween hdeployed (.inr rfl)))
        obtain ⟨block', hv⟩ := hv
        cases r with
        | error e => exact hv.pass
        | ok sc =>
          refine wp_bind (wp_mono (fun r w hw => ?_) (wp_judgeBackfill sc hv))
          cases r with
          | error e => exact hw
          | ok _ => exact wp_ret hw

theorem pass_of_passCmd {x : World} {c : Cmd} {r : Res c} {u : Store} (hc : PassCmd c)
    (h : step i s x c = some (r, u)) : u.pass = s.pass := by
  obtain ⟨-, hact⟩ := act_of_step h
  have hu : (act i s x c).2 = u := congrArg Prod.snd hact
  subst hu
  cases c with
  | startPass => exact absurd rfl hc.2.1
  | endPass => exact absurd rfl hc.2.2
  | queryTransferLogs start stop =>
    change (s.query stop _).pass = s.pass
    unfold Store.query
    split <;> rfl
  | mine tx =>
    change (s.mine x tx).2.pass = s.pass
    unfold Store.mine
    split_ifs <;> rfl
  | decideRescan rowCount totalMinted =>
    change (s.decideRescan x.now rowCount totalMinted).2.pass = s.pass
    unfold Store.decideRescan
    split_ifs
    · rfl
    · cases s.healInFlight <;> rfl
  | _ => rfl

/-- A pass starts where the last one has left the cursor, and leaves what is not written to the next. -/
theorem wp_runPass (maxBlocksPerRun n : ℕ) (hs : s.pass ≠ some i) :
    IndexWp cfg i (runPass cfg maxBlocksPerRun n) (fun _ t => t.pass ≠ some i) s := by
  refine wp_call (fun t => t.pass ≠ some i)
    (fun t u htu _ ht hu => ht (htu.pass.mpr hu)) hs fun t ht hinv _ x r u hu => ?_
  obtain ⟨hfree, hact⟩ := act_of_step hu
  have hidle : t.pass = none := by simpa [blocked] using hfree
  have hu' : { t with pass := some i } = u := congrArg Prod.snd hact
  subst hu'
  have hquiet := hinv.idle hidle
  refine ⟨⟨hinv.chain, hinv.scanned, hinv.covered, hinv.ahead, nofun, hinv.rows⟩,
    undisturbed_of_pass (.inr hidle) (.inl rfl) rfl, ?_⟩
  have hbetween : Between cfg i 0 (t.scanned cfg) { t with pass := some i } :=
    ⟨rfl, hquiet, rfl, Nat.zero_le _⟩
  have hbackfill := wp_failAfter (e := Failure.database) (n := n) stable_running
    (fun c hc v x r w hv hw => (pass_of_passCmd hc hw).trans hv)
    (passCmd_backfillFromTransferLogs maxBlocksPerRun) rfl
    (wp_backfillFromTransferLogs maxBlocksPerRun hbetween)
  change IndexWp cfg i (Prog.settle ((backfillFromTransferLogs cfg maxBlocksPerRun).failAfter .database n)
    fun _ => perform .endPass) _ _
  refine wp_settle (wp_mono (fun r v hv => ?_) hbackfill)
  refine wp_passStep stable_running hv (fun w hw => hw) fun w y hw hinv' => ?_
  exact ⟨hinv'.endPass, rfl, .inr rfl, wp_ret nofun⟩

end Passes

theorem wp_write {cfg : Config} {i : ℕ} {s : Store} (custody : JsStr) (call : WriterCall) (n : ℕ)
    (hs : s.pass ≠ some i) :
    IndexWp cfg i ((call.body custody).failAfter .database n) (fun _ t => t.pass ≠ some i) s := by
  have hstable : (following cfg).Stable i fun t => t.pass ≠ some i :=
    fun t u htu _ ht hu => ht (htu.pass.mpr hu)
  refine wp_of_issues hstable (fun c hc t x r u ht hpass hok hu => ?_)
    (Prog.issues_failAfter (caller_body custody call)) hs
  obtain ⟨hu', hothers⟩ := caller_step hc ht hok hu
  exact ⟨hu', fun j _ => hothers j, fun hi => hpass ((hothers i).pass.mpr hi)⟩

theorem following_emptyIndex {cfg : Config} {head : ℕ} (hdeploy : cfg.deployBlock ≤ head + 1) :
    Following cfg (emptyIndex [] head) := by
  have hscanned : (emptyIndex [] head).scanned cfg = cfg.deployBlock - 1 := rfl
  have hcovered : (emptyIndex [] head).covered cfg = cfg.deployBlock - 1 := rfl
  have hnobody : ∀ id, (emptyIndex [] head).chain.ownerOf id = none := fun _ => rfl
  refine ⟨⟨List.Pairwise.nil, nofun, nofun, nofun⟩, le_rfl, ?_, ⟨[], rfl⟩, fun _ => rfl, ?_⟩
  · rw [hcovered]
    change cfg.deployBlock - 1 ≤ head
    omega
  · intro id _ owner howner
    rw [hnobody id] at howner
    cases howner

/-- When no call is in flight and the cursor is at the head, nothing is left to be replayed. -/
theorem Following.settled {cfg : Config} {s : Store} (h : Following cfg s) (hpass : s.pass = none)
    {block : ℕ}
    (hcursor : s.cursor.bind Cursor.lastScannedBlock = some block) (hhead : s.chain.head ≤ block)
    {id : ℕ} (hid : 1 ≤ id) {owner : JsStr} (howner : s.chain.ownerOf id = some owner) :
    s.indexedOwner id = some owner := by
  have hscanned : s.chain.head ≤ s.scanned cfg := by
    unfold Store.scanned resumeAfter
    rw [hcursor]
    dsimp only
    split_ifs <;> omega
  have hcovered : s.covered cfg = s.scanned cfg := by
    unfold Store.covered
    rw [h.idle hpass]
    rfl
  rcases h.rows id hid owner howner with hrow | ⟨e, he, -⟩ | ⟨e, he, -, hlate, hle⟩
  · exact hrow
  · obtain ⟨done, hdone⟩ := h.ahead
    rw [hcovered, chunkOf_self] at hdone
    rw [(List.append_eq_nil_iff.mp hdone).2] at he
    cases he
  · omega

/-- In every run in which an owner is written only while it is the current one or while the replay still
has a transfer of the token before it: when no call is in flight and the cursor has reached the head
block, the index has the owner of every live token. -/
theorem index_converges {cfg : Config} {custody : JsStr} {head : ℕ}
    (hdeploy : cfg.deployBlock ≤ head + 1) {p : Pool Store Cmd Res Failure Unit}
    (hreach : Pool.Reach step (IndexCall.task cfg custody) (Timely cfg) ⟨emptyIndex [] head, []⟩ p)
    (hidle : ∀ t ∈ p.tasks, t.isSettled = true) {block : ℕ}
    (hcursor : p.shared.cursor.bind Cursor.lastScannedBlock = some block)
    (hhead : p.shared.chain.head ≤ block) {tokenId : ℕ} (hid : 1 ≤ tokenId) {owner : JsStr}
    (howner : p.shared.chain.ownerOf tokenId = some owner) :
    p.shared.indexedOwner tokenId = some owner := by
  have hentry : ∀ call i s, (following cfg).inv s → s.pass ≠ some i →
      IndexWp cfg i (IndexCall.task cfg custody call) (fun _ t => t.pass ≠ some i) s := by
    intro call i s _ hs
    cases call with
    | runPass maxBlocksPerRun n => exact wp_runPass maxBlocksPerRun n hs
    | write call n => exact wp_write custody call n hs
  have hstable : ∀ i s t, Undisturbed i s t → s.pass ≠ some i → t.pass ≠ some i :=
    fun i s t hst hs ht => hs (hst.pass.mpr ht)
  have hnobody : ∀ i, (emptyIndex [] head).pass ≠ some i := nofun
  obtain ⟨hsafe, hfresh⟩ := Pool.safe_reach_of_fresh (Γ := following cfg)
    (Q := fun i _ t => t.pass ≠ some i) (F := fun i t => t.pass ≠ some i)
    (fun i _ s t => hstable i s t) hstable hentry hreach
    (Pool.safe_nil (following_emptyIndex hdeploy)) fun i _ => hnobody i
  have hpass : p.shared.pass = none := by
    cases hholder : p.shared.pass with
    | none => rfl
    | some i =>
      by_cases hlt : i < p.tasks.length
      · obtain ⟨r, hr⟩ := Prog.isSettled_iff.mp (hidle _ (List.getElem_mem hlt))
        have hend := hsafe.ended (List.getElem?_eq_some_iff.mpr ⟨hlt, hr⟩)
        exact absurd hholder hend
      · exact absurd hholder (hfresh i (Nat.le_of_not_lt hlt))
  exact hsafe.inv.settled hpass hcursor hhead hid howner

section Runs

abbrev IndexEvent := Pool.Event IndexCall World

/-- A call of task `i` that is started, and makes `n` steps. -/
def begun (i : ℕ) (call : WriterCall) (n : ℕ) : List IndexEvent :=
  .spawn (.write call 100) :: List.replicate n (.run i {})

/-- A pass that runs alone, of `n` commands. -/
def passed (i n : ℕ) : List IndexEvent := .spawn (.runPass 2000 100) :: List.replicate n (.run i {})

/-- What a run comes to for token 1. -/
structure Ending where
  settled : Bool
  cursor : Option ℕ
  head : ℕ
  owner : Option JsStr
  indexed : Option JsStr
  deriving DecidableEq

def ending (p : Pool Store Cmd Res Failure Unit) : Ending where
  settled := p.tasks.all Prog.isSettled
  cursor := p.shared.cursor.bind Cursor.lastScannedBlock
  head := p.shared.chain.head
  owner := p.shared.chain.ownerOf 1
  indexed := p.shared.indexedOwner 1

/-- Alice is minted token 1, and the call writes her as the owner in the middle of a pass; Bob gets the
token, and a second pass comes to that. -/
def mintedDuringPass : List IndexEvent :=
  begun 0 (.mintTo alice [1]) 1 ++ begun 1 (.sealBlocks 1) 1 ++ passed 2 5 ++
    List.replicate 2 (.run 0 {}) ++ List.replicate 5 (.run 2 {}) ++
    begun 3 (.transact (.transfer alice 1 bob) (by decide : isAddress bob = true)) 1 ++
    begun 4 (.sealBlocks 1) 1 ++ passed 5 10

theorem index_converges_mintedDuringPass : ∃ p,
    Pool.Reach step (IndexCall.task singleBlocks alice) (Timely singleBlocks)
      ⟨emptyIndex [] 0, []⟩ p ∧
      ending p = ⟨true, some 2, 2, some bob, some bob⟩ ∧ p.shared.indexedOwner 1 = some bob := by
  obtain ⟨p, hp, hend⟩ : ∃ p,
      Pool.Reach step (IndexCall.task singleBlocks alice) (Timely singleBlocks)
        ⟨emptyIndex [] 0, []⟩ p ∧ ending p = ⟨true, some 2, 2, some bob, some bob⟩ :=
    Pool.exists_reach_of_runSchedule mintedDuringPass ending (by decide +kernel)
  have hsettled : ∀ t ∈ p.tasks, t.isSettled = true :=
    List.all_eq_true.mp (congrArg Ending.settled hend)
  have hhead : p.shared.chain.head = 2 := congrArg Ending.head hend
  exact ⟨p, hp, hend, index_converges (by decide) hp hsettled (congrArg Ending.cursor hend) hhead.le
    (by decide) (congrArg Ending.owner hend)⟩

/-- The portfolio of Bob finds Alice to be the owner of token 1; the token goes to Bob, a pass replays
both transfers, and then Alice is written. -/
def lateRepair : List IndexEvent :=
  begun 0 (.transact (.mint 1 alice) (by decide : isAddress alice = true)) 1 ++
    begun 1 (.sealBlocks 1) 1 ++ begun 2 (.filterTokenOwnedByWallet bob 1) 1 ++
    begun 3 (.transact (.transfer alice 1 bob) (by decide : isAddress bob = true)) 1 ++
    begun 4 (.sealBlocks 1) 1 ++ passed 5 13 ++ [.run 2 {}]

/-- No call is in flight, the cursor is at the head, and the index has the previous owner. -/
theorem late_repair_stays : ∃ p,
    Pool.Reach step (IndexCall.task singleBlocks alice) anyStep ⟨emptyIndex [] 0, []⟩ p ∧
      ending p = ⟨true, some 2, 2, some bob, some alice⟩ :=
  Pool.exists_reach_of_runSchedule lateRepair ending (by decide +kernel)

end Runs

end OwnerIndex
