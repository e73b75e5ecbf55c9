import Tokenable.OwnerIndex.Replay

/-!
# When the index is found complete

`backfillFromTransferLogs` and `persistOwnerMap` compare counts with the live supply and mark the index
complete; `healOwnerRegistryIfIncomplete` compares the number of all rows with it and skips a rescan.
Each comparison is right where what was counted is still true and every counted row is one of a live
token, with its owner: then as many rows as live tokens are the rows of all live tokens. A row that is
stale, or burned where all rows count, stands in for a live token that has none.
-/

namespace OwnerIndex
open Js Async Db

section Functions
variable (cfg : Config)

def tokenIdsFrom : ℕ → ℕ → M (List ℕ)
  | 0, _ => pure []
  | left + 1, index => do
    let tokenId ← Prog.call (.tokenByIndex index) .ret
    let rest ← tokenIdsFrom left (index + 1)
    pure (tokenId :: rest)

def listLiveTokenIds : M (List ℕ) := do
  let supply ← Prog.call .totalSupply .ret
  let ids ← tokenIdsFrom supply 0
  pure (ids.insertionSort (· ≤ ·))

def tryOwnerOf (tokenId : ℕ) : M (Option JsStr) :=
  Prog.settle (.call (.ownerOf tokenId) .ret : M JsStr) fun r => .ret (.ok r.toOption)

/-- The owners of distinct tokens; the calls of a chunk run at once and only read. -/
def batchOwnerOf : List ℕ → M (List (ℕ × JsStr))
  | [] => pure []
  | tokenId :: tokenIds => do
    let owner ← tryOwnerOf tokenId
    let rest ← batchOwnerOf tokenIds
    pure (if truthy owner then (tokenId, lower (trim (owner.getD []))) :: rest else rest)

def scanAllOwnersMap : M (List (ℕ × JsStr)) := do
  let ids ← listLiveTokenIds
  batchOwnerOf ids.dedup

def validEntries (owners : List (ℕ × JsStr)) : List (ℕ × JsStr) :=
  owners.filter fun e => 0 < e.1 && isAddress e.2

def writeChunks : List (List (ℕ × JsStr)) → M Unit
  | [] => pure ()
  | chunk :: chunks => do
    perform (.writeOwners (chunk.map fun e => (e.1, lower (trim e.2))))
    writeChunks chunks

def judgeScan (entries : List (ℕ × JsStr)) : M Unit := do
  let totalMinted ← Prog.call .totalSupply .ret
  if 0 < totalMinted && totalMinted ≤ entries.length then
    perform (.markBackfillComplete (.scanned totalMinted entries))
  else pure ()

/-- A failure of the completeness test is logged only. -/
def persistOwnerMap (owners : List (ℕ × JsStr)) : M Unit :=
  if (validEntries owners).isEmpty then pure ()
  else do
    writeChunks ((validEntries owners).toChunks 100)
    Prog.swallow (judgeScan (validEntries owners))

def persistFullOwnerScan : M Unit := do
  let owners ← scanAllOwnersMap
  persistOwnerMap owners

def registryFreshMs : ℕ := 300000

/-- Whether a rescan was made, or waited for. -/
def healOwnerRegistryIfIncomplete : M Bool := do
  let rowCount ← perform .countIndexedTokenRows
  let known ← perform .readSupplyCache
  if known.1.any fun cached => known.2 < cached.at_ + registryFreshMs && cached.totalSupply ≤ rowCount
  then pure false
  else do
    let totalMinted ← Prog.call .totalSupply .ret
    let rescan ← perform (.decideRescan rowCount totalMinted)
    match rescan with
    | .unneeded => pure false
    | .joined heal => do
      Prog.call (.joinHeal heal) .ret
      pure true
    | .started heal => do
      persistFullOwnerScan.settle fun r => perform (.settleHeal heal r.isOk)
      Prog.call (.joinHeal heal) .ret
      pure true

def isBackfillInProgress : M Bool := do
  let cursor ← perform .findCursor
  pure (cursor.any fun c => !c.backfillComplete && c.lastScannedBlock.isSome)

/-- The write that follows a scan; its failure is logged only. -/
def persistUnlessInProgress (inProgress : Bool) (owners : List (ℕ × JsStr)) : M Unit :=
  if inProgress then pure () else Prog.swallow (persistOwnerMap owners)

/-- The tokens of a wallet as the chain has them. -/
def scanRwaTokensByOwner (wallet : JsStr) : M (List ℕ) := do
  let owners ← scanAllOwnersMap
  if owners.isEmpty then pure []
  else do
    let inProgress ← isBackfillInProgress
    persistUnlessInProgress inProgress owners
    pure (((owners.filter fun e => e.2 = wallet).map Prod.fst).insertionSort (· ≤ ·))

/-- A pass of the listener, which runs one at a time; the database fails after `n` of its commands. -/
def runPass (maxBlocksPerRun n : ℕ) : M Unit := do
  perform .startPass
  ((backfillFromTransferLogs cfg maxBlocksPerRun).failAfter .database n).settle fun _ =>
    perform .endPass

inductive RegistryCall where
  | mine (tx : Tx)
  | sealBlocks (blocks : ℕ)
  | runPass (maxBlocksPerRun n : ℕ)
  | heal
  | scanRwaTokensByOwner (wallet : JsStr)
  | recordOwner (tokenId : ℕ) (owner : JsStr)
  | recordBurn (tokenId : ℕ)
  | deleteRows (tokenIds : List ℕ)

def RegistryCall.task : RegistryCall → M Unit
  | .mine tx => Prog.discard (.call (.mine tx) .ret : M ℕ)
  | .sealBlocks blocks => perform (.sealBlocks blocks)
  | .runPass maxBlocksPerRun n => OwnerIndex.runPass cfg maxBlocksPerRun n
  | .heal => healOwnerRegistryIfIncomplete.discard
  | .scanRwaTokensByOwner wallet => (OwnerIndex.scanRwaTokensByOwner wallet).discard
  | .recordOwner tokenId owner => OwnerIndex.recordOwner .caller tokenId owner
  | .recordBurn tokenId => OwnerIndex.recordBurn .caller tokenId
  | .deleteRows tokenIds => perform (.deleteRows tokenIds)

end Functions

/-- What a mark of completeness, or a decision against a rescan, says. -/
def Judged.Sound (j : Judged) : Prop :=
  ∀ id, 1 ≤ id → ∀ owner, j.chain.ownerOf id = some owner →
    if j.complete then holdings j.rows id = some ⟨some owner, false⟩ else holdings j.rows id ≠ none

/-- What was counted is still so, and what counted as a token is a live one, with its owner. -/
def Current : Allowed Store Cmd
  | _, s, .markBackfillComplete (.counted totalMinted liveOwners) =>
    totalMinted = s.chain.totalSupply ∧ liveOwners = (s.rows.find isCounted).length ∧
      ∀ r ∈ s.rows.find isCounted, s.chain.ownerOf r.tokenId = r.ownerWallet
  | _, s, .markBackfillComplete (.scanned totalMinted entries) =>
    totalMinted = s.chain.totalSupply ∧ ∀ e ∈ entries,
      s.chain.ownerOf e.1 = some e.2 ∧ holdings s.rows e.1 = some ⟨some e.2, false⟩
  | _, s, .decideRescan rowCount totalMinted =>
    totalMinted ≤ rowCount → totalMinted = s.chain.totalSupply ∧ rowCount = s.rows.rows.length ∧
      ∀ r ∈ s.rows.rows, (s.chain.ownerOf r.tokenId).isSome
  | _, _, _ => True

instance (i : ℕ) (s : Store) (c : Cmd) : Decidable (Current i s c) := by
  cases c with
  | markBackfillComplete evidence =>
    cases evidence with
    | counted totalMinted liveOwners => exact instDecidableAnd
    | scanned totalMinted entries => exact instDecidableAnd
  | decideRescan rowCount totalMinted =>
    exact inferInstanceAs (Decidable (totalMinted ≤ rowCount → totalMinted = s.chain.totalSupply ∧
      rowCount = s.rows.rows.length ∧ ∀ r ∈ s.rows.rows, (s.chain.ownerOf r.tokenId).isSome))
  | _ => exact .isTrue trivial

/-- The tests that the calls make before they mark. -/
def Guarded : Cmd → Prop
  | .markBackfillComplete (.counted totalMinted liveOwners) => totalMinted ≤ liveOwners
  | .markBackfillComplete (.scanned totalMinted entries) =>
    totalMinted ≤ entries.length ∧ (entries.map Prod.fst).Nodup
  | _ => True

section Guards
variable {cfg : Config}

theorem guarded_tokenIdsFrom (left index : ℕ) : (tokenIdsFrom left index).Issues Guarded := by
  induction left generalizing index with
  | zero => exact Prog.issues_ret _
  | succ left ih =>
    refine Prog.issues_bind ⟨trivial, fun _ => Prog.issues_ret _⟩ fun tokenId => ?_
    exact Prog.issues_bind (ih (index + 1)) fun rest => Prog.issues_ret _

theorem guarded_batchOwnerOf (tokenIds : List ℕ) : (batchOwnerOf tokenIds).Issues Guarded := by
  induction tokenIds with
  | nil => exact Prog.issues_ret _
  | cons tokenId tokenIds ih =>
    refine Prog.issues_bind ⟨trivial, fun _ => Prog.issues_ret _⟩ fun owner => ?_
    exact Prog.issues_bind ih fun rest => Prog.issues_ret _

theorem guarded_scanAllOwnersMap : scanAllOwnersMap.Issues Guarded := by
  refine Prog.issues_bind ?_ fun ids => guarded_batchOwnerOf _
  refine Prog.issues_bind ⟨trivial, fun _ => Prog.issues_ret _⟩ fun supply => ?_
  exact Prog.issues_bind (guarded_tokenIdsFrom supply 0) fun ids => Prog.issues_ret _

/-- The scan has one entry for a token. -/
theorem sublist_of_yields_batchOwnerOf {tokenIds : List ℕ} {owners : List (ℕ × JsStr)}
    (h : (batchOwnerOf tokenIds).Yields (fun _ _ => True) (.ok owners)) :
    (owners.map Prod.fst).Sublist tokenIds := by
  induction tokenIds generalizing owners with
  | nil =>
    obtain rfl := Except.ok.inj h
    exact List.Sublist.refl _
  | cons tokenId tokenIds ih =>
    obtain ⟨owner, -, hrest⟩ := Prog.yields_bind.mp h
    obtain ⟨rest, hyields, heq⟩ := Prog.yields_bind.mp hrest
    obtain rfl := Except.ok.inj heq
    split_ifs
    · exact (ih hyields).cons_cons tokenId
    · exact (ih hyields).cons tokenId

theorem nodup_of_yields_scanAllOwnersMap {owners : List (ℕ × JsStr)}
    (h : scanAllOwnersMap.Yields (fun _ _ => True) (.ok owners)) :
    (owners.map Prod.fst).Nodup := by
  obtain ⟨ids, -, hbatch⟩ := Prog.yields_bind.mp h
  exact (sublist_of_yields_batchOwnerOf hbatch).nodup (List.nodup_dedup ids)

theorem guarded_persistOwnerMap {owners : List (ℕ × JsStr)} (h : (owners.map Prod.fst).Nodup) :
    (persistOwnerMap owners).Issues Guarded := by
  have hentries : ((validEntries owners).map Prod.fst).Nodup :=
    (List.filter_sublist.map Prod.fst).nodup h
  have hchunks : ∀ chunks, (writeChunks chunks).Issues Guarded := by
    intro chunks
    induction chunks with
    | nil => exact Prog.issues_ret _
    | cons chunk chunks ih => exact Prog.issues_bind (Prog.issues_call trivial) fun _ => ih
  unfold persistOwnerMap
  split_ifs
  · exact Prog.issues_ret _
  · refine Prog.issues_bind (hchunks _) fun _ => Prog.issues_settle ?_ fun _ => Prog.issues_ret _
    refine Prog.issues_bind ⟨trivial, fun _ => Prog.issues_ret _⟩ fun totalMinted => ?_
    split_ifs with hcount
    · simp only [Bool.and_eq_true, decide_eq_true_eq] at hcount
      exact Prog.issues_call ⟨hcount.2, hentries⟩
    · exact Prog.issues_ret _

theorem guarded_persistFullOwnerScan : persistFullOwnerScan.Issues Guarded :=
  Prog.issues_bind_of_yields guarded_scanAllOwnersMap fun _ howners =>
    guarded_persistOwnerMap (nodup_of_yields_scanAllOwnersMap howners)

theorem guarded_heal : healOwnerRegistryIfIncomplete.Issues Guarded := by
  refine Prog.issues_bind (Prog.issues_call trivial) fun rowCount => ?_
  refine Prog.issues_bind (Prog.issues_call trivial) fun known => ?_
  split_ifs
  · exact Prog.issues_ret _
  · refine Prog.issues_bind ⟨trivial, fun _ => Prog.issues_ret _⟩ fun totalMinted => ?_
    refine Prog.issues_bind (Prog.issues_call trivial) fun rescan => ?_
    cases rescan with
    | unneeded => exact Prog.issues_ret _
    | joined heal =>
      exact Prog.issues_bind ⟨trivial, fun _ => Prog.issues_ret _⟩ fun _ => Prog.issues_ret _
    | started heal =>
      refine Prog.issues_bind (Prog.issues_settle guarded_persistFullOwnerScan fun r =>
        Prog.issues_call trivial) fun _ => ?_
      exact Prog.issues_bind ⟨trivial, fun _ => Prog.issues_ret _⟩ fun _ => Prog.issues_ret _

theorem guarded_scanRwaTokensByOwner (wallet : JsStr) :
    (scanRwaTokensByOwner wallet).Issues Guarded := by
  refine Prog.issues_bind_of_yields guarded_scanAllOwnersMap fun owners howners => ?_
  split_ifs
  · exact Prog.issues_ret _
  · refine Prog.issues_bind ?_ fun inProgress => Prog.issues_bind ?_ fun _ => Prog.issues_ret _
    · exact Prog.issues_bind (Prog.issues_call trivial) fun cursor => Prog.issues_ret _
    · unfold persistUnlessInProgress
      split_ifs
      · exact Prog.issues_ret _
      · exact Prog.issues_settle
          (guarded_persistOwnerMap (nodup_of_yields_scanAllOwnersMap howners))
          fun _ => Prog.issues_ret _

def PassCmd (c : Cmd) : Prop := Guarded c ∧ c ≠ .startPass ∧ c ≠ .endPass

/-- A guarded command other than the two ends of a pass. -/
theorem passCmd_perform {c : Cmd} (hguarded : Guarded c) (hstart : c ≠ .startPass)
    (hend : c ≠ .endPass) : (perform c : M (Res c)).Issues PassCmd :=
  ⟨⟨hguarded, hstart, hend⟩, fun _ => Prog.issues_ret _⟩

theorem passCmd_recordTransfers (batch : List Transfer) : (recordTransfers batch).Issues PassCmd := by
  induction batch with
  | nil => exact Prog.issues_ret _
  | cons ev batch ih =>
    refine Prog.issues_bind ?_ fun _ => ih
    unfold recordTransfer recordBurn recordOwner
    split_ifs
    · exact ⟨⟨trivial, nofun, nofun⟩, fun _ => Prog.issues_ret _⟩
    · exact ⟨⟨trivial, nofun, nofun⟩, fun _ => Prog.issues_ret _⟩
    · exact Prog.issues_ret _

theorem passCmd_scanChunks (latest maxBlocksPerRun : ℕ) (complete : Bool) (fuel : ℕ) (sc : Scan) :
    (scanChunks cfg latest maxBlocksPerRun complete fuel sc).Issues PassCmd := by
  induction fuel generalizing sc with
  | zero => exact Prog.issues_ret _
  | succ fuel ih =>
    unfold scanChunks
    split_ifs
    · exact Prog.issues_ret _
    · refine Prog.issues_bind (passCmd_perform trivial (by simp) (by simp)) fun logs => ?_
      refine Prog.issues_bind (passCmd_recordTransfers _) fun _ => ?_
      refine Prog.issues_bind (passCmd_perform trivial (by simp) (by simp)) fun _ => ?_
      refine Prog.issues_bind ?_ fun _ => ih _
      unfold pause
      split_ifs
      · exact passCmd_perform trivial (by simp) (by simp)
      · exact Prog.issues_ret _

theorem passCmd_judgeBackfill (latest : ℕ) (sc : Scan) : (judgeBackfill latest sc).Issues PassCmd := by
  refine Prog.issues_bind ⟨⟨trivial, nofun, nofun⟩, fun _ => Prog.issues_ret _⟩ fun totalMinted => ?_
  refine Prog.issues_bind ⟨⟨trivial, nofun, nofun⟩, fun _ => Prog.issues_ret _⟩ fun liveOwners => ?_
  split_ifs with hcount
  · simp only [Bool.or_eq_true, Bool.and_eq_true, decide_eq_true_eq] at hcount
    have hle : totalMinted ≤ liveOwners := by omega
    exact ⟨⟨hle, nofun, nofun⟩, fun _ => Prog.issues_ret _⟩
  · exact Prog.issues_ret _

theorem passCmd_backfillFromTransferLogs (maxBlocksPerRun : ℕ) :
    (backfillFromTransferLogs cfg maxBlocksPerRun).Issues PassCmd := by
  unfold backfillFromTransferLogs
  split_ifs
  · exact Prog.issues_ret _
  · refine Prog.issues_bind ⟨⟨trivial, nofun, nofun⟩, fun _ => Prog.issues_ret _⟩ fun cursor => ?_
    refine Prog.issues_bind ⟨⟨trivial, nofun, nofun⟩, fun _ => Prog.issues_ret _⟩ fun latest => ?_
    split_ifs
    · exact Prog.issues_ret _
    · refine Prog.issues_bind (passCmd_scanChunks _ _ _ _ _) fun sc => ?_
      exact Prog.issues_bind (passCmd_judgeBackfill latest sc) fun _ => Prog.issues_ret _

theorem guarded_runPass (maxBlocksPerRun n : ℕ) :
    (runPass cfg maxBlocksPerRun n).Issues Guarded := by
  have hbackfill := Prog.issues_failAfter (e := Failure.database) (n := n)
    (passCmd_backfillFromTransferLogs maxBlocksPerRun :
      Prog.Issues PassCmd (backfillFromTransferLogs cfg _))
  refine Prog.issues_bind (Prog.issues_call trivial) fun _ => ?_
  exact Prog.issues_settle (Prog.issues_mono (fun c hc => hc.1) hbackfill) fun _ =>
    Prog.issues_call trivial

theorem guarded_task (call : RegistryCall) : (call.task cfg).Issues Guarded := by
  cases call with
  | mine tx =>
    exact Prog.issues_settle ⟨trivial, fun _ => Prog.issues_ret _⟩ fun r => by
      cases r <;> exact Prog.issues_ret _
  | sealBlocks blocks => exact Prog.issues_call trivial
  | runPass maxBlocksPerRun n => exact guarded_runPass maxBlocksPerRun n
  | heal =>
    refine Prog.issues_settle guarded_heal fun r => ?_
    cases r <;> exact Prog.issues_ret _
  | scanRwaTokensByOwner wallet =>
    refine Prog.issues_settle (guarded_scanRwaTokensByOwner wallet) fun r => ?_
    cases r <;> exact Prog.issues_ret _
  | recordOwner tokenId owner =>
    change (recordOwner .caller tokenId owner).Issues Guarded
    unfold recordOwner
    split_ifs
    · exact Prog.issues_call trivial
    · exact Prog.issues_ret _
  | recordBurn tokenId => exact Prog.issues_call trivial
  | deleteRows tokenIds => exact Prog.issues_call trivial

end Guards

section Counting

/-- Among distinct things, as many of one kind as there are of it are all of it. -/
theorem subset_of_length_le {α : Type} {l m : List α} (hl : l.Nodup) (hsub : l ⊆ m)
    (hlen : m.length ≤ l.length) : m ⊆ l :=
  ((List.subperm_of_subset hl hsub).perm_of_length_le hlen).symm.subset

theorem mem_liveTokenIds {c : Chain} {id : ℕ} : id ∈ c.liveTokenIds ↔ (c.ownerOf id).isSome := by
  unfold Chain.liveTokenIds
  rw [List.mem_filter, List.mem_dedup]
  refine ⟨fun h => h.2, fun h => ⟨?_, h⟩⟩
  by_contra hnot
  have hnone : transfersOf (upTo c.log c.head) id = [] := by
    unfold transfersOf
    rw [List.filter_eq_nil_iff]
    intro e he
    have hne : e.tokenId ≠ id := fun heq => hnot (List.mem_map.mpr ⟨e, he, heq⟩)
    simpa using hne
  unfold Chain.ownerOf at h
  rw [foldTransfers_eq, hnone] at h
  cases h

theorem live_of_length_le {c : Chain} {ids : List ℕ} (hids : ids.Nodup)
    (hlive : ∀ id ∈ ids, (c.ownerOf id).isSome) (hlen : c.totalSupply ≤ ids.length) {id : ℕ}
    (hid : (c.ownerOf id).isSome) : id ∈ ids :=
  subset_of_length_le hids (fun i hi => mem_liveTokenIds.mpr (hlive i hi)) hlen
    (mem_liveTokenIds.mpr hid)

section
variable {s : Store}

/-- As many counted rows as live tokens, each with the owner of its token: these are the live tokens. -/
theorem complete_of_counted (hlen : s.chain.totalSupply ≤ (s.rows.find isCounted).length)
    (howners : ∀ r ∈ s.rows.find isCounted, s.chain.ownerOf r.tokenId = r.ownerWallet) {id : ℕ}
    {owner : JsStr} (hid : s.chain.ownerOf id = some owner) :
    holdings s.rows id = some ⟨some owner, false⟩ := by
  have hnodup : ((s.rows.find isCounted).map IndexRow.tokenId).Nodup :=
    (List.filter_sublist.map IndexRow.tokenId).nodup s.rows.nodup
  have hlive : ∀ i ∈ (s.rows.find isCounted).map IndexRow.tokenId, (s.chain.ownerOf i).isSome := by
    intro i hi
    obtain ⟨r, hr, rfl⟩ := List.mem_map.mp hi
    have hcounted := (Table.mem_find.mp hr).2
    rw [howners r hr]
    unfold isCounted at hcounted
    rw [Bool.and_eq_true] at hcounted
    exact hcounted.1
  have hmem : id ∈ (s.rows.find isCounted).map IndexRow.tokenId := by
    apply live_of_length_le hnodup hlive
    · rw [List.length_map]
      exact hlen
    · rw [hid]
      rfl
  obtain ⟨r, hr, rfl⟩ := List.mem_map.mp hmem
  obtain ⟨hrow, hcounted⟩ := Table.mem_find.mp hr
  have hunburned : r.burnedAt = none := by
    unfold isCounted at hcounted
    rw [Bool.and_eq_true] at hcounted
    exact Option.isNone_iff_eq_none.mp hcounted.2
  have howner : r.ownerWallet = some owner := (howners r hr).symm.trans hid
  rw [holdings, Table.get_of_mem hrow, Option.map_some, IndexRow.holding, howner, hunburned]
  rfl

/-- As many entries as live tokens, each still true and stored: these are the live tokens. -/
theorem complete_of_scanned {entries : List (ℕ × JsStr)} (hnodup : (entries.map Prod.fst).Nodup)
    (hlen : s.chain.totalSupply ≤ entries.length)
    (htrue : ∀ e ∈ entries, s.chain.ownerOf e.1 = some e.2 ∧
      holdings s.rows e.1 = some ⟨some e.2, false⟩) {id : ℕ} {owner : JsStr}
    (hid : s.chain.ownerOf id = some owner) : holdings s.rows id = some ⟨some owner, false⟩ := by
  have hlive : ∀ i ∈ entries.map Prod.fst, (s.chain.ownerOf i).isSome := by
    intro i hi
    obtain ⟨e, he, rfl⟩ := List.mem_map.mp hi
    rw [(htrue e he).1]
    rfl
  have hmem : id ∈ entries.map Prod.fst := by
    apply live_of_length_le hnodup hlive
    · rw [List.length_map]
      exact hlen
    · rw [hid]
      rfl
  obtain ⟨e, he, rfl⟩ := List.mem_map.mp hmem
  obtain ⟨hnow, hheld⟩ := htrue e he
  have howner : e.2 = owner := Option.some.inj (hnow.symm.trans hid)
  rw [hheld, howner]

/-- As many rows as live tokens, each of a live token: every live token has one. -/
theorem indexed_of_rowCount (hlen : s.chain.totalSupply ≤ s.rows.rows.length)
    (hlive : ∀ r ∈ s.rows.rows, (s.chain.ownerOf r.tokenId).isSome) {id : ℕ}
    (hid : (s.chain.ownerOf id).isSome) : holdings s.rows id ≠ none := by
  have hids : ∀ i ∈ s.rows.rows.map IndexRow.tokenId, (s.chain.ownerOf i).isSome := by
    intro i hi
    obtain ⟨r, hr, rfl⟩ := List.mem_map.mp hi
    exact hlive r hr
  have hmem : id ∈ s.rows.rows.map IndexRow.tokenId := by
    apply live_of_length_le s.rows.nodup hids
    · rw [List.length_map]
      exact hlen
    · exact hid
  obtain ⟨r, hr, rfl⟩ := List.mem_map.mp hmem
  rw [holdings, Table.get_of_mem hr]
  simp

end

end Counting

def AllSound (s : Store) : Prop := ∀ j ∈ s.judged, j.Sound

theorem AllSound.concat {s u : Store} (h : AllSound s) {j : Judged} (hj : j.Sound)
    (hu : u.judged = s.judged ++ [j]) : AllSound u := by
  intro k hk
  rw [hu] at hk
  rcases List.mem_append.mp hk with hold | hnew
  · exact h k hold
  · rw [List.mem_singleton.mp hnew]
    exact hj

theorem allSound_markBackfillComplete {i : ℕ} {s : Store} {evidence : Evidence} (hs : AllSound s)
    (hguarded : Guarded (.markBackfillComplete evidence))
    (hcurrent : Current i s (.markBackfillComplete evidence)) : AllSound s.markBackfillComplete := by
  refine hs.concat (j := ⟨true, s.chain, s.rows⟩) ?_ rfl
  intro id _ owner hid
  cases evidence with
  | counted totalMinted liveOwners =>
    obtain ⟨hsupply, hcount, howners⟩ := hcurrent
    have hle : totalMinted ≤ liveOwners := hguarded
    have hlen : s.chain.totalSupply ≤ (s.rows.find isCounted).length := by omega
    exact complete_of_counted hlen howners hid
  | scanned totalMinted entries =>
    obtain ⟨hsupply, htrue⟩ := hcurrent
    obtain ⟨hle, hnodup⟩ := hguarded
    have hlen : s.chain.totalSupply ≤ entries.length := by omega
    exact complete_of_scanned hnodup hlen htrue hid

theorem allSound_decideRescan {i now : ℕ} {s : Store} {rowCount totalMinted : ℕ} (hs : AllSound s)
    (hcurrent : Current i s (.decideRescan rowCount totalMinted)) :
    AllSound (s.decideRescan now rowCount totalMinted).2 := by
  unfold Store.decideRescan
  split_ifs with hle
  · obtain ⟨hsupply, hcount, hlive⟩ := hcurrent hle
    refine hs.concat (j := ⟨false, s.chain, s.rows⟩) ?_ rfl
    intro id _ owner hid
    have hlen : s.chain.totalSupply ≤ s.rows.rows.length := by omega
    have hsome : (s.chain.ownerOf id).isSome := by rw [hid]; rfl
    exact indexed_of_rowCount hlen hlive hsome
  · cases s.healInFlight <;> exact hs

/-- Nothing but the two judgements adds to what was judged. -/
theorem allSound_step {i : ℕ} {s u : Store} {x : World} {c : Cmd} {r : Res c} (hs : AllSound s)
    (hguarded : Guarded c) (hcurrent : Current i s c) (hu : step i s x c = some (r, u)) :
    AllSound u := by
  unfold step at hu
  split_ifs at hu
  have hact : (act i s x c).2 = u := congrArg Prod.snd (Option.some.inj hu)
  subst hact
  cases c with
  | markBackfillComplete evidence => exact allSound_markBackfillComplete hs hguarded hcurrent
  | decideRescan rowCount totalMinted => exact allSound_decideRescan hs hcurrent
  | queryTransferLogs start stop =>
    change AllSound (s.query stop _)
    unfold Store.query
    split <;> exact hs
  | mine tx =>
    change AllSound (s.mine x tx).2
    unfold Store.mine
    split_ifs <;> exact hs
  | _ => exact hs

/-- In every run in which each judgement is made on numbers that are still so, and counts rows of live
tokens only: whenever the index is marked complete, every live token has an unburned row with its owner,
and whenever a rescan is found unnecessary, every live token has a row. -/
theorem judged_sound {cfg : Config} {s : Store} (hs : s.judged = []) {p : Pool Store Cmd Res Failure Unit}
    (hreach : Pool.Reach step (RegistryCall.task cfg) Current ⟨s, []⟩ p) :
    ∀ j ∈ p.shared.judged, j.Sound := by
  have hstart : AllSound s := by
    intro j hj
    rw [hs] at hj
    cases hj
  have hissues : ∀ call, (RegistryCall.task cfg call).IssuesGiven (fun _ _ => True) Guarded :=
    fun call => (guarded_task call).given
  exact Pool.keeps_of_issuesGiven (fun i s x c r u hK hc hok hu => ⟨trivial, allSound_step hK hc hok hu⟩)
    hissues hstart hreach

section Runs

/-- A contract deployed in the first block, and chunks of one block. -/
def singleBlocks : Config where
  deployBlock := 1
  logChunkSize := 1
  logDelayMs := 0
  logChunkSize_pos := by decide

/-- A transaction, and the block with it. -/
def sealed (i : ℕ) (tx : Tx) : List (Pool.Event RegistryCall World) :=
  [.spawn (.mine tx), .run i {}, .spawn (.sealBlocks 1), .run (i + 1) {}]

/-- A call that runs alone, of `n` commands. -/
def alone (i : ℕ) (call : RegistryCall) (n : ℕ) : List (Pool.Event RegistryCall World) :=
  .spawn call :: List.replicate n (.run i {})

def mintsAndPass : List (Pool.Event RegistryCall World) :=
  sealed 0 (.mint 1 alice) ++ sealed 2 (.mint 2 bob) ++ alone 4 (.runPass 2000 100) 12 ++ alone 5 .heal 4

/-- A judgement, and what it means for one token. -/
structure Finding where
  complete : Bool
  owner : Option JsStr
  row : Option (Marked JsStr)
  deriving DecidableEq

/-- The judgements of a run, with the owner and the row of token 2 at each. -/
def findings (p : Pool Store Cmd Res Failure Unit) : List Finding :=
  p.shared.judged.map fun j => ⟨j.complete, j.chain.ownerOf 2, holdings j.rows 2⟩

theorem judged_sound_mintsAndPass : ∃ p,
    Pool.Reach step (RegistryCall.task singleBlocks) Current ⟨emptyIndex [] 0, []⟩ p ∧
      findings p =
        [⟨true, some bob, some ⟨some bob, false⟩⟩, ⟨false, some bob, some ⟨some bob, false⟩⟩] ∧
      ∀ j ∈ p.shared.judged, j.Sound := by
  obtain ⟨p, hp, hjudged⟩ : ∃ p,
      Pool.Reach step (RegistryCall.task singleBlocks) Current ⟨emptyIndex [] 0, []⟩ p ∧
        findings p =
        [⟨true, some bob, some ⟨some bob, false⟩⟩, ⟨false, some bob, some ⟨some bob, false⟩⟩] :=
    Pool.exists_reach_of_runSchedule mintsAndPass findings (by decide +kernel)
  exact ⟨p, hp, hjudged, judged_sound rfl hp⟩

/-- The pass gets as far as the mint of token 1, which is burned since; token 2 is the live one. -/
def burnedSince : List (Pool.Event RegistryCall World) :=
  sealed 0 (.mint 1 alice) ++ sealed 2 (.burn 1) ++ sealed 4 (.mint 2 bob) ++ alone 6 (.runPass 1 100) 9

/-- The row of token 1, burned, is counted for token 2. -/
def burnedRow : List (Pool.Event RegistryCall World) :=
  sealed 0 (.mint 1 alice) ++ alone 2 (.recordOwner 1 alice) 1 ++ sealed 3 (.burn 1) ++
    alone 5 (.recordBurn 1) 1 ++ sealed 6 (.mint 2 bob) ++ alone 8 .heal 4

/-- A run in which the index is marked complete without the only live token, and one in which a rescan is
found unnecessary without a row of it. -/
theorem live_token_missing :
    (∃ p, Pool.Reach step (RegistryCall.task singleBlocks) anyStep ⟨emptyIndex [] 0, []⟩ p ∧
      findings p = [⟨true, some bob, none⟩] ∧ ∃ j ∈ p.shared.judged, ¬ j.Sound) ∧
    ∃ p, Pool.Reach step (RegistryCall.task singleBlocks) anyStep ⟨emptyIndex [] 0, []⟩ p ∧
      findings p = [⟨false, some bob, none⟩] ∧ ∃ j ∈ p.shared.judged, ¬ j.Sound := by
  have hunsound : ∀ {p : Pool Store Cmd Res Failure Unit} {complete : Bool},
      findings p = [⟨complete, some bob, none⟩] → ∃ j ∈ p.shared.judged, ¬ j.Sound := by
    intro p complete hfound
    have hmem : ⟨complete, some bob, none⟩ ∈ findings p := by simp [hfound]
    obtain ⟨j, hj, heq⟩ := List.mem_map.mp hmem
    simp only [Finding.mk.injEq] at heq
    obtain ⟨-, howner, hrow⟩ := heq
    refine ⟨j, hj, fun hsound => ?_⟩
    have hsays := hsound 2 (by decide) bob howner
    rw [hrow] at hsays
    split_ifs at hsays
    exact hsays rfl
  obtain ⟨p, hp, hmarked⟩ : ∃ p,
      Pool.Reach step (RegistryCall.task singleBlocks) anyStep ⟨emptyIndex [] 0, []⟩ p ∧
        findings p = [⟨true, some bob, none⟩] :=
    Pool.exists_reach_of_runSchedule burnedSince findings (by decide +kernel)
  obtain ⟨q, hq, hskipped⟩ : ∃ p,
      Pool.Reach step (RegistryCall.task singleBlocks) anyStep ⟨emptyIndex [] 0, []⟩ p ∧
        findings p = [⟨false, some bob, none⟩] :=
    Pool.exists_reach_of_runSchedule burnedRow findings (by decide +kernel)
  exact ⟨⟨p, hp, hmarked, hunsound hmarked⟩, ⟨q, hq, hskipped, hunsound hskipped⟩⟩

end Runs

end OwnerIndex
