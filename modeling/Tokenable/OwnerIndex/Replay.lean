import Mathlib.Data.List.Pairwise
import Tokenable.Async.Crash
import Tokenable.OwnerIndex.Service

/-!
# The replay of the Transfer logs

Passes run one after the other, each over as many blocks as its limit allows, and may be stopped after
any command. A chunk that was not finished is done again over rows that have seen some or all of its
transfers, and the same passes' head only grows, so the second time reaches at least as far. Whenever
the cursor has been saved and no transfer was written since, the index holds what the logs up to the
cursor say.
-/

namespace OwnerIndex
open Js Async Db

/-- The log of the contract: in order, not older than the contract, with addresses as receivers. -/
structure ChainLog (cfg : Config) (log : List Transfer) : Prop where
  sorted : log.Pairwise fun a b => a.before b = true
  deployed : ∀ e ∈ log, cfg.deployBlock ≤ e.blockNumber
  recipients : ∀ e ∈ log, isAddress e.to_ = true

def transfersOf (log : List Transfer) (tokenId : ℕ) : List Transfer :=
  log.filter fun e => e.tokenId = tokenId

/-- The first log of the token is its mint, and the id is not used again after a burn. -/
structure OneLife (log : List Transfer) (tokenId : ℕ) : Prop where
  minted : ∀ e, (transfersOf log tokenId).head? = some e → e.from_ = zeroAddress ∧ e.to_ ≠ zeroAddress
  burned : ∀ e ∈ (transfersOf log tokenId).dropLast, e.to_ ≠ zeroAddress

/-- The events of a token in the blocks up to `block`. -/
def pastOf (log : List Transfer) (tokenId block : ℕ) : List (Option JsStr) :=
  (transfersOf (upTo log block) tokenId).map Transfer.event

section Logs
variable {log : List Transfer} {tokenId lo mid hi : ℕ}

theorem foldTransfers_eq (log : List Transfer) (tokenId : ℕ) :
    foldTransfers log tokenId = replayed ((transfersOf log tokenId).map Transfer.event) := by
  induction log using List.reverseRecOn with
  | nil => rfl
  | append_singleton log e ih =>
    unfold foldTransfers transfersOf at *
    rw [List.foldl_concat, List.filter_append]
    by_cases he : e.tokenId = tokenId
    · subst he
      simp
    · rw [Function.update_of_ne (Ne.symm he), ih]
      simp [he]

theorem filter_le_append {log : List Transfer} (hlog : log.Pairwise fun a b => a.before b = true)
    (block : ℕ) :
    upTo log block ++ log.filter (fun e => block < e.blockNumber) = log := by
  induction log with
  | nil => rfl
  | cons e log ih =>
    obtain ⟨hfirst, hrest⟩ := List.pairwise_cons.mp hlog
    have ih' := ih hrest
    unfold upTo at *
    by_cases he : e.blockNumber ≤ block
    · have hnot : ¬ block < e.blockNumber := by omega
      simp only [List.filter_cons, he, hnot, decide_true, decide_false, if_true,
        Bool.false_eq_true, if_false, List.cons_append, ih']
    · have hlater : ∀ f ∈ log, ¬ f.blockNumber ≤ block := by
        intro f hf
        have hbefore := hfirst f hf
        simp only [Transfer.before, Bool.or_eq_true, Bool.and_eq_true, decide_eq_true_eq] at hbefore
        omega
      have hnone : log.filter (fun e => decide (e.blockNumber ≤ block)) = [] := by
        rw [List.filter_eq_nil_iff]
        intro f hf
        simpa using hlater f hf
      have hlt : block < e.blockNumber := by omega
      rw [hnone, List.nil_append] at ih'
      simp only [List.filter_cons, he, hlt, decide_true, decide_false, if_true,
        Bool.false_eq_true, if_false, hnone, List.nil_append, ih']

theorem sorted_filter {log : List Transfer} (hlog : log.Pairwise fun a b => a.before b = true)
    (p : Transfer → Bool) : (log.filter p).Pairwise fun a b => a.before b = true :=
  hlog.sublist List.filter_sublist

/-- The events up to a block are those up to an earlier one and those since. -/
theorem pastOf_append (hlog : log.Pairwise fun a b => a.before b = true) (h : lo ≤ hi) :
    pastOf log tokenId hi = pastOf log tokenId lo ++ eventsOf log tokenId lo hi := by
  have hsplit := filter_le_append (sorted_filter hlog fun e => e.blockNumber ≤ hi) lo
  have hlow : upTo (upTo log hi) lo = upTo log lo := by
    unfold upTo
    rw [List.filter_filter]
    refine List.filter_congr fun e _ => ?_
    by_cases he : e.blockNumber ≤ lo
    · simp [he, le_trans he h]
    · simp [he]
  change upTo (upTo log hi) lo ++ _ = upTo log hi at hsplit
  unfold pastOf transfersOf
  rw [← hsplit, hlow, List.filter_append, List.map_append]
  have htail : (List.filter (fun e => lo < e.blockNumber)
      (log.filter fun e => e.blockNumber ≤ hi)).filter (fun e => e.tokenId = tokenId) =
      log.filter fun e => e.tokenId = tokenId && lo < e.blockNumber && e.blockNumber ≤ hi := by
    rw [List.filter_filter, List.filter_filter]
  rw [htail]
  rfl

theorem eventsOf_append (hlog : log.Pairwise fun a b => a.before b = true) (hlo : lo ≤ mid)
    (hhi : mid ≤ hi) :
    eventsOf log tokenId lo hi = eventsOf log tokenId lo mid ++ eventsOf log tokenId mid hi := by
  refine List.append_cancel_left (?_ : pastOf log tokenId lo ++ _ = pastOf log tokenId lo ++ _)
  rw [← pastOf_append hlog (hlo.trans hhi), ← List.append_assoc, ← pastOf_append hlog hlo,
    ← pastOf_append hlog hhi]

theorem eventsOf_self (log : List Transfer) (tokenId lo : ℕ) : eventsOf log tokenId lo lo = [] := by
  unfold eventsOf
  rw [List.map_eq_nil_iff, List.filter_eq_nil_iff]
  intro e _
  simp only [Bool.and_eq_true, decide_eq_true_eq, not_and]
  omega

theorem lifetime_of_oneLife (h : OneLife log tokenId) :
    Lifetime ((transfersOf log tokenId).map Transfer.event) := by
  constructor
  · rw [List.head?_map]
    intro hfirst
    obtain ⟨e, he, hnone⟩ := Option.map_eq_some_iff.mp hfirst
    rw [Transfer.event, if_neg (h.minted e he).2] at hnone
    cases hnone
  · rw [← List.map_dropLast]
    intro hmem
    obtain ⟨e, he, hnone⟩ := List.mem_map.mp hmem
    rw [Transfer.event, if_neg (h.burned e he)] at hnone
    cases hnone

theorem lifetime_pastOf (hlog : log.Pairwise fun a b => a.before b = true)
    (h : OneLife log tokenId) (block : ℕ) : Lifetime (pastOf log tokenId block) := by
  have hall := lifetime_of_oneLife h
  rw [← filter_le_append hlog block, transfersOf, List.filter_append, List.map_append] at hall
  exact hall.of_append

theorem notAfter_of_before {a b : Transfer} (h : a.before b = true) : a.notAfter b := by
  simp only [Transfer.before, Bool.or_eq_true, Bool.and_eq_true, decide_eq_true_eq] at h
  unfold Transfer.notAfter
  omega

theorem pairwise_batchOf (logs : List Transfer) : (batchOf logs).Pairwise Transfer.notAfter := by
  have htotal : Std.Total Transfer.notAfter := by
    constructor
    intro a b
    unfold Transfer.notAfter
    omega
  have htrans : IsTrans Transfer Transfer.notAfter := by
    constructor
    intro a b c hab hbc
    unfold Transfer.notAfter at *
    omega
  exact List.pairwise_insertionSort Transfer.notAfter _

/-- Two logs at one place are the same. -/
theorem eq_of_notAfter (hlog : log.Pairwise fun a b => a.before b = true) {a b : Transfer}
    (ha : a ∈ log) (hb : b ∈ log) (hab : a.notAfter b) (hba : b.notAfter a) : a = b := by
  have hsymm : Std.Symm fun a b : Transfer => ¬ (a.notAfter b ∧ b.notAfter a) :=
    ⟨fun a b h hba => h hba.symm⟩
  have hapart : log.Pairwise fun a b => ¬ (a.notAfter b ∧ b.notAfter a) := by
    refine hlog.imp fun {a b} hbefore hboth => ?_
    simp only [Transfer.before, Bool.or_eq_true, Bool.and_eq_true, decide_eq_true_eq] at hbefore
    unfold Transfer.notAfter at hboth
    omega
  by_contra hne
  exact hapart.forall ha hb hne ⟨hab, hba⟩

/-- Whatever order the node gives the logs of a chunk in, the pass has them in log order. -/
theorem batchOf_eq (hlog : log.Pairwise fun a b => a.before b = true) {p : Transfer → Bool}
    {logs : List Transfer} (hlogs : logs.Perm (log.filter p)) :
    batchOf logs = (log.filter p).filter fun e => 0 < e.tokenId := by
  have hperm : (batchOf logs).Perm ((log.filter p).filter fun e => 0 < e.tokenId) :=
    (List.perm_insertionSort _ _).trans (hlogs.filter _)
  have hmem : ∀ e ∈ (log.filter p).filter fun e => 0 < e.tokenId, e ∈ log := by
    intro e he
    exact List.mem_of_mem_filter (List.mem_of_mem_filter he)
  refine List.Perm.eq_of_pairwise ?_ (pairwise_batchOf logs) ?_ hperm
  · intro a b ha hb hab hba
    exact eq_of_notAfter hlog (hmem a (hperm.subset ha)) (hmem b hb) hab hba
  · exact (sorted_filter (sorted_filter hlog p) _).imp notAfter_of_before

end Logs

section Rows
variable {rows : IndexRows} {tokenId : ℕ}

theorem holdings_save (rows : IndexRows) (row : IndexRow) :
    holdings (rows.save row) = Function.update (holdings rows) row.tokenId (some row.holding) := by
  funext id
  unfold holdings
  by_cases hid : id = row.tokenId
  · subst hid
    rw [Table.get_save_self, Function.update_self]
    rfl
  · rw [Table.get_save_of_ne hid, Function.update_of_ne hid]

theorem holdings_upsertOwner (rows : IndexRows) (tokenId : ℕ) (wallet : JsStr) :
    holdings (upsertOwner tokenId wallet rows) =
      Function.update (holdings rows) tokenId (writeEvent (holdings rows tokenId) (some wallet)) := by
  unfold upsertOwner
  rw [holdings_save]
  congr 1
  unfold holdings
  cases rows.get tokenId <;> rfl

theorem holdings_burnRow (rows : IndexRows) (now tokenId : ℕ) :
    holdings (burnRow now tokenId rows) =
      Function.update (holdings rows) tokenId (writeEvent (holdings rows tokenId) none) := by
  unfold burnRow
  cases hrow : rows.get tokenId with
  | none =>
    have hheld : holdings rows tokenId = none := by rw [holdings, hrow]; rfl
    rw [hheld]
    exact (Function.update_eq_self_iff.mpr hheld.symm).symm
  | some row =>
    have hid : row.tokenId = tokenId := Table.get_key hrow
    have hheld : holdings rows tokenId = some row.holding := by rw [holdings, hrow]; rfl
    dsimp only
    rw [holdings_save, hheld, hid]
    congr 1
    unfold IndexRow.holding
    cases row.burnedAt <;> rfl

end Rows

section Texts

theorem lower_trim_of_isAddress {s : JsStr} (h : isAddress s = true) : lower (trim s) = s := by
  rw [trim_eq_self (not_isSpace_of_isAddress h), lower_of_isAddress h]

end Texts

variable {cfg : Config} {log : List Transfer}

/-- The last block that the cursor says is scanned; below the contract there is nothing to scan. -/
def Store.scanned (cfg : Config) (s : Store) : ℕ := resumeAfter cfg s.cursor - 1

/-- The rows have seen the logs up to `block`, and of each later block up to `hi` perhaps some. -/
def Seen (log : List Transfer) (block hi : ℕ) (held : ℕ → Option (Marked JsStr)) : Prop :=
  ∀ id, 1 ≤ id → OneLife log id → Covers (pastOf log id block) (eventsOf log id block hi) (held id)

/-- The rows are what the logs up to `block` say. -/
def Exact (log : List Transfer) (block : ℕ) (held : ℕ → Option (Marked JsStr)) : Prop :=
  ∀ id, 1 ≤ id → OneLife log id → held id = replayed (pastOf log id block)

/-- A pass that reads the head as `latest`, or any later one, reaches what was written before. -/
structure Caught (cfg : Config) (log : List Transfer) (latest : ℕ) (s : Store) : Prop where
  chain : s.chain.log = log
  seen : ∃ hi, s.scanned cfg ≤ hi ∧ hi ≤ s.scanned cfg + cfg.logChunkSize ∧
    (hi = s.scanned cfg ∨ hi ≤ latest) ∧ Seen log (s.scanned cfg) hi (holdings s.rows)
  exact : s.applied = 0 → Exact log (s.scanned cfg) (holdings s.rows)

def Indexed (cfg : Config) (log : List Transfer) (s : Store) : Prop := Caught cfg log s.chain.head s

theorem Seen.self {n : ℕ} {held : ℕ → Option (Marked JsStr)} (h : Exact log n held) :
    Seen log n n held := by
  intro id hid hlife
  rw [h id hid hlife, eventsOf_self]
  exact covers_replayed _

section Steps
variable {s : Store} {latest : ℕ}

theorem Caught.mono {latest' : ℕ} (h : Caught cfg log latest s) (hle : latest ≤ latest') :
    Caught cfg log latest' s := by
  obtain ⟨hi, hlow, hhigh, hreach, hseen⟩ := h.seen
  refine ⟨h.chain, ⟨hi, hlow, hhigh, ?_, hseen⟩, h.exact⟩
  omega

theorem Caught.seal (h : Caught cfg log latest s) (n : ℕ) : Caught cfg log latest (s.seal n) :=
  ⟨h.chain, h.seen, h.exact⟩

theorem Indexed.seal (h : Indexed cfg log s) (n : ℕ) : Indexed cfg log (s.seal n) :=
  (Caught.seal h n).mono (Nat.le_add_right _ _)

theorem Indexed.query (h : Indexed cfg log s) (stop : ℕ) (answer : Except Failure (List Transfer)) :
    Indexed cfg log (s.query stop answer) := by
  cases answer with
  | ok logs => exact ⟨h.chain, h.seen, h.exact⟩
  | error e => exact h

theorem indexed_of_caught (h : Caught cfg log latest s) (hle : latest ≤ s.chain.head) :
    Indexed cfg log s := h.mono hle

/-- The mark has no block, so a later pass starts where it would have. -/
theorem scanned_mark : s.markBackfillComplete.scanned cfg = s.scanned cfg := by
  unfold Store.scanned Store.markBackfillComplete resumeAfter
  cases s.cursor <;> rfl

theorem Indexed.mark (h : Indexed cfg log s) : Indexed cfg log s.markBackfillComplete := by
  have hscanned : s.markBackfillComplete.scanned cfg = s.scanned cfg := scanned_mark
  refine ⟨h.chain, ?_, ?_⟩
  · rw [hscanned]
    exact h.seen
  · rw [hscanned]
    exact h.exact

/-- A chunk is written over the rows `held` that the pass has found. -/
structure ChunkStart (cfg : Config) (log : List Transfer) (block stop latest : ℕ)
    (held : ℕ → Option (Marked JsStr)) : Prop where
  seen : ∃ hi, block ≤ hi ∧ hi ≤ stop ∧ Seen log block hi held
  nonempty : block ≤ stop
  inChunk : stop ≤ block + cfg.logChunkSize
  reached : stop ≤ latest

/-- The state of a chunk of which `done` is written. -/
structure Writing (cfg : Config) (log : List Transfer) (block latest : ℕ)
    (held : ℕ → Option (Marked JsStr)) (done : List Transfer) (s : Store) : Prop where
  chain : s.chain.log = log
  scanned : s.scanned cfg = block
  head : latest ≤ s.chain.head
  held : ∀ id, holdings s.rows id =
    ((transfersOf done id).map Transfer.event).foldl writeEvent (held id)
  exact : s.applied = 0 → Exact log block (holdings s.rows)

/-- The logs of the chunk after `block` up to `stop`, token 0 left out. -/
def chunkOf (log : List Transfer) (block stop : ℕ) : List Transfer :=
  (log.filter fun e => block + 1 ≤ e.blockNumber && e.blockNumber ≤ stop).filter fun e => 0 < e.tokenId

theorem events_chunkOf (log : List Transfer) (block stop : ℕ) {id : ℕ} (hid : 1 ≤ id) :
    (transfersOf (chunkOf log block stop) id).map Transfer.event = eventsOf log id block stop := by
  unfold transfersOf chunkOf eventsOf
  rw [List.filter_filter, List.filter_filter]
  congr 1
  refine List.filter_congr fun e _ => ?_
  rw [Bool.eq_iff_iff]
  simp only [Bool.and_eq_true, decide_eq_true_eq]
  omega

variable {block stop latest : ℕ} {held : ℕ → Option (Marked JsStr)} {done rest : List Transfer}

theorem events_of_done (h : done ++ rest = chunkOf log block stop) {id : ℕ} (hid : 1 ≤ id) :
    (transfersOf done id).map Transfer.event <+: eventsOf log id block stop := by
  rw [← events_chunkOf log block stop hid, ← h, transfersOf, transfersOf, List.filter_append,
    List.map_append]
  exact List.prefix_append _ _

/-- A chunk that is stopped in the middle leaves the index as the invariant wants it. -/
theorem Writing.indexed (hlog : log.Pairwise fun a b => a.before b = true)
    (hstart : ChunkStart cfg log block stop latest held) (h : Writing cfg log block latest held done s)
    (hdone : done ++ rest = chunkOf log block stop) : Indexed cfg log s := by
  obtain ⟨hi, hlow, hhigh, hseen⟩ := hstart.seen
  refine ⟨h.chain, ⟨stop, ?_, ?_, .inr (hstart.reached.trans h.head), ?_⟩, ?_⟩
  · rw [h.scanned]
    exact hstart.nonempty
  · rw [h.scanned]
    exact hstart.inChunk
  · rw [h.scanned]
    intro id hid hlife
    rw [h.held id]
    refine (hseen id hid hlife).write ?_ (events_of_done hdone hid)
    rw [eventsOf_append hlog hlow hhigh]
    exact List.prefix_append _ _
  · rw [h.scanned]
    exact h.exact

/-- A chunk that is written to its end leaves what the logs up to its end say. -/
theorem Writing.finished (hlog : log.Pairwise fun a b => a.before b = true)
    (hstart : ChunkStart cfg log block stop latest held)
    (h : Writing cfg log block latest held (chunkOf log block stop) s) :
    Exact log stop (holdings s.rows) := by
  obtain ⟨hi, hlow, hhigh, hseen⟩ := hstart.seen
  intro id hid hlife
  have hahead : eventsOf log id block hi <+: eventsOf log id block stop := by
    rw [eventsOf_append hlog hlow hhigh]
    exact List.prefix_append _ _
  have hlifetime := lifetime_pastOf hlog hlife stop
  rw [pastOf_append hlog hstart.nonempty] at hlifetime
  rw [h.held id, events_chunkOf log block stop hid, pastOf_append hlog hstart.nonempty]
  exact (hseen id hid hlife).foldl_write hahead hlifetime

theorem Writing.write (h : Writing cfg log block latest held done s) {e : Transfer} {rows : IndexRows}
    (hrows : holdings rows =
      Function.update (holdings s.rows) e.tokenId (writeEvent (holdings s.rows e.tokenId) e.event)) :
    Writing cfg log block latest held (done ++ [e]) (s.write .replay rows) := by
  refine ⟨h.chain, h.scanned, h.head, fun id => ?_, fun hzero => absurd hzero (Nat.succ_ne_zero _)⟩
  change holdings rows id = _
  rw [hrows, transfersOf, List.filter_append, List.map_append, List.foldl_append]
  by_cases hid : id = e.tokenId
  · subst hid
    rw [Function.update_self, h.held]
    simp [transfersOf]
  · rw [Function.update_of_ne hid, h.held]
    simp [transfersOf, Ne.symm hid]

theorem Writing.seal (h : Writing cfg log block latest held done s) (n : ℕ) :
    Writing cfg log block latest held done (s.seal n) :=
  ⟨h.chain, h.scanned, h.head.trans (Nat.le_add_right _ _), h.held, h.exact⟩

theorem Writing.query (h : Writing cfg log block latest held done s) (stop : ℕ)
    (answer : Except Failure (List Transfer)) :
    Writing cfg log block latest held done (s.query stop answer) := by
  cases answer with
  | ok logs => exact ⟨h.chain, h.scanned, h.head, h.held, h.exact⟩
  | error e => exact h

theorem event_eq {e : Transfer} (he : isAddress e.to_ = true) :
    (lower (trim e.to_) = zeroAddress → e.event = none) ∧
      (lower (trim e.to_) ≠ zeroAddress → e.event = some (lower (trim (lower (trim e.to_))))) := by
  rw [lower_trim_of_isAddress he, lower_trim_of_isAddress he, Transfer.event]
  exact ⟨fun h => if_pos h, fun h => if_neg h⟩

abbrev IndexHolds {α : Type} (cfg : Config) (log : List Transfer) (p : M α)
    (Q : Except Failure α → Store → Prop) (s : Store) : Prop :=
  p.Holds exec anyAnswer (Indexed cfg log) Q s

theorem recordTransfers_holds (hlog : ChainLog cfg log) (hstart : ChunkStart cfg log block stop latest held)
    (hdone : done ++ rest = chunkOf log block stop) (hs : Writing cfg log block latest held done s) :
    IndexHolds cfg log (recordTransfers rest)
      (fun _ t => Writing cfg log block latest held (chunkOf log block stop) t) s := by
  induction rest generalizing done s with
  | nil =>
    rw [List.append_nil] at hdone
    subst hdone
    exact Prog.holds_ret (hs.indexed hlog.sorted hstart (List.append_nil _)) hs
  | cons e rest ih =>
    have hindexed := hs.indexed hlog.sorted hstart hdone
    have hnext : (done ++ [e]) ++ rest = chunkOf log block stop := by
      rw [List.append_assoc]
      exact hdone
    have hmem : e ∈ log := by
      have hchunk : e ∈ chunkOf log block stop := by
        rw [← hdone]
        exact List.mem_append_right _ List.mem_cons_self
      exact List.mem_of_mem_filter (List.mem_of_mem_filter hchunk)
    have haddress := hlog.recipients e hmem
    obtain ⟨hburn, howner⟩ := event_eq haddress
    unfold recordTransfers recordTransfer
    split_ifs with hzero
    · refine Prog.holds_call_bind hindexed fun x _ => ?_
      refine ih hnext ((hs.seal x.sealed).write ?_)
      rw [hburn hzero]
      exact holdings_burnRow _ _ _
    · have hvalid : isAddress (lower (trim (lower (trim e.to_)))) = true := by
        rw [lower_trim_of_isAddress haddress, lower_trim_of_isAddress haddress]
        exact haddress
      unfold recordOwner
      rw [if_pos hvalid]
      refine Prog.holds_call_bind hindexed fun x _ => ?_
      refine ih hnext ((hs.seal x.sealed).write ?_)
      rw [howner hzero]
      exact holdings_upsertOwner _ _ _

theorem scanned_saveCursor (complete : Bool) (hdeploy : cfg.deployBlock ≤ stop) :
    (s.saveCursor stop complete).scanned cfg = stop := by
  unfold Store.scanned Store.saveCursor resumeAfter
  simp [hdeploy]

/-- The cursor moves to the end of a chunk that is written. -/
theorem Writing.save (hlog : ChainLog cfg log) (hstart : ChunkStart cfg log block stop latest held)
    (hdeploy : cfg.deployBlock ≤ stop)
    (h : Writing cfg log block latest held (chunkOf log block stop) s) (complete : Bool) :
    Caught cfg log latest (s.saveCursor stop complete) ∧
      (s.saveCursor stop complete).scanned cfg = stop := by
  have hscanned : (s.saveCursor stop complete).scanned cfg = stop :=
    scanned_saveCursor complete hdeploy
  have hexact := h.finished hlog.sorted hstart
  refine ⟨⟨h.chain, ⟨stop, ?_⟩, fun _ => ?_⟩, hscanned⟩
  · rw [hscanned]
    exact ⟨le_rfl, Nat.le_add_right _ _, .inl rfl, Seen.self hexact⟩
  · rw [hscanned]
    exact hexact

end Steps

section Passes
variable {s : Store} {latest : ℕ}

theorem perform_holds {α : Type} {c : Cmd} {f : Res c → M α} {Q : Except Failure α → Store → Prop}
    (hs : Indexed cfg log s)
    (h : ∀ x, IndexHolds cfg log (f (exec s x c).1) Q (exec s x c).2) :
    IndexHolds cfg log (perform c >>= f) Q s := ⟨hs, fun x _ => h x⟩

theorem pause_holds {stop : ℕ} {Q : Except Failure Unit → Store → Prop} (hs : Indexed cfg log s)
    (hQ : ∀ n, Q (.ok ()) (s.seal n)) (hQ' : Q (.ok ()) s) :
    IndexHolds cfg log (pause cfg stop latest) Q s := by
  unfold pause
  split_ifs
  · exact ⟨hs, fun x _ => ⟨hs.seal x.sealed, hQ x.sealed⟩⟩
  · exact Prog.holds_ret hs hQ'

theorem scanChunks_holds (hlog : ChainLog cfg log) (maxBlocksPerRun : ℕ) (complete : Bool)
    {fuel : ℕ} {sc : Scan} (hs : Caught cfg log latest s) (hhead : latest ≤ s.chain.head)
    (hdeploy : cfg.deployBlock ≤ sc.start)
    (hstart : latest < sc.start ∨ sc.start = s.scanned cfg + 1) :
    IndexHolds cfg log (scanChunks cfg latest maxBlocksPerRun complete fuel sc) (fun _ _ => True)
      s := by
  induction fuel generalizing s sc with
  | zero => exact Prog.holds_ret (indexed_of_caught hs hhead) trivial
  | succ fuel ih =>
    have hindexed := indexed_of_caught hs hhead
    unfold scanChunks
    split_ifs with hstop
    · exact Prog.holds_ret hindexed trivial
    · simp only [Bool.or_eq_true, decide_eq_true_eq, not_or, not_lt, not_le] at hstop
      have hscanned : sc.start = s.scanned cfg + 1 := by omega
      have hchunk := cfg.logChunkSize_pos
      dsimp only
      set stop := min (sc.start + cfg.logChunkSize - 1) latest with hstopDef
      have hstopBounds : s.scanned cfg ≤ stop ∧ stop ≤ s.scanned cfg + cfg.logChunkSize ∧
          stop ≤ latest ∧ sc.start ≤ stop := by omega
      obtain ⟨hi, hlow, hhigh, hreach, hseen⟩ := hs.seen
      have hchunkStart : ChunkStart cfg log (s.scanned cfg) stop latest (holdings s.rows) :=
        ⟨⟨hi, hlow, by omega, hseen⟩, hstopBounds.1, hstopBounds.2.1, hstopBounds.2.2.1⟩
      refine Prog.holds_call_bind hindexed fun x _ => Prog.holds_ret_bind (fun logs hlogs => ?_)
        fun e => ⟨(hindexed.seal x.sealed).query stop _, trivial⟩
      have hbatch : batchOf logs = chunkOf log (s.scanned cfg) stop := by
        have hperm : logs.Perm (log.filter fun e =>
            s.scanned cfg + 1 ≤ e.blockNumber && e.blockNumber ≤ stop) := by
          have hanswer : x.rpc (x.arrange (s.chain.log.filter fun e =>
              sc.start ≤ e.blockNumber && e.blockNumber ≤ stop)) = .ok logs := hlogs
          unfold World.rpc at hanswer
          split_ifs at hanswer
          obtain rfl := Except.ok.inj hanswer
          rw [hs.chain, hscanned]
          exact x.arrange_perm _
        exact batchOf_eq hlog.sorted hperm
      rw [hbatch]
      have hwriting : Writing cfg log (s.scanned cfg) latest (holdings s.rows) [] (s.seal x.sealed) :=
        ⟨hs.chain, rfl, hhead.trans (Nat.le_add_right _ _), fun _ => rfl, hs.exact⟩
      have hrecorded : IndexHolds cfg log (recordTransfers (chunkOf log (s.scanned cfg) stop))
          (fun r t => ∀ u, r = .ok u → Writing cfg log (s.scanned cfg) latest (holdings s.rows)
            (chunkOf log (s.scanned cfg) stop) t)
          (exec s x (.queryTransferLogs sc.start stop)).2 :=
        (recordTransfers_holds hlog hchunkStart (List.nil_append _) (hwriting.query stop _)).mono
          fun r t _ hr _ _ => hr
      refine Prog.holds_bind hrecorded (fun _ t ht hwritten => ?_) fun _ _ _ => trivial
      refine perform_holds ht fun y => ?_
      have hsave : Caught cfg log latest ((t.seal y.sealed).saveCursor stop complete) ∧
          ((t.seal y.sealed).saveCursor stop complete).scanned cfg = stop :=
        (hwritten.seal y.sealed).save hlog hchunkStart (hdeploy.trans hstopBounds.2.2.2) complete
      obtain ⟨hcaught, hsaved⟩ := hsave
      have hhead' : latest ≤ ((t.seal y.sealed).saveCursor stop complete).chain.head :=
        hwritten.head.trans (Nat.le_add_right _ _)
      have hpause : IndexHolds cfg log (pause cfg stop latest) (fun r u => ∀ v, r = .ok v →
          Caught cfg log latest u ∧ latest ≤ u.chain.head ∧ u.scanned cfg = stop)
          ((t.seal y.sealed).saveCursor stop complete) := by
        refine pause_holds (indexed_of_caught hcaught hhead') (fun n _ _ => ?_) fun _ _ => ?_
        · exact ⟨hcaught.seal n, hhead'.trans (Nat.le_add_right _ _), hsaved⟩
        · exact ⟨hcaught, hhead', hsaved⟩
      refine Prog.holds_bind hpause (fun _ u _ hu => ?_) fun _ _ _ => trivial
      obtain ⟨hcaught', hhead'', hscanned'⟩ := hu
      refine ih hcaught' hhead'' (hdeploy.trans (Nat.le_add_right _ _)) ?_
      change latest < sc.start + cfg.logChunkSize ∨ sc.start + cfg.logChunkSize = u.scanned cfg + 1
      omega

/-- One pass, wherever it is stopped, keeps the invariant. -/
theorem backfillFromTransferLogs_holds (hlog : ChainLog cfg log) (maxBlocksPerRun : ℕ)
    (hs : Indexed cfg log s) :
    IndexHolds cfg log (backfillFromTransferLogs cfg maxBlocksPerRun) (fun _ _ => True) s := by
  unfold backfillFromTransferLogs
  split_ifs with hdeploy
  · exact Prog.holds_ret hs trivial
  · refine perform_holds hs fun x => ?_
    have hs' := hs.seal x.sealed
    refine Prog.holds_call_bind hs' fun y _ => Prog.holds_ret_bind (fun latest hlatest => ?_)
      fun e => ⟨hs'.seal y.sealed, trivial⟩
    have hhead : latest = ((s.seal x.sealed).seal y.sealed).chain.head := by
      have hanswer : y.rpc ((s.seal x.sealed).seal y.sealed).chain.head = .ok latest := hlatest
      unfold World.rpc at hanswer
      split_ifs at hanswer
      exact (Except.ok.inj hanswer).symm
    have hresume : cfg.deployBlock ≤ resumeAfter cfg s.cursor := by
      unfold resumeAfter
      split
      · split_ifs
        · omega
        · exact le_rfl
      · exact le_rfl
    change IndexHolds cfg log (if latest < max cfg.deployBlock (resumeAfter cfg s.cursor) then _
      else _) _ ((s.seal x.sealed).seal y.sealed)
    have hs'' : Indexed cfg log ((s.seal x.sealed).seal y.sealed) := hs'.seal y.sealed
    split_ifs with hdone
    · exact Prog.holds_ret hs'' trivial
    · have hcursor : (exec s x .findCursor).1 = s.cursor := rfl
      rw [hcursor, max_eq_right hresume]
      have hscan : IndexHolds cfg log (scanChunks cfg latest maxBlocksPerRun
          ((s.cursor.map Cursor.backfillComplete).getD false) (latest + 1 - resumeAfter cfg s.cursor)
          { start := resumeAfter cfg s.cursor, lastProcessedBlock := resumeAfter cfg s.cursor - 1 })
          (fun r t => ∀ sc, r = .ok sc → True) ((s.seal x.sealed).seal y.sealed) := by
        refine (scanChunks_holds hlog _ _ (hhead ▸ hs'') hhead.le hresume (.inr ?_)).mono
          fun _ _ _ _ _ _ => trivial
        change resumeAfter cfg s.cursor = resumeAfter cfg s.cursor - 1 + 1
        omega
      refine Prog.holds_bind hscan (fun sc t ht _ => ?_) fun _ _ _ => trivial
      have hjudge : IndexHolds cfg log (judgeBackfill latest sc) (fun r t => ∀ u, r = .ok u → True)
          t := by
        refine Prog.holds_call_bind ht fun z _ => Prog.holds_ret_bind (fun totalMinted _ => ?_)
          fun e => ⟨ht.seal z.sealed, fun _ _ => trivial⟩
        refine perform_holds (ht.seal z.sealed) fun w => ?_
        have hcounted : Indexed cfg log ((t.seal z.sealed).seal w.sealed) :=
          (ht.seal z.sealed).seal w.sealed
        split_ifs
        · exact ⟨hcounted, fun v _ => ⟨(hcounted.seal v.sealed).mark, fun _ _ => trivial⟩⟩
        · exact Prog.holds_ret hcounted fun _ _ => trivial
      refine Prog.holds_bind hjudge (fun _ u hu _ => ?_) fun _ _ _ => trivial
      exact Prog.holds_ret hu trivial

end Passes

def emptyIndex (log : List Transfer) (head : ℕ) : Store := { chain := ⟨log, head⟩ }

theorem pastOf_eq_nil (hlog : ChainLog cfg log) {block : ℕ} (h : block < cfg.deployBlock) (id : ℕ) :
    pastOf log id block = [] := by
  have hnone : upTo log block = [] := by
    unfold upTo
    rw [List.filter_eq_nil_iff]
    intro e he
    have hdeployed := hlog.deployed e he
    have hlater : ¬ e.blockNumber ≤ block := by omega
    simpa using hlater
  rw [pastOf, hnone]
  rfl

theorem indexed_emptyIndex (hlog : ChainLog cfg log) (hdeploy : 0 < cfg.deployBlock) (head : ℕ) :
    Indexed cfg log (emptyIndex log head) := by
  have hscanned : (emptyIndex log head).scanned cfg = cfg.deployBlock - 1 := rfl
  have hnothing : Exact log (cfg.deployBlock - 1) (holdings (emptyIndex log head).rows) := by
    intro id _ _
    rw [pastOf_eq_nil hlog (by omega)]
    rfl
  refine ⟨rfl, ⟨cfg.deployBlock - 1, ?_⟩, fun _ => ?_⟩
  · rw [hscanned]
    exact ⟨le_rfl, Nat.le_add_right _ _, .inl rfl, Seen.self hnothing⟩
  · rw [hscanned]
    exact hnothing

/-- Without a deploy block nothing is scanned. -/
theorem cursor_eq_none_of_deployBlock (hdeploy : cfg.deployBlock = 0) {passes : List ℕ}
    {s t : Store} (hs : s.cursor = none)
    (hrun : Stopped exec anyAnswer (backfillFromTransferLogs cfg) passes s t) : t.cursor = none := by
  refine stopped_keep (I := fun u => u.cursor = none) (fun maxBlocksPerRun u hu => ?_) hrun hs
  unfold backfillFromTransferLogs
  rw [if_pos hdeploy]
  exact Prog.holds_ret hu trivial

theorem foldTransfers_upTo (log : List Transfer) (block id : ℕ) :
    foldTransfers (upTo log block) id = replayed (pastOf log id block) := foldTransfers_eq _ _

/-- However the passes cut the blocks, and wherever they are stopped and resumed: when the cursor has
been saved at a block, and no transfer was written since, the index holds the fold of the Transfer logs
up to that block, for every token whose first log is its mint and whose id is not used again. -/
theorem index_eq_fold_of_log (hlog : ChainLog cfg log) {head : ℕ} {passes : List ℕ} {t : Store}
    (hrun : Stopped exec anyAnswer (backfillFromTransferLogs cfg) passes (emptyIndex log head) t)
    {block : ℕ} (hcursor : t.cursor.bind Cursor.lastScannedBlock = some block)
    (hsaved : t.applied = 0) {tokenId : ℕ} (hid : 1 ≤ tokenId) (hlife : OneLife log tokenId) :
    holdings t.rows tokenId = foldTransfers (upTo log block) tokenId := by
  by_cases hdeploy : cfg.deployBlock = 0
  · have hnone := cursor_eq_none_of_deployBlock hdeploy rfl hrun
    rw [hnone] at hcursor
    cases hcursor
  · have hindexed : Indexed cfg log t := by
      refine stopped_keep (fun maxBlocksPerRun s hs => ?_) hrun
        (indexed_emptyIndex hlog (by omega) head)
      exact backfillFromTransferLogs_holds hlog maxBlocksPerRun hs
    have hexact := hindexed.exact hsaved tokenId hid hlife
    rw [hexact, foldTransfers_upTo]
    congr 1
    by_cases hblock : cfg.deployBlock ≤ block
    · have hscanned : t.scanned cfg = block := by
        unfold Store.scanned resumeAfter
        rw [hcursor]
        simp [hblock]
      rw [hscanned]
    · have hscanned : t.scanned cfg = cfg.deployBlock - 1 := by
        unfold Store.scanned resumeAfter
        rw [hcursor]
        simp [hblock]
      rw [hscanned, pastOf_eq_nil hlog (by omega), pastOf_eq_nil hlog (by omega)]

section Runs

def alice : JsStr := js "0x" ++ List.replicate 40 'a'

def bob : JsStr := js "0x" ++ List.replicate 40 'b'

/-- Token 1 goes from Alice to Bob; token 2 is minted and burned in between. -/
def twoTokens : List Transfer :=
  [⟨5, 0, zeroAddress, alice, 1⟩, ⟨5, 3, zeroAddress, bob, 2⟩, ⟨6, 1, bob, zeroAddress, 2⟩,
    ⟨7, 0, alice, bob, 1⟩]

def twoBlocks : Config where
  deployBlock := 5
  logChunkSize := 2
  logChunkSize_pos := by decide

/-- The first pass dies before it has saved the cursor, the second one in its second chunk. -/
def crashes : List (ℕ × ℕ × World) := [(200, 6, {}), (200, 10, {}), (50, 20, {})]

theorem chainLog_twoTokens : ChainLog twoBlocks twoTokens where
  sorted := by decide
  deployed := by decide
  recipients := by decide

theorem oneLife_twoTokens : OneLife twoTokens 2 where
  minted := by
    intro e he
    obtain rfl : (⟨5, 3, zeroAddress, bob, 2⟩ : Transfer) = e := Option.some.inj he
    decide
  burned := by decide

theorem index_eq_fold_of_log_twoTokens : ∃ passes t,
    Stopped exec anyAnswer (backfillFromTransferLogs twoBlocks) passes (emptyIndex twoTokens 7) t ∧
      (t.cursor.bind Cursor.lastScannedBlock, t.applied) = (some 7, 0) ∧
      holdings t.rows 2 = foldTransfers (upTo twoTokens 7) 2 := by
  obtain ⟨passes, t, hrun, hend⟩ : ∃ passes t,
      Stopped exec anyAnswer (backfillFromTransferLogs twoBlocks) passes (emptyIndex twoTokens 7) t ∧
        (t.cursor.bind Cursor.lastScannedBlock, t.applied) = (some 7, 0) :=
    exists_stopped_of_tryStopped crashes
      (fun t : Store => (t.cursor.bind Cursor.lastScannedBlock, t.applied)) (by decide +kernel)
  obtain ⟨hcursor, hsaved⟩ := Prod.mk.inj hend
  exact ⟨passes, t, hrun, hend, index_eq_fold_of_log chainLog_twoTokens hrun hcursor hsaved
    (by decide) oneLife_twoTokens⟩

end Runs

end OwnerIndex
