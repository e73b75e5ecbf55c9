import Mathlib.Data.List.Dedup
import Mathlib.Data.List.Sort
import Tokenable.Async.Pool
import Tokenable.Async.Serial
import Tokenable.Db.Register
import Tokenable.Db.Table
import Tokenable.Js.Text

/-!
# The owner index of the RWA contract

`RwaTokenOwnerIndexService` on one chain: the rows of `rwa_tokens` with their `owner_wallet` and
`burned_at`, and the cursor of the Transfer-log replay. The chain is its Transfer log and its head; a
mined transfer is in the block after the head, and visible once that block is sealed. Blocks may be
sealed at any step. The contract counts its token ids up from 0, so `Number(…)` of an id is exact, and
a log row's addresses are in lower case, as the replay makes them.
-/

namespace OwnerIndex
open Js Async

def zeroAddress : JsStr := js "0x" ++ List.replicate 40 '0'

structure Transfer where
  blockNumber : ℕ
  index : ℕ
  from_ : JsStr
  to_ : JsStr
  tokenId : ℕ
  deriving DecidableEq

def Transfer.before (a b : Transfer) : Bool :=
  a.blockNumber < b.blockNumber || (a.blockNumber = b.blockNumber && a.index < b.index)

/-- `a.blockNumber - b.blockNumber || a.index - b.index` is not positive. -/
def Transfer.notAfter (a b : Transfer) : Prop :=
  a.blockNumber < b.blockNumber ∨ (a.blockNumber = b.blockNumber ∧ a.index ≤ b.index)

instance : DecidableRel Transfer.notAfter := fun a b =>
  inferInstanceAs (Decidable
    (a.blockNumber < b.blockNumber ∨ (a.blockNumber = b.blockNumber ∧ a.index ≤ b.index)))

/-- What a transfer does to its token: a new owner, or the end of it. -/
def Transfer.event (e : Transfer) : Option JsStr := if e.to_ = zeroAddress then none else some e.to_

/-- The events of a token in the blocks after `lo`, up to `hi`. -/
def eventsOf (log : List Transfer) (tokenId lo hi : ℕ) : List (Option JsStr) :=
  (log.filter fun e => e.tokenId = tokenId && lo < e.blockNumber && e.blockNumber ≤ hi).map
    Transfer.event

/-- The owner of a token, and whether it is burned, after the first `n` events of the log. -/
def foldTransfers (log : List Transfer) : ℕ → Option (Db.Marked JsStr) :=
  log.foldl (fun m e => Function.update m e.tokenId (some (Db.eventMeaning e.event))) fun _ => none

/-- The Transfer logs of the blocks up to `block`. -/
def upTo (log : List Transfer) (block : ℕ) : List Transfer := log.filter fun e => e.blockNumber ≤ block

structure Chain where
  log : List Transfer
  head : ℕ

namespace Chain

def ownerOf (c : Chain) (tokenId : ℕ) : Option JsStr :=
  (foldTransfers (upTo c.log c.head) tokenId).bind Db.Marked.value

def liveTokenIds (c : Chain) : List ℕ :=
  (((upTo c.log c.head).map Transfer.tokenId).dedup.filter fun id => (c.ownerOf id).isSome)

def totalSupply (c : Chain) : ℕ := c.liveTokenIds.length

end Chain

inductive Tx where
  | mint (tokenId : ℕ) (to_ : JsStr)
  | transfer (from_ : JsStr) (tokenId : ℕ) (to_ : JsStr)
  | burn (tokenId : ℕ)

def Tx.tokenId : Tx → ℕ
  | .mint id _ | .transfer _ id _ | .burn id => id

/-- The owner of a token once the block under construction is sealed too. -/
def Chain.pendingOwnerOf (c : Chain) (tokenId : ℕ) : Option JsStr :=
  (foldTransfers c.log tokenId).bind Db.Marked.value

/-- The sender and the receiver of a transaction that the contract accepts: an id is minted once, to
somebody, and a token is moved from its owner only. -/
def Chain.accepts (c : Chain) : Tx → Option (JsStr × JsStr)
  | .mint id to_ =>
    if (foldTransfers c.log id).isNone && to_ ≠ zeroAddress then some (zeroAddress, to_) else none
  | .transfer from_ id to_ =>
    if to_ ≠ zeroAddress ∧ c.pendingOwnerOf id = some from_ then some (from_, to_) else none
  | .burn id => (c.pendingOwnerOf id).map fun owner => (owner, zeroAddress)

def Chain.mine (c : Chain) (tx : Tx) : Chain :=
  match c.accepts tx with
  | none => c
  | some (from_, to_) =>
    { c with log := c.log ++ [{
        blockNumber := c.head + 1
        index := (c.log.filter fun e => e.blockNumber = c.head + 1).length
        from_ := from_, to_ := to_, tokenId := tx.tokenId }] }

structure IndexRow where
  tokenId : ℕ
  ownerWallet : Option JsStr
  burnedAt : Option ℕ
  deriving DecidableEq

abbrev IndexRows := Db.Table IndexRow ℕ IndexRow.tokenId

structure Cursor where
  lastScannedBlock : Option ℕ
  backfillComplete : Bool
  deriving DecidableEq

def IndexRow.holding (r : IndexRow) : Db.Marked JsStr := ⟨r.ownerWallet, r.burnedAt.isSome⟩

/-- The map from token to (owner_wallet, burned) that the index holds. -/
def holdings (rows : IndexRows) (tokenId : ℕ) : Option (Db.Marked JsStr) :=
  (rows.get tokenId).map IndexRow.holding

/-- `ON CONFLICT (token_contract, token_id) DO UPDATE SET owner_wallet`: `burned_at` is left alone. -/
def upsertOwner (tokenId : ℕ) (wallet : JsStr) (rows : IndexRows) : IndexRows :=
  rows.save ⟨tokenId, some wallet, (rows.get tokenId).bind IndexRow.burnedAt⟩

/-- `COALESCE(burned_at, NOW())`, where there is a row. -/
def burnRow (now tokenId : ℕ) (rows : IndexRows) : IndexRows :=
  match rows.get tokenId with
  | none => rows
  | some row => rows.save { row with ownerWallet := none, burnedAt := row.burnedAt.or (some now) }

inductive Evidence where
  | counted (totalMinted liveOwners : ℕ)
  | scanned (totalMinted : ℕ) (entries : List (ℕ × JsStr))

/-- The chain and the rows when the index is found complete, or when no rescan is found necessary. -/
structure Judged where
  complete : Bool
  chain : Chain
  rows : IndexRows

/-- The in-memory answer to the last supply question. -/
structure SupplyCache where
  totalSupply : ℕ
  at_ : ℕ

/-- `applied` counts the transfers that were written since the cursor was last moved, `queried` is the
end of the chunk that is being written and `ahead` its transfers that are not written yet. The pass that
runs is that of task `pass`, and the rescan in flight the one numbered `healInFlight`. -/
structure Store where
  chain : Chain
  rows : IndexRows := Db.Table.empty
  cursor : Option Cursor := none
  supplyCache : Option SupplyCache := none
  heals : List (Option Bool) := []
  healInFlight : Option ℕ := none
  pass : Option ℕ := none
  applied : ℕ := 0
  queried : Option ℕ := none
  ahead : List Transfer := []
  judged : List Judged := []

inductive Failure where
  | rpc
  | reverted
  | rejected
  | database
  deriving DecidableEq

/-- Who writes an owner: the replay of the logs, or a caller that has seen the owner before. -/
inductive Writer where
  | replay
  | caller
  deriving DecidableEq

inductive Rescan where
  | unneeded
  | joined (heal : ℕ)
  | started (heal : ℕ)

inductive Cmd where
  | sealBlocks (blocks : ℕ)
  | startPass
  | endPass
  | getBlockNumber
  | queryTransferLogs (start stop : ℕ)
  | totalSupply
  | tokenByIndex (index : ℕ)
  | ownerOf (tokenId : ℕ)
  | mine (tx : Tx)
  | awaitBlock (block : ℕ)
  | findCursor
  | saveCursor (lastScannedBlock : ℕ) (backfillComplete : Bool)
  | markBackfillComplete (evidence : Evidence)
  | countLiveIndexedOwners
  | countIndexedTokenRows
  | writeOwner (by_ : Writer) (tokenId : ℕ) (wallet : JsStr)
  | writeBurn (by_ : Writer) (tokenId : ℕ)
  | writeOwners (entries : List (ℕ × JsStr))
  | deleteRows (tokenIds : List ℕ)
  | readSupplyCache
  | decideRescan (rowCount totalMinted : ℕ)
  | settleHeal (heal : ℕ) (completed : Bool)
  | joinHeal (heal : ℕ)
  | sleep (ms : ℕ)

abbrev Res : Cmd → Type
  | .sealBlocks _ => Unit
  | .startPass => Unit
  | .endPass => Unit
  | .getBlockNumber => Except Failure ℕ
  | .queryTransferLogs .. => Except Failure (List Transfer)
  | .totalSupply => Except Failure ℕ
  | .tokenByIndex _ => Except Failure ℕ
  | .ownerOf _ => Except Failure JsStr
  | .mine _ => Except Failure ℕ
  | .awaitBlock _ => Unit
  | .findCursor => Option Cursor
  | .saveCursor .. => Unit
  | .markBackfillComplete _ => Unit
  | .countLiveIndexedOwners => ℕ
  | .countIndexedTokenRows => ℕ
  | .writeOwner .. => Unit
  | .writeBurn .. => Unit
  | .writeOwners _ => Unit
  | .deleteRows _ => Unit
  | .readSupplyCache => Option SupplyCache × ℕ
  | .decideRescan .. => Rescan
  | .settleHeal .. => Unit
  | .joinHeal _ => Except Failure Unit
  | .sleep _ => Unit

/-- The blocks sealed since the last step (of a function that runs alone), the clock, whether the node
fails, the order in which it gives the logs of a range, and what it gives of the live tokens. -/
structure World where
  sealed : ℕ := 0
  now : ℕ := 0
  fails : Bool := false
  arrange : List Transfer → List Transfer := id
  enumerate : List ℕ → List ℕ := id
  arrange_perm : ∀ log, (arrange log).Perm log := by exact fun log => List.Perm.refl log

def Store.seal (s : Store) (n : ℕ) : Store :=
  { s with chain := { s.chain with head := s.chain.head + n } }

def World.rpc {α : Type} (x : World) (a : α) : Except Failure α :=
  if x.fails then .error .rpc else .ok a

/-- A call that the contract may revert. -/
def World.view {α : Type} (x : World) : Option α → Except Failure α
  | some a => x.rpc a
  | none => .error .reverted

def isCounted (r : IndexRow) : Bool := r.ownerWallet.isSome && r.burnedAt.isNone

/-- The logs of a chunk in log order; token 0 is not indexed. -/
def batchOf (logs : List Transfer) : List Transfer :=
  (logs.filter fun e => 0 < e.tokenId).insertionSort Transfer.notAfter

def Store.query (s : Store) (stop : ℕ) : Except Failure (List Transfer) → Store
  | .ok logs => { s with queried := some stop, ahead := batchOf logs }
  | .error _ => s

def Store.saveCursor (s : Store) (block : ℕ) (backfillComplete : Bool) : Store :=
  { s with cursor := some ⟨some block, backfillComplete⟩, applied := 0, queried := none }

/-- The save has no block, so it leaves the stored one. -/
def Store.markBackfillComplete (s : Store) : Store :=
  { s with
    cursor := some ⟨s.cursor.bind Cursor.lastScannedBlock, true⟩
    judged := s.judged ++ [⟨true, s.chain, s.rows⟩] }

def Store.write (s : Store) (by_ : Writer) (rows : IndexRows) : Store :=
  { s with
    rows := rows
    applied := s.applied + 1
    ahead := if by_ = .replay then s.ahead.tail else s.ahead }

def Store.mine (s : Store) (x : World) (tx : Tx) : Except Failure ℕ × Store :=
  if (s.chain.accepts tx).isNone then (.error .reverted, s)
  else (x.rpc (s.chain.head + 1), { s with chain := s.chain.mine tx })

/-- The segment of the heal between the supply and the rescan. -/
def Store.decideRescan (s : Store) (now rowCount totalMinted : ℕ) : Rescan × Store :=
  let known := { s with supplyCache := some ⟨totalMinted, now⟩ }
  if totalMinted ≤ rowCount then
    (.unneeded, { known with judged := s.judged ++ [⟨false, s.chain, s.rows⟩] })
  else
    match s.healInFlight with
    | some heal => (.joined heal, known)
    | none =>
      (.started s.heals.length,
        { known with heals := s.heals ++ [none], healInFlight := some s.heals.length })

def act (i : ℕ) (s : Store) (x : World) : (c : Cmd) → Res c × Store
  | .sealBlocks blocks => ((), s.seal blocks)
  | .startPass => ((), { s with pass := some i })
  | .endPass => ((), { s with pass := none, queried := none, ahead := [] })
  | .getBlockNumber => (x.rpc s.chain.head, s)
  | .queryTransferLogs start stop =>
    let answer := x.rpc (x.arrange
      (s.chain.log.filter fun e => start ≤ e.blockNumber && e.blockNumber ≤ stop))
    (answer, s.query stop answer)
  | .totalSupply => (x.rpc s.chain.totalSupply, s)
  | .tokenByIndex index => (x.view (x.enumerate s.chain.liveTokenIds)[index]?, s)
  | .ownerOf tokenId => (x.view (s.chain.ownerOf tokenId), s)
  | .mine tx => s.mine x tx
  | .awaitBlock _ => ((), s)
  | .findCursor => (s.cursor, s)
  | .saveCursor block backfillComplete => ((), s.saveCursor block backfillComplete)
  | .markBackfillComplete _ => ((), s.markBackfillComplete)
  | .countLiveIndexedOwners => ((s.rows.find isCounted).length, s)
  | .countIndexedTokenRows => (s.rows.rows.length, s)
  | .writeOwner by_ tokenId wallet => ((), s.write by_ (upsertOwner tokenId wallet s.rows))
  | .writeBurn by_ tokenId => ((), s.write by_ (burnRow x.now tokenId s.rows))
  | .writeOwners entries =>
    ((), s.write .caller (entries.foldl (fun rows e => upsertOwner e.1 e.2 rows) s.rows))
  | .deleteRows tokenIds => ((), { s with rows := tokenIds.foldl Db.Table.remove s.rows })
  | .readSupplyCache => ((s.supplyCache, x.now), s)
  | .decideRescan rowCount totalMinted => s.decideRescan x.now rowCount totalMinted
  | .settleHeal heal completed =>
    ((), { s with heals := s.heals.set heal (some completed), healInFlight := none })
  | .joinHeal heal => (if s.heals[heal]? = some (some true) then .ok () else .error .rpc, s)
  | .sleep _ => ((), s)

/-- One pass runs at a time; a receipt comes with its block, and a shared rescan when it has settled. -/
def blocked (s : Store) : Cmd → Bool
  | .startPass => s.pass.isSome
  | .awaitBlock block => s.chain.head < block
  | .joinHeal heal => s.heals[heal]? = some none
  | _ => false

/-- The effect of a command when one function runs at a time; blocks are sealed at any step. -/
def exec : SerialHandler Store World Cmd Res := fun s x c => act 0 (s.seal x.sealed) x c

/-- The effect of a command of task `i` when the functions interleave. -/
def step : Handler Store World Cmd Res := fun i s x c =>
  if blocked s c then none else some (act i s x c)

abbrev M := Prog Cmd Res Failure

def perform (c : Cmd) : M (Res c) := .call c fun r => .ret (.ok r)

/-- The environment variables, as the service reads them: a chunk has at least one block. -/
structure Config where
  deployBlock : ℕ
  logChunkSize : ℕ
  logDelayMs : ℕ := 600
  logChunkSize_pos : 0 < logChunkSize

def recordOwner (by_ : Writer) (tokenId : ℕ) (owner : JsStr) : M Unit :=
  if isAddress (lower (trim owner)) then perform (.writeOwner by_ tokenId (lower (trim owner)))
  else pure ()

def recordBurn (by_ : Writer) (tokenId : ℕ) : M Unit := perform (.writeBurn by_ tokenId)

def recordTransfer (tokenId : ℕ) (to_ : JsStr) : M Unit :=
  if lower (trim to_) = zeroAddress then recordBurn .replay tokenId
  else recordOwner .replay tokenId (lower (trim to_))

def recordTransfers : List Transfer → M Unit
  | [] => pure ()
  | ev :: batch => do
    recordTransfer ev.tokenId ev.to_
    recordTransfers batch

/-- How far a pass has come. -/
structure Scan where
  start : ℕ
  transfers : ℕ := 0
  blocksProcessed : ℕ := 0
  lastProcessedBlock : ℕ

section Backfill
variable (cfg : Config)

def pause (stop latest : ℕ) : M Unit :=
  if stop < latest && 0 < cfg.logDelayMs then perform (.sleep cfg.logDelayMs) else pure ()

def Scan.after (sc : Scan) (stop : ℕ) (batch : List Transfer) : Scan where
  start := sc.start + cfg.logChunkSize
  transfers := sc.transfers + batch.length
  blocksProcessed := sc.blocksProcessed + (stop - sc.start + 1)
  lastProcessedBlock := stop

/-- The chunks of a pass; `fuel` bounds their number. -/
def scanChunks (latest maxBlocksPerRun : ℕ) (complete : Bool) : ℕ → Scan → M Scan
  | 0, sc => pure sc
  | fuel + 1, sc =>
    if latest < sc.start || maxBlocksPerRun ≤ sc.blocksProcessed then pure sc
    else do
      let stop := min (sc.start + cfg.logChunkSize - 1) latest
      let logs ← Prog.call (.queryTransferLogs sc.start stop) .ret
      recordTransfers (batchOf logs)
      perform (.saveCursor stop complete)
      pause cfg stop latest
      scanChunks latest maxBlocksPerRun complete fuel (sc.after cfg stop (batchOf logs))

/-- The block after the last one scanned, or the first of the contract. -/
def resumeAfter (cursor : Option Cursor) : ℕ :=
  match cursor.bind Cursor.lastScannedBlock with
  | some block => if cfg.deployBlock ≤ block then block + 1 else cfg.deployBlock
  | none => cfg.deployBlock

def judgeBackfill (latest : ℕ) (sc : Scan) : M Unit := do
  let totalMinted ← Prog.call .totalSupply .ret
  let liveOwners ← perform .countLiveIndexedOwners
  if (0 < totalMinted && totalMinted ≤ liveOwners) ||
      (latest ≤ sc.lastProcessedBlock && sc.transfers = 0 && liveOwners = 0 && totalMinted = 0) then
    perform (.markBackfillComplete (.counted totalMinted liveOwners))
  else pure ()

/-- The number of transfers, and the last block of the pass. -/
def backfillFromTransferLogs (maxBlocksPerRun : ℕ) : M (ℕ × ℕ) :=
  if cfg.deployBlock = 0 then pure (0, 0)
  else do
    let cursor ← perform .findCursor
    let fromBlock := max cfg.deployBlock (resumeAfter cfg cursor)
    let latest ← Prog.call .getBlockNumber .ret
    if latest < fromBlock then pure (0, latest)
    else do
      let complete := (cursor.map Cursor.backfillComplete).getD false
      let sc ← scanChunks cfg latest maxBlocksPerRun complete (latest + 1 - fromBlock)
        { start := fromBlock, lastProcessedBlock := fromBlock - 1 }
      judgeBackfill latest sc
      pure (sc.transfers, sc.lastProcessedBlock)

end Backfill

end OwnerIndex
