import Mathlib.Logic.Function.Basic
import Tokenable.Async.Expand
import Tokenable.Chain.MintTo
import Tokenable.Vault.CycleService

/-!
# Partner mint jobs

`runJob` of `PartnerVaultMintJobService` prepares the items of a job on a pool of workers that share an
index, then mints them one after the other. Any call may throw: a write that throws may have been stored
or not, and a transaction whose submission throws may have been sent or not. `mintTo` submits again when
a step of its closure throws a rate-limit error. A worker that throws rejects the pool, while the other
workers go on.
-/

namespace PartnerMint
open Js Platform Async Chain

inductive JobStatus where
  | pending | processing | completed | failed
  deriving DecidableEq

inductive ItemStatus where
  | pending | minting | succeeded | failed
  deriving DecidableEq

structure Counts where
  processedCount : ℕ := 0
  succeededCount : ℕ := 0
  failedCount : ℕ := 0
  deriving DecidableEq

structure Job where
  recipientAddress : JsStr
  partnerId : Option JsStr
  itemCount : ℕ
  status : JobStatus := .pending
  counts : Counts := {}
  errorMessage : Option JsStr := none
  deriving DecidableEq

structure Item where
  certNumber : JsStr
  status : ItemStatus := .pending
  displayName : Option JsStr := none
  tokenId : Option JsStr := none
  txHash : Option JsStr := none
  errorMessage : Option JsStr := none
  deriving DecidableEq

structure PendingItem where
  id : ℕ
  certNumber : JsStr
  deriving DecidableEq

structure PreparedPartnerMint where
  displayName : JsStr := []
  tokenURI : JsStr := []
  deriving DecidableEq

inductive JobPatch where
  | processing
  | counters (counts : Counts)
  | finish (status : JobStatus) (errorMessage : Option JsStr) (counts : Counts)
  | failed (message : JsStr)

def JobPatch.apply : JobPatch → Job → Job
  | processing, job => { job with status := .processing, errorMessage := none }
  | counters counts, job => { job with counts := counts }
  | finish status errorMessage counts, job =>
    { job with status := status, errorMessage := errorMessage, counts := counts }
  | failed message, job => { job with status := .failed, errorMessage := some message }

inductive ItemPatch where
  | minting
  | succeeded (displayName tokenId txHash : JsStr)
  | failed (message : JsStr)

def ItemPatch.status : ItemPatch → ItemStatus
  | minting => .minting
  | succeeded .. => .succeeded
  | failed _ => .failed

def ItemPatch.apply : ItemPatch → Item → Item
  | minting, item => { item with status := .minting, errorMessage := none }
  | succeeded displayName tokenId txHash, item =>
    { item with
      status := .succeeded
      displayName := some displayName
      tokenId := some tokenId
      txHash := some txHash
      errorMessage := none }
  | failed message, item => { item with status := .failed, errorMessage := some message }

/-- The calls of `mintForUser` other than `mintTo`. -/
inductive Service where
  | assertSelfVaultEligibleForUser | assertCertAvailableForSelfVault | reconcileBlockingOpenCycle
  | reserveCycleForDeposit | attachCycleForCert | getCustodyWalletAddress | normalizeFrontImage
  | normalizeBackImage | beginMintAttempt | cancelCycle | noteMintAttemptTx | getRwaAddress
  | recordMintResult | markItemCompletedForCycle | cancelPreShipPackagesForCert

inductive Cmd where
  | enter
  | leave
  | updateJob (p : JobPatch)
  | findJob
  | findUser
  | preflight
  | findPending
  | startPool (items : List PendingItem)
  | awaitPool
  | getPrepared (id : ℕ)
  | service (id : ℕ) (s : Service)
  | mint (id : ℕ) (recipient : JsStr)
  | onSubmitted (id : ℕ) (txHash : JsStr)
  | wait (id : ℕ) (txHash : JsStr)
  | recordOwner (id tokenId : ℕ) (recipient : JsStr)
  | sleep (id ms : ℕ)
  | updateItem (id : ℕ) (p : ItemPatch)
  | notify
  | take
  | prepareMintItem (id : ℕ) (certNumber : JsStr)
  | setPrepared (id : ℕ) (row : PreparedPartnerMint)
  | settle (id : ℕ)
  | reject (message : JsStr)

abbrev Res : Cmd → Type
  | .enter => Bool
  | .leave | .startPool _ | .notify | .setPrepared .. | .settle _ | .reject _ | .sleep .. => Unit
  | .updateJob _ | .findUser | .preflight | .awaitPool | .updateItem .. => Except JsStr Unit
  | .findJob => Except JsStr (Option Job)
  | .findPending => Except JsStr (List PendingItem)
  | .getPrepared _ => Option PreparedPartnerMint
  | .service .. => Except JsStr Bool
  | .mint .. => Except Thrown JsStr
  | .onSubmitted .. | .recordOwner .. => Except Thrown Unit
  | .wait .. => Except Thrown (Option Receipt)
  | .take => Option PendingItem
  | .prepareMintItem .. => Except JsStr PreparedPartnerMint

abbrev M := Prog Cmd Res JsStr

def perform (c : Cmd) : M (Res c) := .call c fun r => .ret (.ok r)

def attempt {α : Type} (p : M (Except JsStr α)) : M α := do
  let r ← p
  Prog.ret r

section Mint

def ask (item : PendingItem) (s : Service) : M Bool := attempt (perform (.service item.id s))

def callService (item : PendingItem) (s : Service) : M Unit := (ask item s).discard

def onlyIf (b : Bool) (p : M Unit) : M Unit := if b then p else pure ()

/-- `mintForUser` of a job, which skips the checks that the job has made, up to the mint. The answer
is the reference of the card, and whether a submission is linked. -/
def beforeMint (keccak : JsStr → JsStr) (item : PendingItem) (partnerId : Option JsStr)
    (row : PreparedPartnerMint) : M (JsStr × Bool) := do
  Prog.throwIf (trim row.tokenURI).isEmpty (js "tokenURI is required")
  Prog.throwIf (trim item.certNumber).isEmpty (js "certNumber is required")
  onlyIf (trim (partnerId.getD [])).isEmpty (callService item .assertSelfVaultEligibleForUser)
  callService item .assertCertAvailableForSelfVault
  let vaultRef ← Prog.ret ((Cycles.computeVaultRef keccak item.certNumber).mapError HttpError.message)
  callService item .reconcileBlockingOpenCycle
  callService item .reserveCycleForDeposit
  let linked ← ask item .attachCycleForCert
  callService item .getCustodyWalletAddress
  callService item .normalizeFrontImage
  callService item .normalizeBackImage
  callService item .beginMintAttempt
  pure (vaultRef, linked)

/-- The steps that `mintTo` takes outside the process. -/
def mintOps (id : ℕ) : MintOps Cmd Res where
  mint recipient := .call (.mint id recipient) .ret
  onSubmitted txHash := .call (.onSubmitted id txHash) .ret
  wait txHash := .call (.wait id txHash) .ret
  recordOwner tokenId recipient := .call (.recordOwner id tokenId recipient) .ret
  sleep ms := .call (.sleep id ms) fun _ => .ret (.ok ())

/-- The cycle is released when the mint throws. -/
def sendMint (item : PendingItem) (req : MintRequest) : M MintResult :=
  ((mintTo (mintOps item.id) req).mapError HttpError.message).settle (Prog.onError fun e => do
    callService item .cancelCycle
    throw e)

def afterMint (item : PendingItem) (linked : Bool) : M Unit := do
  callService item .noteMintAttemptTx
  callService item .getRwaAddress
  callService item .recordMintResult
  onlyIf linked (callService item .markItemCompletedForCycle)
  callService item .cancelPreShipPackagesForCert

def mintForUser (keccak : JsStr → JsStr) (item : PendingItem) (job : Job)
    (row : PreparedPartnerMint) : M MintResult := do
  let (vaultRef, linked) ← beforeMint keccak item job.partnerId row
  let mint ← sendMint item ⟨lower (trim job.recipientAddress), some (trim row.tokenURI), vaultRef⟩
  afterMint item linked
  pure mint

end Mint

section RunJob
variable (keccak : JsStr → JsStr)

def maxMessage : ℕ := 2000

def prepareItem (item : PendingItem) : M Unit :=
  (do
    let row ← attempt (perform (.prepareMintItem item.id item.certNumber))
    perform (.setPrepared item.id row) : M Unit).settle (Prog.onError fun e =>
      attempt (perform (.updateItem item.id (.failed (e.take maxMessage)))))

def runItem (item : PendingItem) : M Unit := do
  attempt (perform (.updateItem item.id .minting))
  prepareItem item
  perform (.settle item.id)

/-- The items that a worker takes, as many as there is fuel for. -/
def takeItems : ℕ → M Unit
  | 0 => pure ()
  | fuel + 1 => do
    let next ← perform .take
    match next with
    | none => pure ()
    | some item => do
      runItem item
      takeItems fuel

def worker (fuel : ℕ) : M Unit :=
  (takeItems fuel).settle (Prog.onError fun e => perform (.reject e))

def mapPool (items : List PendingItem) : M Unit :=
  if items.isEmpty then pure ()
  else do
    perform (.startPool items)
    attempt (perform .awaitPool)

def Counts.fail (c : Counts) : Counts := { c with failedCount := c.failedCount + 1 }

def Counts.succeed (c : Counts) : Counts := { c with succeededCount := c.succeededCount + 1 }

def Counts.process (c : Counts) : Counts := { c with processedCount := c.processedCount + 1 }

def mintPrepared (job : Job) (item : PendingItem) (row : PreparedPartnerMint) (counts : Counts) :
    M Counts :=
  (do
    let mint ← mintForUser keccak item job row
    attempt (perform (.updateItem item.id (.succeeded row.displayName (ofNat mint.tokenId) mint.txHash)))
    pure counts.succeed : M Counts).settle (Prog.onError fun e => do
      attempt (perform (.updateItem item.id (.failed (e.take maxMessage))))
      pure counts.fail)

def mintFound (job : Job) (item : PendingItem) (counts : Counts) :
    Option PreparedPartnerMint → M Counts
  | none => pure counts.fail
  | some row => mintPrepared keccak job item row counts

def mintItem (job : Job) (item : PendingItem) (counts : Counts) : M Counts := do
  let found ← perform (.getPrepared item.id)
  let counted ← mintFound keccak job item counts found
  attempt (perform (.updateJob (.counters counted.process)))
  pure counted.process

def mintItems (job : Job) : List PendingItem → Counts → M Counts
  | [], counts => pure counts
  | item :: items, counts => do
    let counts ← mintItem keccak job item counts
    mintItems job items counts

def finished (c : Counts) : JobPatch :=
  .finish (if 0 < c.succeededCount || 0 < c.failedCount then .completed else .failed)
    (if c.succeededCount = 0 && 0 < c.failedCount then some (js "All items failed") else none) c

def notifyJobFinished : M Unit := do
  let found ← attempt (perform .findJob)
  match found with
  | none => pure ()
  | some _ => perform .notify

def runItems (job : Job) : M Unit := do
  attempt (perform .findUser)
  attempt (perform .preflight)
  let items ← attempt (perform .findPending)
  mapPool items
  let counts ← mintItems keccak job items job.counts
  attempt (perform (.updateJob (finished counts)))
  notifyJobFinished

def processJob : M Unit := do
  attempt (perform (.updateJob .processing))
  let found ← attempt (perform .findJob)
  match found with
  | none => pure ()
  | some job => runItems keccak job

def failJob (message : JsStr) : M Unit := do
  attempt (perform (.updateJob (.failed message)))
  notifyJobFinished

def runJob : M Unit := do
  let inflight ← perform .enter
  if inflight then pure ()
  else ((processJob keccak).settle (Prog.onError failJob)).finallyDo (perform .leave)

end RunJob

/-- The stored rows and the variables of the job. `held` says which worker is at which item,
`joined` that the pool has ended without an error; `prepares` records what was prepared, `mints` the
transactions that mint, as they are sent, and `late` the items of which a step has thrown after
that. -/
structure State where
  job : Job
  items : ℕ → Item
  inflight : Bool := false
  queue : Option (List PendingItem) := none
  idx : ℕ := 0
  rejected : Option JsStr := none
  prepared : ℕ → Option PreparedPartnerMint := fun _ => none
  held : List (ℕ × ℕ) := []
  joined : Bool := false
  prepares : List ℕ := []
  mints : List (ℕ × JsStr) := []
  late : List ℕ := []

/-- How a call goes: what it throws, if it throws, whether it has had its effect when it throws, and
what the outside world answers. The `flag` of a submission says whether the transaction mints. -/
structure Fate where
  error : Option Thrown := none
  applied : Bool := false
  flag : Bool := false
  row : PreparedPartnerMint := {}
  txHash : JsStr := []
  receipt : Option Receipt := none

namespace State

def minted (s : State) (id : ℕ) : Bool := id ∈ s.mints.map Prod.fst

def setItem (s : State) (id : ℕ) (p : ItemPatch) : State :=
  { s with items := Function.update s.items id (p.apply (s.items id)) }

/-- The items whose status is this one, among the first `m`. -/
def count (s : State) (status : ItemStatus) (m : ℕ) : ℕ :=
  (List.range m).countP fun id => (s.items id).status = status

def pendingItems (s : State) : List PendingItem :=
  ((List.range s.job.itemCount).filter fun id => (s.items id).status = .pending).map fun id =>
    ⟨id, (s.items id).certNumber⟩

/-- Note whether a step of the item has thrown after its mint. -/
def noteLate (s : State) (thrown : Bool) (id : ℕ) : State :=
  if thrown && s.minted id then { s with late := id :: s.late } else s

def submit (s : State) (x : Fate) (id : ℕ) : State :=
  if x.flag then { s with mints := s.mints ++ [(id, x.txHash)] } else s

end State

section Exec
variable (x : Fate)

/-- `e instanceof Error ? e.message : String(e)` -/
def messageOf : Thrown → JsStr
  | .nullish text | .primitive text => text
  | .object e => e.message.getD []

def Fate.reply {α : Type} (a : α) : Except Thrown α :=
  match x.error with
  | none => .ok a
  | some e => .error e

/-- The same where only the message counts. -/
def Fate.answer {α : Type} (a : α) : Except JsStr α := (x.reply a).mapError messageOf

/-- Waiting throws, or the receipt makes the caller throw. -/
def Fate.unread : Bool := !((x.reply x.receipt).bind readReceipt).toBool

/-- The state after a call that leads from `s` to `u`. -/
def Fate.after (s u : State) : State := if x.error.isSome && !x.applied then s else u

def exec (i : ℕ) (s : State) (x : Fate) : (c : Cmd) → Option (Res c × State)
  | .enter => some (s.inflight, { s with inflight := true })
  | .leave => some ((), { s with inflight := false })
  | .updateJob p => some (x.answer (), x.after s { s with job := p.apply s.job })
  | .findJob => some (x.answer (if x.flag then none else some s.job), s)
  | .findUser => some (x.answer (), s)
  | .preflight => some (x.answer (), s)
  | .findPending => some (x.answer s.pendingItems, s)
  | .startPool items => some ((), { s with queue := some items, idx := 0 })
  | .awaitPool =>
    match s.rejected with
    | some e => some (.error e, s)
    | none =>
      if (s.queue.getD []).length ≤ s.idx ∧ s.held = [] then some (.ok (), { s with joined := true })
      else none
  | .getPrepared id => some (s.prepared id, s)
  | .service id _ => some (x.answer x.flag, s.noteLate x.error.isSome id)
  | .mint id _ => some (x.reply x.txHash, (x.after s (s.submit x id)).noteLate x.error.isSome id)
  | .onSubmitted id _ | .recordOwner id _ _ => some (x.reply (), s.noteLate x.error.isSome id)
  | .wait id _ => some (x.reply x.receipt, s.noteLate x.unread id)
  | .sleep _ _ => some ((), s)
  | .updateItem id p => some (x.answer (), (x.after s (s.setItem id p)).noteLate x.error.isSome id)
  | .notify => some ((), s)
  | .take =>
    match (s.queue.getD [])[s.idx]? with
    | none => some (none, s)
    | some item => some (some item, { s with idx := s.idx + 1, held := (i, item.id) :: s.held })
  | .prepareMintItem id _ => some (x.answer x.row, { s with prepares := id :: s.prepares })
  | .setPrepared id row => some ((), { s with prepared := Function.update s.prepared id (some row) })
  | .settle id => some ((), { s with held := s.held.erase (i, id) })
  | .reject e => some ((), { s with rejected := s.rejected.or (some e) })

end Exec

/-- A job as it is created: its items are stored, none of them touched. -/
def created (recipientAddress : JsStr) (partnerId : Option JsStr) (certNumbers : List JsStr) : State where
  job := { recipientAddress, partnerId, itemCount := certNumbers.length }
  items := fun id => { certNumber := certNumbers.getD id [] }

abbrev JobPool := Pool State Cmd Res JsStr Unit

/-- The job runs; workers of its pool may start at any time. -/
def started (keccak : JsStr → JsStr) (s : State) : JobPool := ⟨s, [runJob keccak]⟩

abbrev JobReach : JobPool → JobPool → Prop := Pool.Reach exec worker anyStep

/-- What the rows say of the job is true. -/
structure Reports (s : State) : Prop where
  preparedOnce : s.prepares.Nodup
  mintedOnce : (s.mints.map Prod.fst).Nodup
  counted : s.job.counts.processedCount = s.job.counts.succeededCount + s.job.counts.failedCount ∧
    s.job.counts.processedCount ≤ s.job.itemCount
  failed : ∀ id < s.job.itemCount, (s.items id).status = .failed → s.minted id = false
  completed : s.job.status = .completed →
    (∀ id < s.job.itemCount, (s.items id).status = .succeeded ∨ (s.items id).status = .failed) ∧
    s.job.counts.succeededCount = s.count .succeeded s.job.itemCount ∧
    s.job.counts.failedCount = s.count .failed s.job.itemCount

end PartnerMint
