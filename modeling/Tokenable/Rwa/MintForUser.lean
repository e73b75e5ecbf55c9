import Tokenable.Async.Expand
import Tokenable.Chain.MintTo
import Tokenable.Vault.CycleService

/-!
# The mint of a card, and its recovery

`RwaMintService.mintForUser` reserves a vault cycle of the card, stores what it is about to mint on
the cycle, mints, and writes the registry. `VaultMintRecoveryService` goes over the cycles that are
left `minting`, now and then and before another mint of the same card. Any statement or call may
fail, before or after it has had its effect; a process that has died takes no further step.

`reserved`, `sent` and `mined` list the requests with the cycles reserved for them, the mint
transactions that were broadcast for a cycle and the receipts that were read.
-/

namespace UserMint
open Js Platform Async Chain Vault Backend

/-- A call of `mintForUser`. -/
structure Request where
  userId : JsStr
  chainId : ℕ
  recipientAddress : JsStr
  tokenURI : JsStr
  certNumber : JsStr
  deliveryMode : DeliveryMode := .custody
  displayName : Option JsStr := none
  jobPreflightDone : Bool := false
  /-- Of the options, when the preflight is done. -/
  vaultPartnerId : Option JsStr := none
  deriving DecidableEq

structure MintRwaResult where
  tokenId : ℕ
  tokenURI : JsStr
  vaultRef : JsStr
  txHash : JsStr
  chainId : ℕ
  custodyWallet : JsStr
  mintedTo : JsStr
  intendedRecipient : JsStr
  deliveryMode : DeliveryMode
  deriving DecidableEq

structure Config where
  env : Env
  keccak : JsStr → JsStr
  /-- `getCustodyWalletAddress`: of the environment, or of the custody key. -/
  custodyWallet : Except Thrown JsStr

/-- The chains whose RPC and RWA contract are configured, or else the default chain. -/
def listConfiguredChainIds (env : Env) : List ℕ :=
  let configured := supportedChainIds.filter fun id => (env.getRwaAddress id).toBool
  if configured.isEmpty then [env.getDefaultChainId] else configured

namespace Request

def recipient (req : Request) : JsStr := lower (trim req.recipientAddress)

def cert (req : Request) : JsStr := trim req.certNumber

def shownName (req : Request) : JsStr :=
  let name := trim (req.displayName.getD [])
  if name.isEmpty then js "PSA #" ++ req.cert else name

def settlementPolicy (req : Request) : SettlementPolicy :=
  if req.deliveryMode = .direct then .selfVaultHold else .standard

def mintToAddress (custodyWallet : JsStr) (req : Request) : JsStr :=
  if req.deliveryMode = .direct then req.recipient else custodyWallet

def deposit (req : Request) : Cycles.DepositParams := ⟨req.cert, req.chainId, some req.shownName⟩

end Request

section Statements

inductive Cmd where
  /-- A statement or transaction of the vault service. -/
  | table (c : Cycles.Cmd)
  | reserve (req : Request)
  | findAssetByCert (certNumber : JsStr)
  | findOpenCycle (assetId : JsStr) (chainId : ℕ)
  | findMinting (limit : ℕ)
  | findAssets (ids : List JsStr)
  /-- `Date.now()` less `updated_at` of a cycle. -/
  | age (cycleId : JsStr)
  | listWalletsForUser (userId : JsStr)
  | assertSelfVaultEligible (userId : JsStr)
  | assertCertAvailableForSelfVault (certNumber : JsStr) (chainId : ℕ)
  | attachCycleForCert (userId certNumber cycleId : JsStr) (chainId : ℕ)
  | markItemCompletedForCycle (cycleId : JsStr)
  | cancelPreShipPackagesForCert (certNumber : JsStr) (chainId : ℕ)
  | mint (cycleId : JsStr) (chainId : ℕ) (recipient : JsStr)
  | wait (chainId : ℕ) (txHash : JsStr)
  | recordOwner (tokenId : ℕ) (recipient : JsStr)
  | sleep (ms : ℕ)
  | getTransactionReceipt (chainId : ℕ) (txHash : JsStr)
  | getRwaTokenURI (chainId tokenId : ℕ)
  | getRwaTokenOwner (chainId tokenId : ℕ)

/-- A cycle as recovery reads it, with the display name of its attempt. -/
abbrev Shown := VaultCycle × Option JsStr

abbrev Value : Cmd → Type
  | .table c => Cycles.Res c
  | .reserve _ => Except HttpError (VaultAsset × VaultCycle)
  | .findAssetByCert _ => Option VaultAsset
  | .findOpenCycle .. => Option Shown
  | .findMinting _ => List Shown
  | .findAssets _ => List VaultAsset
  | .age _ => ℤ
  | .listWalletsForUser _ => List JsStr
  | .assertSelfVaultEligible _ => JsStr
  | .assertCertAvailableForSelfVault .. => Unit
  | .attachCycleForCert .. => Bool
  | .markItemCompletedForCycle _ => Unit
  | .cancelPreShipPackagesForCert .. => Unit
  | .mint .. => JsStr
  | .wait .. => Option Receipt
  | .recordOwner .. => Unit
  | .sleep _ => Unit
  | .getTransactionReceipt .. => Option Receipt
  | .getRwaTokenURI .. => JsStr
  | .getRwaTokenOwner .. => JsStr

abbrev Res (c : Cmd) : Type := Except Thrown (Value c)

structure Reserved where
  cycleId : JsStr
  request : Request
  deriving DecidableEq

structure Sent where
  cycleId : JsStr
  chainId : ℕ
  recipient : JsStr
  txHash : JsStr
  deriving DecidableEq

structure Mined where
  chainId : ℕ
  txHash : JsStr
  receipt : Option Receipt
  deriving DecidableEq

def emptyTables : Tables where
  orders := Db.Table.empty
  tokens := []
  holdings := []
  settlements := []
  assets := []
  cycles := Db.Table.empty
  claims := Db.Table.empty
  redemptions := Db.Table.empty

structure Store where
  tables : Tables := emptyTables
  reserved : List Reserved := []
  sent : List Sent := []
  mined : List Mined := []

/-- What becomes of a statement or a call: `unseen` has had its effect, and the caller sees an
error. -/
inductive Fate where
  | done
  | failed (e : Thrown)
  | unseen (e : Thrown)

/-- What the world outside decides at a step. -/
structure Answer where
  fate : Fate := .done
  draws : Cycles.Draws := fun _ => idleWorld
  /-- The display name on the attempt of a cycle, and the time of its last change. -/
  shown : JsStr → Option JsStr := fun _ => none
  updatedAt : JsStr → ℕ := fun _ => 0
  age : ℤ := 0
  wallets : List JsStr := []
  linked : Bool := false
  text : JsStr := []
  receipt : Option Receipt := none

def withName (x : Answer) (c : VaultCycle) : Shown := (c, x.shown c.id)

/-- The `minting` cycles that have waited longest. -/
def minting (x : Answer) (limit : ℕ) (t : Tables) : List VaultCycle :=
  ((t.cycles.find fun c => c.status = .minting).insertionSort fun a b =>
    x.updatedAt a.id ≤ x.updatedAt b.id).take limit

variable (cfg : Config)

/-- A reservation that the database accepts is noted with its request. -/
def reserve (s : Store) (x : Answer) (req : Request) :
    Except HttpError (VaultAsset × VaultCycle) × Store :=
  match Cycles.reserveCycleForDeposit x.draws cfg.keccak req.deposit s.tables with
  | .ok r => (.ok r.1, { s with tables := r.2, reserved := s.reserved ++ [⟨r.1.2.id, req⟩] })
  | .error e => (.error e, s)

def run (s : Store) (x : Answer) : (c : Cmd) → Res c × Store
  | .table c =>
    let ended := Cycles.exec cfg.env cfg.keccak s.tables x.draws c
    (.ok ended.1, { s with tables := ended.2 })
  | .reserve req => (.ok (reserve cfg s x req).1, (reserve cfg s x req).2)
  | .findAssetByCert certNumber => (.ok (s.tables.assetOf certNumber), s)
  | .findOpenCycle assetId chainId =>
    (.ok ((s.tables.openCycleOf assetId chainId).map (withName x)), s)
  | .findMinting limit => (.ok ((minting x limit s.tables).map (withName x)), s)
  | .findAssets ids => (.ok (s.tables.assets.filter fun a => a.id ∈ ids), s)
  | .age _ => (.ok x.age, s)
  | .listWalletsForUser _ => (.ok x.wallets, s)
  | .assertSelfVaultEligible _ => (.ok x.text, s)
  | .assertCertAvailableForSelfVault .. => (.ok (), s)
  | .attachCycleForCert .. => (.ok x.linked, s)
  | .markItemCompletedForCycle _ => (.ok (), s)
  | .cancelPreShipPackagesForCert .. => (.ok (), s)
  | .mint cycleId chainId recipient =>
    (.ok x.text, { s with sent := s.sent ++ [⟨cycleId, chainId, recipient, x.text⟩] })
  | .wait chainId txHash | .getTransactionReceipt chainId txHash =>
    (.ok x.receipt, { s with mined := s.mined ++ [⟨chainId, txHash, x.receipt⟩] })
  | .recordOwner .. => (.ok (), s)
  | .sleep _ => (.ok (), s)
  | .getRwaTokenURI .. | .getRwaTokenOwner .. => (.ok x.text, s)

def exec : Handler Store Answer Cmd Res := fun _ s x c =>
  match x.fate with
  | .done => some (run cfg s x c)
  | .failed e => some (.error e, s)
  | .unseen e => some (.error e, (run cfg s x c).2)

end Statements

abbrev M := Prog Cmd Res Thrown

def perform (c : Cmd) : M (Value c) := .call c .ret

def throwHttp {α : Type} (e : HttpError) : M α := .ret (.error (.ofHttp e))

/-- A function of the vault service, whose statements may now fail. -/
def tables {α : Type} (p : Cycles.M α) : M α :=
  (p.mapError Thrown.ofHttp).expand fun c => perform (.table c)

theorem tables_bind {α β : Type} (p : Cycles.M α) (f : α → Cycles.M β) :
    tables (p >>= f) = tables p >>= fun a => tables (f a) := by
  rw [tables, Prog.mapError_bind, Prog.expand_bind]
  rfl

theorem tables_perform (c : Cycles.Cmd) : tables (Cycles.perform c) = perform (.table c) := by
  change Prog.call (Cmd.table c) _ = Prog.call (Cmd.table c) _
  congr 1
  funext r
  cases r <;> rfl

theorem tables_throwIf (b : Bool) (e : HttpError) :
    tables (Prog.throwIf b e) = Prog.throwIf b (.ofHttp e) := by
  cases b <;> rfl

section Recovery
variable (cfg : Config)

def staleNoChainMs : ℤ := 30 * 60000

def interactiveMintingStaleMs : ℤ := 90000

def interactiveDepositStaleMs : ℤ := 2 * 60000

def getMintedTokenIdFromTx (txHash : JsStr) (chainId : ℕ) : M ℕ := do
  let hash := trim txHash
  if !isTxHash hash then pure 0
  else do
    let receipt ← perform (.getTransactionReceipt chainId hash)
    pure ((receipt.bind fun r => (parseMintedTokenIds r.logs).head?).getD 0)

inductive Outcome where
  | healed | cancelled | skip
  deriving DecidableEq

/-- The token of an attempt: the one that it notes, or the one that its transaction minted. -/
def tokenOf (chainId : ℕ) (attempt : MintAttempt) : M ℕ :=
  let noted := (attempt.tokenId.bind toNumber).getD 0
  if noted = 0 && truthy attempt.txHash then
    getMintedTokenIdFromTx (attempt.txHash.getD []) chainId
  else pure noted

def uriOf (chainId tokenId : ℕ) (attempt : MintAttempt) : M JsStr :=
  if (trim attempt.tokenURI).isEmpty then perform (.getRwaTokenURI chainId tokenId)
  else pure (trim attempt.tokenURI)

def ownerOf (chainId tokenId : ℕ) (attempt : MintAttempt) : M JsStr :=
  if (lower (trim attempt.ownerWallet)).isEmpty then perform (.getRwaTokenOwner chainId tokenId)
  else pure (lower (trim attempt.ownerWallet))

/-- `txHash?.trim() || 'recovery:…'` -/
def hashOrRecovery (cycleId : JsStr) (txHash : Option JsStr) : JsStr :=
  let hash := trim (txHash.getD [])
  if hash.isEmpty then js "recovery:" ++ cycleId else hash

def healOne (cycle : VaultCycle) (attempt : MintAttempt) (shown : Option JsStr) : M Outcome := do
  if cycle.chainId ∉ listConfiguredChainIds cfg.env then pure .skip
  else do
    let tokenId ← tokenOf cycle.chainId attempt
    if tokenId = 0 then do
      let age ← perform (.age cycle.id)
      if staleNoChainMs ≤ age then do
        tables (Cycles.cancelCycle cycle.id)
        pure .cancelled
      else pure .skip
    else do
      let tokenURI ← uriOf cycle.chainId tokenId attempt
      let ownerWallet ← ownerOf cycle.chainId tokenId attempt
      let contract ← Prog.ret ((cfg.env.getRwaAddress cycle.chainId).mapError Thrown.ofHttp)
      tables (Cycles.recordMintResult cfg.keccak {
        cycleId := cycle.id
        tokenContract := contract
        tokenId := ofNat tokenId
        tokenURI := tokenURI
        txHash := hashOrRecovery cycle.id attempt.txHash
        certNumber := attempt.certNumber
        displayName := shown
        settlementPolicy := attempt.settlementPolicy
        vaultPartnerId := attempt.vaultPartnerId
        ownerWallet := some ownerWallet })
      pure .healed

def findOpenVaultCycleWithAsset (certNumber : JsStr) (chainId : ℕ) : M (Option Shown) := do
  let normalized := normalizeCert certNumber
  if normalized.isEmpty then pure none
  else do
    let asset ← perform (.findAssetByCert normalized)
    match asset with
    | none => pure none
    | some asset => perform (.findOpenCycle asset.id chainId)

def usable (cycle : VaultCycle) : Option MintAttempt :=
  cycle.mintAttempt.filter fun a => !a.tokenURI.isEmpty && !a.certNumber.isEmpty

def healIfUsable (cycle : VaultCycle) (shown : Option JsStr) : M Outcome :=
  match usable cycle with
  | some attempt => healOne cfg cycle attempt shown
  | none => pure .skip

def isUnsubmitted (cycle : VaultCycle) : Bool :=
  !truthy ((cycle.mintAttempt.bind MintAttempt.txHash).map trim) &&
    !truthy ((cycle.mintAttempt.bind MintAttempt.tokenId).map trim)

def reconcileMinting (cycle : VaultCycle) (shown : Option JsStr) (age : ℤ) : M Bool := do
  let outcome ← healIfUsable cfg cycle shown
  if outcome ≠ .skip then pure true
  else if isUnsubmitted cycle && decide (interactiveMintingStaleMs ≤ age) then do
    tables (Cycles.cancelCycle cycle.id)
    pure true
  else pure false

def reconcileBlockingOpenCycle (certNumber : JsStr) (chainId : ℕ) : M Bool := do
  let row ← findOpenVaultCycleWithAsset certNumber chainId
  match row with
  | none => pure false
  | some (cycle, shown) => do
    let age ← perform (.age cycle.id)
    if cycle.status = .depositVerified then
      if age < interactiveDepositStaleMs then pure false
      else do
        tables (Cycles.cancelCycle cycle.id)
        pure true
    else if cycle.status ≠ .minting then pure false
    else reconcileMinting cfg cycle shown age

def recoverable (assets : List VaultAsset) (rows : List Shown) : List (Shown × MintAttempt) :=
  rows.filterMap fun row => ((usable row.1).filter fun _ =>
    assets.any fun a => a.id = row.1.vaultAssetId).map fun attempt => (row, attempt)

def listMintingCyclesForRecovery (limit : ℕ) : M (List (Shown × MintAttempt)) := do
  let rows ← perform (.findMinting (min (max limit 1) 200))
  if rows.isEmpty then pure []
  else do
    let assets ← perform (.findAssets (rows.map fun row => row.1.vaultAssetId))
    pure (recoverable assets rows)

structure Counts where
  healed : ℕ := 0
  cancelled : ℕ := 0
  deriving DecidableEq

def Counts.add (n : Counts) : Outcome → Counts
  | .healed => { n with healed := n.healed + 1 }
  | .cancelled => { n with cancelled := n.cancelled + 1 }
  | .skip => n

/-- The loop of a pass: an error is logged, and the next cycle is taken. -/
def recoverEach : List (Shown × MintAttempt) → Counts → M Counts
  | [], n => pure n
  | (row, attempt) :: rows, n =>
    (healOne cfg row.1 attempt row.2).settle fun
      | .ok outcome => recoverEach rows (n.add outcome)
      | .error _ => recoverEach rows n

def recoverPass : M Counts := do
  let rows ← listMintingCyclesForRecovery 50
  recoverEach cfg rows {}

end Recovery

section Service
variable (cfg : Config)

def requireLinked (req : Request) : M Unit :=
  if req.jobPreflightDone then pure ()
  else do
    let wallets ← perform (.listWalletsForUser req.userId)
    Prog.throwIf (!wallets.any fun w => lower (trim w) = req.recipient)
      (.ofHttp (.forbidden (js "Recipient wallet must be linked to your Tokenable account")))

/-- The partner of a direct mint, of a card that may be minted so. -/
def partnerOf (req : Request) : M (Option JsStr) :=
  if req.deliveryMode = .custody then pure none
  else do
    let partnerId ←
      if req.jobPreflightDone && truthy (req.vaultPartnerId.map trim) then
        pure (trim (req.vaultPartnerId.getD []))
      else perform (.assertSelfVaultEligible req.userId)
    perform (.assertCertAvailableForSelfVault req.cert req.chainId)
    pure (some partnerId)

def reserveCycleForDeposit (req : Request) : M (VaultAsset × VaultCycle) := do
  let reserved ← perform (.reserve req)
  Prog.ret (reserved.mapError Thrown.ofHttp)

/-- What is stored on the cycle before the mint. -/
def attemptOf (req : Request) (partnerId : Option JsStr) (mintToAddress : JsStr) :
    MintAttempt where
  tokenURI := trim req.tokenURI
  certNumber := req.cert
  settlementPolicy := req.settlementPolicy
  vaultPartnerId := partnerId
  ownerWallet := mintToAddress
  deliveryMode := req.deliveryMode

/-- The steps that `mintTo` takes outside the process. -/
def mintOps (cycleId : JsStr) (chainId : ℕ) : MintOps Cmd Res where
  mint recipient := perform (.mint cycleId chainId recipient)
  onSubmitted txHash := tables (Cycles.noteMintAttemptTx cycleId none txHash)
  wait txHash := perform (.wait chainId txHash)
  recordOwner tokenId recipient := perform (.recordOwner tokenId recipient)
  sleep ms := perform (.sleep ms)

/-- The mint, after whose failure the cycle is released. -/
def mintOrCancel (cycleId : JsStr) (chainId : ℕ) (req : MintRequest) : M MintResult :=
  (mintTo (mintOps cycleId chainId) req).settle fun
    | .ok minted => pure minted
    | .error e => do
      tables (Cycles.cancelCycle cycleId)
      throwHttp e

/-- What follows the mint. -/
def record (req : Request) (cycleId mintToAddress : JsStr) (partnerId : Option JsStr)
    (minted : MintResult) : M Unit := do
  tables (Cycles.noteMintAttemptTx cycleId (some (ofNat minted.tokenId)) minted.txHash)
  let contract ← Prog.ret ((cfg.env.getRwaAddress req.chainId).mapError Thrown.ofHttp)
  tables (Cycles.recordMintResult cfg.keccak {
    cycleId := cycleId
    tokenContract := contract
    tokenId := ofNat minted.tokenId
    tokenURI := trim req.tokenURI
    txHash := minted.txHash
    certNumber := req.cert
    displayName := some req.shownName
    settlementPolicy := req.settlementPolicy
    vaultPartnerId := partnerId
    ownerWallet := some mintToAddress })

def onlyIf (b : Bool) (p : M Unit) : M Unit := if b then p else pure ()

def mintReserved (req : Request) (partnerId : Option JsStr) (vaultRef cycleId : JsStr) :
    M MintRwaResult := do
  let submissionLinked ← perform (.attachCycleForCert req.userId req.cert cycleId req.chainId)
  let custodyWallet ← Prog.ret cfg.custodyWallet
  let mintToAddress := req.mintToAddress custodyWallet
  tables (Cycles.beginMintAttempt cycleId (attemptOf req partnerId mintToAddress))
  let minted ← mintOrCancel cycleId req.chainId ⟨mintToAddress, some (trim req.tokenURI), vaultRef⟩
  record cfg req cycleId mintToAddress partnerId minted
  onlyIf submissionLinked (perform (.markItemCompletedForCycle cycleId))
  onlyIf (req.deliveryMode = .direct) (perform (.cancelPreShipPackagesForCert req.cert req.chainId))
  pure {
    tokenId := minted.tokenId
    tokenURI := trim req.tokenURI
    vaultRef := vaultRef
    txHash := minted.txHash
    chainId := req.chainId
    custodyWallet := custodyWallet
    mintedTo := mintToAddress
    intendedRecipient := req.recipient
    deliveryMode := req.deliveryMode }

def mintForUser (req : Request) : M MintRwaResult := do
  requireLinked req
  Prog.throwIf (trim req.tokenURI).isEmpty (.ofHttp (.badRequest (js "tokenURI is required")))
  Prog.throwIf req.cert.isEmpty (.ofHttp (.badRequest (js "certNumber is required")))
  let partnerId ← partnerOf req
  let vaultRef ← Prog.ret ((Cycles.computeVaultRef cfg.keccak req.cert).mapError Thrown.ofHttp)
  let _ ← reconcileBlockingOpenCycle cfg req.cert req.chainId
  let reserved ← reserveCycleForDeposit req
  mintReserved cfg req partnerId vaultRef reserved.2.id

inductive Call where
  | mintForUser (req : Request)
  | recoverPass
  | reconcileBlockingOpenCycle (certNumber : JsStr) (chainId : ℕ)

inductive Returned where
  | minted (req : Request) (result : MintRwaResult)
  | recovered (n : Counts)
  | reconciled (cleared : Bool)
  deriving DecidableEq

def Call.task : Call → M Returned
  | .mintForUser req => do
    let result ← UserMint.mintForUser cfg req
    pure (.minted req result)
  | .recoverPass => do
    let n ← UserMint.recoverPass cfg
    pure (.recovered n)
  | .reconcileBlockingOpenCycle certNumber chainId => do
    let cleared ← UserMint.reconcileBlockingOpenCycle cfg certNumber chainId
    pure (.reconciled cleared)

end Service

end UserMint
