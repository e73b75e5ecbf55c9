import Tokenable.Async.Serial
import Tokenable.Redeem.Request

/-!
# The writers of a vault cycle

A deposit and a paid redeem change cycles inside one transaction each; the other functions load a
row, decide on the copy and save it whole. `saveCycle` carries the copy that was loaded beside the
row to store. The unique indexes of `vault_cycles` reject a row that repeats the number of a cycle
of its asset, or that would be a second open cycle of the asset on its chain.
-/

namespace Cycles
open Js Platform Async Db Vault Redeem Backend

def isOpen (c : VaultCycle) : Bool := c.status ≠ .redeemed && c.status ≠ .cancelled

/-- Two rows that a unique index keeps apart. -/
def clash (c d : VaultCycle) : Bool :=
  d.id ≠ c.id && d.vaultAssetId = c.vaultAssetId && (d.cycleNumber = c.cycleNumber ||
    (d.chainId = c.chainId && isOpen c && isOpen d))

def rejectsCycle (t : Tables) (c : VaultCycle) : Bool := t.cycles.rows.any (clash c)

/-- `x?.trim() || null` -/
def trimmed (x : Option JsStr) : Option JsStr := (x.map trim).filter fun s => !s.isEmpty

def computeVaultRef (keccak : JsStr → JsStr) (certNumber : JsStr) : Except HttpError JsStr :=
  if (normalizeCert certNumber).isEmpty then
    .error (.badRequest (js "certNumber is required to compute vaultRef"))
  else .ok (keccak (normalizeCert certNumber))

structure DepositParams where
  certNumber : JsStr
  chainId : ℕ
  displayName : Option JsStr := none
  deriving DecidableEq

/-- What the database and the clock give the statements of a transaction, one after the other. -/
abbrev Draws := ℕ → World

section Deposit
variable (xs : Draws) (keccak : JsStr → JsStr)

def depositAsset (params : DepositParams) (cert : JsStr) (t : Tables) :
    Except HttpError (VaultAsset × Tables) :=
  match t.assetOf cert with
  | none =>
    let asset : VaultAsset := ⟨xs 0 .uuid, cert, keccak cert, trimmed params.displayName⟩
    if (Stmt.insertAsset asset).changes t then .ok (asset, { t with assets := t.assets ++ [asset] })
    else .error queryFailed
  | some asset =>
    let named := { asset with displayName := trimmed params.displayName }
    if named.displayName.isSome && !truthy asset.displayName then
      .ok (named, { t with assets := t.assets.map fun a => if a.id = asset.id then named else a })
    else .ok (asset, t)

def depositCycle (chainId : ℕ) (cert : JsStr) (asset : VaultAsset) (t : Tables) :
    Except HttpError (VaultCycle × Tables) :=
  match t.openCycleOf asset.id chainId with
  | some openCycle => .error (.conflict (js "PSA cert #" ++ cert ++
      js " already has an active vault cycle on chain " ++ ofNat chainId ++ js " (#" ++
      ofNat openCycle.cycleNumber ++ js ", status=" ++ openCycle.status.text ++ js ")."))
  | none =>
    let cycle : VaultCycle := {
      id := xs 1 .uuid
      vaultAssetId := asset.id
      chainId := chainId
      cycleNumber := (t.cycles.find fun c => c.vaultAssetId = asset.id).length + 1
      status := .depositVerified
      depositedAt := some (xs 1 .now) }
    if (t.cycles.get cycle.id).isSome || rejectsCycle t cycle then .error queryFailed
    else .ok (cycle, { t with cycles := t.cycles.save cycle })

/-- The transaction that finds or makes the asset of a card and opens a new cycle of it. -/
def reserveCycleForDeposit (params : DepositParams) (t : Tables) :
    Except HttpError ((VaultAsset × VaultCycle) × Tables) :=
  if (normalizeCert params.certNumber).isEmpty then
    .error (.badRequest (js "certNumber is required"))
  else do
    let deposit ← depositAsset xs keccak params (normalizeCert params.certNumber) t
    let opened ← depositCycle xs params.chainId (normalizeCert params.certNumber) deposit.1 deposit.2
    pure ((deposit.1, opened.1), opened.2)

end Deposit

/-- The tables of an open transaction, and whether a constraint of `vault_cycles` has failed it. -/
structure TxTables where
  tables : Tables
  failed : Bool

/-- A drawn primary key that is taken, or a row that a unique index rejects. -/
def failsTx (t : Tables) (x : World) : BackendCmd → Bool
  | .inl (.inTx (.saveCycle c)) => rejectsCycle t c
  | .inr .uuid => (t.cycles.get (x .uuid)).isSome
  | _ => false

def inTransaction (env : Env) : SerialHandler TxTables World BackendCmd BackendRes := fun s x c =>
  ((direct (schema env) x s.tables c).1,
    ⟨(direct (schema env) x s.tables c).2, s.failed || failsTx s.tables x c⟩)

/-- Run a transaction while no other one runs: nothing is stored when it throws or has failed. -/
def runTransaction {α : Type} (env : Env) (xs : Draws) (p : BackendM α) (t : Tables) :
    Except HttpError α × Tables :=
  let ended := p.playEach (inTransaction env) xs ⟨t, false⟩
  if ended.2.failed then (.error queryFailed, t)
  else
    match ended.1 with
    | .error e => (.error e, t)
    | .ok a => (.ok a, ended.2.tables)

inductive Cmd where
  | now
  | reserveCycleForDeposit (params : DepositParams)
  | createPaidRedemptionBatch (params : PaidBatch)
  | findCycle (id : JsStr)
  | findCycles (ids : List JsStr)
  | saveCycle (loaded cycle : VaultCycle)
  | findAsset (id : JsStr)
  | saveAsset (asset : VaultAsset)
  | upsertToken (row : RwaToken)
  | findToken (contract tokenId : JsStr)
  | saveToken (token : RwaToken)
  | findLatestRedemption (cycleId : JsStr) (except : List RedemptionStatus)
  | insertRedemption (row : VaultRedemption)
  | saveRedemption (row : VaultRedemption)

abbrev Res : Cmd → Type
  | .now => ℕ
  | .reserveCycleForDeposit _ => Except HttpError (VaultAsset × VaultCycle)
  | .createPaidRedemptionBatch _ => Except HttpError (List VaultRedemption)
  | .findCycle _ => Option VaultCycle
  | .findCycles _ => List VaultCycle
  | .saveCycle .. => Except HttpError Unit
  | .findAsset _ => Option VaultAsset
  | .saveAsset _ => Unit
  | .upsertToken _ => Unit
  | .findToken .. => Option RwaToken
  | .saveToken _ => Unit
  | .findLatestRedemption .. => Option VaultRedemption
  | .insertRedemption _ => Except HttpError Unit
  | .saveRedemption _ => Unit

abbrev M := Prog Cmd Res HttpError

def perform (c : Cmd) : M (Res c) := .call c fun r => .ret (.ok r)

/-- `ON CONFLICT (token_contract, token_id) DO UPDATE`: a mint keeps the burn columns, and the hash of
an earlier mint when it has none. -/
def upserted (row old : RwaToken) : RwaToken :=
  { old with
    certNumber := row.certNumber
    tokenUri := row.tokenUri
    displayName := row.displayName
    mintTxHash := row.mintTxHash.or old.mintTxHash
    vaultCycleId := row.vaultCycleId
    vaultRef := row.vaultRef
    settlementPolicy := row.settlementPolicy
    vaultPartnerId := row.vaultPartnerId
    ownerWallet := row.ownerWallet }

def upsertToken (row : RwaToken) (tokens : List RwaToken) : List RwaToken :=
  Table.upsertRows RwaToken.key row (upserted row) tokens

def latestRedemption (t : Tables) (cycleId : JsStr) (except : List RedemptionStatus) :
    Option VaultRedemption :=
  ((t.redemptions.find fun r => r.vaultCycleId = cycleId && r.status ∉ except).insertionSort
    fun a b => b.requestedAt ≤ a.requestedAt).head?

/-- A statement, or a whole transaction, at once. -/
def exec (env : Env) (keccak : JsStr → JsStr) (t : Tables) (xs : Draws) : (c : Cmd) → Res c × Tables
  | .now => (xs 0 .now, t)
  | .reserveCycleForDeposit params =>
    match reserveCycleForDeposit xs keccak params t with
    | .ok r => (.ok r.1, r.2)
    | .error e => (.error e, t)
  | .createPaidRedemptionBatch params => runTransaction env xs (createPaidRedemptionBatch params) t
  | .findCycle id => (t.cycles.get id, t)
  | .findCycles ids => (t.cycles.find fun c => c.id ∈ ids, t)
  | .saveCycle _ cycle =>
    if rejectsCycle t cycle then (.error queryFailed, t)
    else (.ok (), { t with cycles := t.cycles.save cycle })
  | .findAsset id => (t.assets.find? fun a => a.id = id, t)
  | .saveAsset asset =>
    ((), { t with assets := t.assets.map fun a => if a.id = asset.id then asset else a })
  | .upsertToken row => ((), { t with tokens := upsertToken row t.tokens })
  | .findToken contract tokenId =>
    (t.tokens.find? fun r => r.tokenContract = contract && r.tokenId = tokenId, t)
  | .saveToken token => ((), t.saveToken token)
  | .findLatestRedemption cycleId except => (latestRedemption t cycleId except, t)
  | .insertRedemption row =>
    let stored := { row with id := xs 0 .uuid, requestedAt := xs 0 .now }
    if (Stmt.insertRedemption stored).changes t then
      (.ok (), { t with redemptions := t.redemptions.save stored })
    else (.error queryFailed, t)
  | .saveRedemption row => ((), { t with redemptions := t.redemptions.save row })

def saveCycle (loaded cycle : VaultCycle) : M Unit := do
  let saved ← perform (.saveCycle loaded cycle)
  Prog.ret saved

def cycleNotFound (cycleId : JsStr) : HttpError :=
  .notFound (js "Vault cycle " ++ cycleId ++ js " not found")

def findCycleOrFail (cycleId : JsStr) : M VaultCycle := do
  let found ← perform (.findCycle cycleId)
  Prog.orThrow (cycleNotFound cycleId) found

def storedAttempt (attempt : MintAttempt) : MintAttempt where
  tokenURI := trim attempt.tokenURI
  certNumber := normalizeCert attempt.certNumber
  settlementPolicy := attempt.settlementPolicy
  vaultPartnerId :=
    if attempt.settlementPolicy = .selfVaultHold then trimmed attempt.vaultPartnerId else none
  ownerWallet := lower (trim attempt.ownerWallet)
  deliveryMode := attempt.deliveryMode
  tokenId := trimmed attempt.tokenId
  txHash := (trimmed attempt.txHash).map lower

def beginMintAttempt (cycleId : JsStr) (attempt : MintAttempt) : M Unit := do
  let cycle ← findCycleOrFail cycleId
  Prog.throwIf (cycle.status ≠ .depositVerified && cycle.status ≠ .minting)
    (.conflict (js "Vault cycle " ++ cycleId ++ js " cannot begin mint (status=" ++
      cycle.status.text ++ js ")"))
  let stored := storedAttempt attempt
  Prog.throwIf (stored.tokenURI.isEmpty || stored.certNumber.isEmpty || stored.ownerWallet.isEmpty)
    (.badRequest (js "mint attempt requires tokenURI, certNumber, and ownerWallet"))
  saveCycle cycle { cycle with status := .minting, mintAttempt := some stored }

def noteMintAttemptTx (cycleId : JsStr) (tokenId : Option JsStr) (txHash : JsStr) : M Unit := do
  let found ← perform (.findCycle cycleId)
  match found with
  | none => pure ()
  | some cycle =>
    match cycle.mintAttempt with
    | none => pure ()
    | some attempt =>
      if cycle.status ≠ .minting then pure ()
      else saveCycle cycle { cycle with mintAttempt := some { attempt with
        tokenId := if truthy tokenId then tokenId.map trim else attempt.tokenId
        txHash := some (lower (trim txHash)) } }

def cancelCycle (cycleId : JsStr) : M Unit := do
  let found ← perform (.findCycle cycleId)
  match found with
  | none => pure ()
  | some cycle =>
    if cycle.status ≠ .depositVerified && cycle.status ≠ .minting then pure ()
    else saveCycle cycle { cycle with status := .cancelled, mintAttempt := none }

structure MintResult where
  cycleId : JsStr
  tokenContract : JsStr
  tokenId : JsStr
  tokenURI : JsStr
  txHash : JsStr
  certNumber : JsStr
  displayName : Option JsStr := none
  settlementPolicy : SettlementPolicy := .standard
  vaultPartnerId : Option JsStr := none
  ownerWallet : Option JsStr := none
  deriving DecidableEq

def MintResult.token (r : MintResult) (vaultRef : JsStr) : RwaToken where
  tokenContract := r.tokenContract
  tokenId := r.tokenId
  certNumber := some (normalizeCert r.certNumber)
  tokenUri := some r.tokenURI
  displayName := trimmed r.displayName
  vaultCycleId := some r.cycleId
  vaultRef := some vaultRef
  settlementPolicy := some r.settlementPolicy
  vaultPartnerId := if r.settlementPolicy = .selfVaultHold then trimmed r.vaultPartnerId else none
  ownerWallet := (trimmed r.ownerWallet).map lower
  mintTxHash := if isTxHash (lower (trim r.txHash)) then some (lower (trim r.txHash)) else none

def nameAsset (assetId : JsStr) : Option JsStr → M Unit
  | none => pure ()
  | some displayName => do
    let found ← perform (.findAsset assetId)
    match found with
    | none => pure ()
    | some asset =>
      if (trimmed asset.displayName).isSome then pure ()
      else perform (.saveAsset { asset with displayName := some displayName })

def recordMintResult (keccak : JsStr → JsStr) (r : MintResult) : M Unit := do
  let cycle ← findCycleOrFail r.cycleId
  Prog.throwIf (cycle.status ≠ .depositVerified && cycle.status ≠ .minting && cycle.status ≠ .minted)
    (.conflict (js "Vault cycle " ++ r.cycleId ++ js " cannot record mint (status=" ++
      cycle.status.text ++ js ")"))
  saveCycle cycle { cycle with status := .minted, mintAttempt := none }
  let vaultRef ← Prog.ret (computeVaultRef keccak r.certNumber)
  nameAsset cycle.vaultAssetId (trimmed r.displayName)
  perform (.upsertToken (r.token vaultRef))

def resetCycle (cycle : VaultCycle) : M Unit :=
  if cycle.status = .redemptionRequested then saveCycle cycle { cycle with status := .minted }
  else pure ()

def resetCycles : List VaultCycle → M Unit
  | [] => pure ()
  | cycle :: cycles => do
    resetCycle cycle
    resetCycles cycles

def resetCyclesIfRefunded (rows : List VaultRedemption) : M Unit :=
  let cycleIds := ((rows.filter fun r => r.status = .refunded).map
    VaultRedemption.vaultCycleId).dedup
  if cycleIds.isEmpty then pure ()
  else do
    let cycles ← perform (.findCycles cycleIds)
    resetCycles cycles

structure BurnRecord where
  tokenContract : JsStr
  tokenId : JsStr
  burnTxHash : JsStr
  burnedByWalletAddress : Option JsStr := none
  deriving DecidableEq

def closedStatuses : List RedemptionStatus := [.completed, .failed, .cancelled, .refunded]

/-- A row whose receipt is already confirmed stays `completed`. -/
def burned (row : VaultRedemption) : VaultRedemption :=
  if row.status ≠ .completed then { row with status := .burned } else row

def burnedRow (p : BurnRecord) (cycleId : JsStr) : VaultRedemption where
  id := []
  vaultCycleId := cycleId
  ownerWalletAddress := lower (p.burnedByWalletAddress.getD [])
  requestedAt := 0
  status := .burned

def recordRedemptionBurn (p : BurnRecord) (cycleId : JsStr) : M Unit := do
  let open_ ← perform (.findLatestRedemption cycleId closedStatuses)
  match open_ with
  | some row => perform (.saveRedemption (burned row))
  | none => do
    let completed ← perform (.findLatestRedemption cycleId [.failed, .cancelled, .refunded])
    match completed with
    | some row => perform (.saveRedemption (burned row))
    | none => do
      let inserted ← perform (.insertRedemption (burnedRow p cycleId))
      Prog.ret inserted

def recordCycleBurn (p : BurnRecord) (cycleId : JsStr) (at_ : ℕ) : M Unit := do
  let found ← perform (.findCycle cycleId)
  match found with
  | none => pure ()
  | some cycle => do
    saveCycle cycle { cycle with status := .redeemed, redeemedAt := some at_ }
    recordRedemptionBurn p cycle.id

def completeRedemptionBurn (p : BurnRecord) : M Unit := do
  let found ← perform (.findToken p.tokenContract p.tokenId)
  match found with
  | none => pure ()
  | some token => do
    let at_ ← perform .now
    perform (.saveToken { token with
      burnedAt := some at_
      burnTxHash := some p.burnTxHash
      ownerWallet := none })
    match token.vaultCycleId with
    | none => pure ()
    | some cycleId => recordCycleBurn p cycleId at_

end Cycles
