import Tokenable.Async.Recollect
import Tokenable.Chain.MintRules
import Tokenable.Vault.Entities

/-!
# Sealed-box mints of partners

`SealedBoxMintService.mintForPartner`. A request of a user has one row, found by the user and the id
that the client chose. The row is saved at each step of the mint, and a call that finds a mint
transaction on it sends no other. A save selects the row and then updates the columns in which the
saved one differs. Any statement or call may fail, before or after it has had its effect; a process
that has died takes no further step.

`sent`, `mined` and `pinned` list the mint transactions that were broadcast, the receipts that were
read and the metadata that was pinned, each with the row that it was for.
-/

namespace SealedBox
open Js Platform Async Chain

inductive MintStatus where
  | pending | minting | minted | failed
  deriving DecidableEq

structure SealedBoxMint where
  id : JsStr
  userId : JsStr
  partnerId : JsStr
  chainId : ℕ
  pricechartingProductId : JsStr
  productName : JsStr
  consoleName : JsStr
  upc : Option JsStr
  clientRequestId : JsStr
  status : MintStatus := .pending
  photoObjectKey : Option JsStr := none
  displayImageUrl : Option JsStr := none
  tokenUri : Option JsStr := none
  vaultRef : Option JsStr := none
  tokenContract : Option JsStr := none
  tokenId : Option JsStr := none
  mintTxHash : Option JsStr := none
  recipientAddress : JsStr
  errorMessage : Option JsStr := none
  deriving DecidableEq

abbrev MintTable := Db.Table SealedBoxMint JsStr SealedBoxMint.id

/-- A row of `pricecharting_products`. -/
structure ProductRow where
  id : JsStr
  productName : Option JsStr
  consoleName : Option JsStr
  upc : Option JsStr
  coverImageUrl : Option JsStr

structure CatalogProduct where
  id : JsStr
  productName : JsStr
  consoleName : JsStr
  upc : Option JsStr
  coverImageUrl : Option JsStr

structure MintImage where
  buffer : List UInt8
  mimetype : JsStr

structure LinkedWallet where
  walletAddress : JsStr
  isPrimary : Bool

structure RwaMetadata where
  name : JsStr
  description : JsStr
  image : JsStr
  attributes : List (JsStr × JsStr)
  assetKind : JsStr
  pricechartingProductId : JsStr
  productName : JsStr
  consoleName : JsStr
  upc : Option JsStr
  deriving DecidableEq

/-- A call of `mintForPartner`. -/
structure Request where
  userId : JsStr
  chainId : ℕ
  pricechartingProductId : JsStr
  clientRequestId : JsStr
  recipientAddress : Option JsStr := none
  file : Option MintImage := none

structure SealedBoxMintResult where
  id : JsStr
  tokenId : JsStr
  tokenURI : JsStr
  displayImageUrl : JsStr
  txHash : JsStr
  chainId : ℕ
  productName : JsStr
  deriving DecidableEq

structure Config where
  env : Env
  keccak : JsStr → JsStr
  pinataGateway : JsStr
  /-- `new URL(url).protocol`, `none` where it throws. -/
  protocol : JsStr → Option JsStr

def sealedBoxVaultRef (cfg : Config) (boxId : JsStr) : JsStr :=
  cfg.keccak (js "sealed-box:" ++ boxId)

def dropStart (start s : JsStr) : JsStr := if start.isPrefixOf s then s.drop start.length else s

def metadataCidFromTokenUri (uri : JsStr) : Option JsStr :=
  let rest := dropStart (js "ipfs/") (dropStart (js "ipfs://") (trim uri))
  let cid := trim (rest.takeWhile (· ≠ '/'))
  if cid.isEmpty then none else some cid

def imageExt (mime : JsStr) : JsStr :=
  if mime = js "image/png" then js "png" else if mime = js "image/webp" then js "webp" else js "jpg"

/-- A `QueryFailedError` has the code of the driver's error. -/
def isUniqueViolation : Thrown → Bool
  | .object e => e.code = some (.text (js "23505"))
  | _ => false

def exceptionText : Thrown → JsStr
  | .nullish text | .primitive text => text
  | .object e =>
    match e.http with
    | some h => h.message
    | none => e.message.getD []

def sealedBoxStorageHttpException (err : Thrown) : Option HttpError :=
  let msg := exceptionText err
  if msg = js "CATALOG_COVER_S3_NOT_CONFIGURED" then
    some (.unavailable (js "Catalog cover S3 is not configured"))
  else if msg = js "CATALOG_COVER_FILE_TOO_LARGE" then
    some (.badRequest (js "Image is too large after processing"))
  else if msg = js "CATALOG_COVER_FILE_TYPE_INVALID" then
    some (.badRequest (js "Image must be JPEG, PNG, or WebP"))
  else if msg = js "CATALOG_COVER_FILE_EMPTY" then some (.badRequest (js "Invalid image upload"))
  else none

section Statements

inductive Cmd where
  | findProduct (id : JsStr)
  | findMint (userId clientRequestId : JsStr)
  | assertSelfVaultEligible (userId : JsStr)
  | listWalletsForUser (userId : JsStr)
  | preflight (userId recipient : JsStr) (chainId : ℕ)
  | create (row : SealedBoxMint)
  | select (row : SealedBoxMint)
  | write (loaded : Option SealedBoxMint) (row : SealedBoxMint)
  | fetchImage (url : JsStr)
  | ingestBoxPhoto (chainId : ℕ) (boxId : JsStr) (image : MintImage)
  | uploadBuffer (image : MintImage) (filename mimetype : JsStr)
  | uploadMetadata (boxId : JsStr) (metadata : RwaMetadata)
  | mint (boxId recipient : JsStr)
  | wait (boxId txHash : JsStr)
  | recordOwner (tokenId : ℕ) (recipient : JsStr)
  | sleep (ms : ℕ)
  | upsertToken (values : Vault.RwaToken)

abbrev Value : Cmd → Type
  | .findProduct _ => Option ProductRow
  | .findMint .. => Option SealedBoxMint
  | .assertSelfVaultEligible _ => JsStr
  | .listWalletsForUser _ => List LinkedWallet
  | .preflight .. => Unit
  | .create _ => SealedBoxMint
  | .select _ => Option SealedBoxMint
  | .write .. => Unit
  | .fetchImage _ => MintImage
  | .ingestBoxPhoto .. => JsStr × JsStr
  | .uploadBuffer .. => JsStr
  | .uploadMetadata .. => JsStr
  | .mint .. => JsStr
  | .wait .. => Option Receipt
  | .recordOwner .. => Unit
  | .sleep _ => Unit
  | .upsertToken _ => Unit

abbrev Res (c : Cmd) : Type := Except Thrown (Value c)

structure Sent where
  box : JsStr
  recipient : JsStr
  txHash : JsStr
  deriving DecidableEq

structure Mined where
  box : JsStr
  txHash : JsStr
  receipt : Option Receipt
  deriving DecidableEq

structure Pinned where
  box : JsStr
  metadata : RwaMetadata
  cid : JsStr
  deriving DecidableEq

structure Store where
  mints : MintTable := Db.Table.empty
  tokens : Vault.TokenTable := Db.Table.empty
  sent : List Sent := []
  mined : List Mined := []
  pinned : List Pinned := []

/-- What becomes of a statement or a call: `unseen` has had its effect, and the caller sees an
error. -/
inductive Fate where
  | done
  | failed (e : Thrown)
  | unseen (e : Thrown)

/-- What the world outside decides at a step. -/
structure Answer where
  fate : Fate := .done
  product : Option ProductRow := none
  partnerId : JsStr := []
  wallets : List LinkedWallet := []
  image : MintImage := ⟨[], []⟩
  photo : JsStr × JsStr := ([], [])
  /-- A new id, a content id or the hash of a transaction. -/
  text : JsStr := []
  receipt : Option Receipt := none

def ofRequest (s : Store) (userId clientRequestId : JsStr) : Option SealedBoxMint :=
  (s.mints.find fun r => r.userId = userId && r.clientRequestId = clientRequestId).head?

def uniqueViolation : Thrown := .object
  { code := some (.text (js "23505"))
    message := some (js "duplicate key value violates unique constraint") }

/-- A column of the stored row, after the update by a save that has loaded `old`. -/
def column {α : Type} [DecidableEq α] (old new stored : α) : α := if new = old then stored else new

/-- An update of the columns in which the saved row differs from the loaded one. -/
def SealedBoxMint.merge (old new stored : SealedBoxMint) : SealedBoxMint where
  id := stored.id
  userId := column old.userId new.userId stored.userId
  partnerId := column old.partnerId new.partnerId stored.partnerId
  chainId := column old.chainId new.chainId stored.chainId
  pricechartingProductId :=
    column old.pricechartingProductId new.pricechartingProductId stored.pricechartingProductId
  productName := column old.productName new.productName stored.productName
  consoleName := column old.consoleName new.consoleName stored.consoleName
  upc := column old.upc new.upc stored.upc
  clientRequestId := column old.clientRequestId new.clientRequestId stored.clientRequestId
  status := column old.status new.status stored.status
  photoObjectKey := column old.photoObjectKey new.photoObjectKey stored.photoObjectKey
  displayImageUrl := column old.displayImageUrl new.displayImageUrl stored.displayImageUrl
  tokenUri := column old.tokenUri new.tokenUri stored.tokenUri
  vaultRef := column old.vaultRef new.vaultRef stored.vaultRef
  tokenContract := column old.tokenContract new.tokenContract stored.tokenContract
  tokenId := column old.tokenId new.tokenId stored.tokenId
  mintTxHash := column old.mintTxHash new.mintTxHash stored.mintTxHash
  recipientAddress := column old.recipientAddress new.recipientAddress stored.recipientAddress
  errorMessage := column old.errorMessage new.errorMessage stored.errorMessage

/-- The second statement of a save: an insert where the first has found no row. -/
def write (s : Store) (loaded : Option SealedBoxMint) (row : SealedBoxMint) :
    Except Thrown Unit × Store :=
  match loaded, s.mints.get row.id with
  | none, none => (.ok (), { s with mints := s.mints.save row })
  | none, some _ => (.error uniqueViolation, s)
  | some _, none => (.ok (), s)
  | some old, some stored => (.ok (), { s with mints := s.mints.save (old.merge row stored) })

/-- The row after `ON CONFLICT (token_contract, token_id) DO UPDATE`. -/
def updated (old values : Vault.RwaToken) : Vault.RwaToken :=
  { old with
    tokenUri := values.tokenUri
    metadataCid := values.metadataCid
    displayName := values.displayName
    vaultRef := values.vaultRef
    settlementPolicy := values.settlementPolicy
    vaultPartnerId := values.vaultPartnerId
    ownerWallet := values.ownerWallet
    mintTxHash := values.mintTxHash.or old.mintTxHash }

def upsertToken (tokens : Vault.TokenTable) (values : Vault.RwaToken) : Vault.TokenTable :=
  tokens.upsert values (updated · values) fun _ hkey => hkey

/-- The id of a new row is drawn anew until no row has it. -/
def run (s : Store) (x : Answer) : (c : Cmd) → Option (Res c × Store)
  | .findProduct _ => some (.ok x.product, s)
  | .findMint userId clientRequestId => some (.ok (ofRequest s userId clientRequestId), s)
  | .assertSelfVaultEligible _ => some (.ok x.partnerId, s)
  | .listWalletsForUser _ => some (.ok x.wallets, s)
  | .preflight .. => some (.ok (), s)
  | .create row =>
    if (ofRequest s row.userId row.clientRequestId).isSome then some (.error uniqueViolation, s)
    else if (s.mints.get x.text).isSome then none
    else
      let row := { row with id := x.text }
      some (.ok row, { s with mints := s.mints.save row })
  | .select row => some (.ok (s.mints.get row.id), s)
  | .write loaded row => some (write s loaded row)
  | .fetchImage _ => some (.ok x.image, s)
  | .ingestBoxPhoto .. => some (.ok x.photo, s)
  | .uploadBuffer .. => some (.ok x.text, s)
  | .uploadMetadata boxId metadata =>
    some (.ok x.text, { s with pinned := s.pinned ++ [⟨boxId, metadata, x.text⟩] })
  | .mint boxId recipient =>
    some (.ok x.text, { s with sent := s.sent ++ [⟨boxId, recipient, x.text⟩] })
  | .wait boxId txHash =>
    some (.ok x.receipt, { s with mined := s.mined ++ [⟨boxId, txHash, x.receipt⟩] })
  | .recordOwner .. => some (.ok (), s)
  | .sleep _ => some (.ok (), s)
  | .upsertToken values => some (.ok (), { s with tokens := upsertToken s.tokens values })

def exec : Handler Store Answer Cmd Res := fun _ s x c =>
  match x.fate with
  | .done => run s x c
  | .failed e => some (.error e, s)
  | .unseen e => (run s x c).map fun r => (.error e, r.2)

end Statements

abbrev M := Prog Cmd Res Thrown

def perform (c : Cmd) : M (Value c) := .call c .ret

def throwHttp {α : Type} (e : HttpError) : M α := .ret (.error (.ofHttp e))

/-- `mints.save` of a row that has an id. -/
def save (row : SealedBoxMint) : M Unit := do
  let loaded ← perform (.select row)
  if loaded = some row then pure () else perform (.write loaded row)

section Service
variable (cfg : Config)

def requireProduct (id : JsStr) : M CatalogProduct := do
  let rows ← perform (.findProduct id)
  let product ← Prog.orThrow (.ofHttp (.notFound (js "Catalog product not found"))) rows
  let name := trim (product.productName.getD [])
  Prog.throwIf name.isEmpty (.ofHttp (.badRequest (js "Catalog product has no name")))
  pure ⟨product.id, name, trim (product.consoleName.getD []), product.upc, product.coverImageUrl⟩

def notLinked : HttpError :=
  .forbidden (js "Recipient wallet must be linked to your Tokenable account")

def primaryWallet (wallets : List LinkedWallet) : Option JsStr :=
  ((wallets.find? LinkedWallet.isPrimary).or wallets.head?).map LinkedWallet.walletAddress

def resolveRecipient (userId : JsStr) (explicit : Option JsStr) : M JsStr :=
  if truthy (explicit.map trim) then do
    let addr := lower (trim (explicit.getD []))
    let wallets ← perform (.listWalletsForUser userId)
    Prog.throwIf (!wallets.any fun w => lower (trim w.walletAddress) = addr) (.ofHttp notLinked)
    pure addr
  else do
    let wallets ← perform (.listWalletsForUser userId)
    let primary := trim ((primaryWallet wallets).getD [])
    Prog.throwIf primary.isEmpty (.ofHttp (.badRequest (js "Link a wallet before minting")))
    pure (lower primary)

/-- What `claimRow` is called with. -/
structure Claim where
  userId : JsStr
  partnerId : JsStr
  chainId : ℕ
  recipient : JsStr
  product : CatalogProduct
  clientRequestId : JsStr

def reuse (existing : SealedBoxMint) (input : Claim) : SealedBoxMint :=
  if existing.status = .minted || truthy existing.tokenId || truthy existing.mintTxHash then
    existing
  else
    { existing with
      partnerId := input.partnerId
      chainId := input.chainId
      recipientAddress := input.recipient
      pricechartingProductId := input.product.id
      productName := input.product.productName
      consoleName := input.product.consoleName
      upc := input.product.upc
      status := .pending
      errorMessage := none }

def Claim.fresh (input : Claim) : SealedBoxMint :=
  { id := []
    userId := input.userId
    partnerId := input.partnerId
    chainId := input.chainId
    pricechartingProductId := input.product.id
    productName := input.product.productName
    consoleName := input.product.consoleName
    upc := input.product.upc
    clientRequestId := input.clientRequestId
    recipientAddress := input.recipient }

def afterRace (input : Claim) (err : Thrown) : M SealedBoxMint := do
  Prog.throwIf (!isUniqueViolation err) err
  let raced ← perform (.findMint input.userId input.clientRequestId)
  let raced ← Prog.orThrow err raced
  pure (reuse raced input)

def claimRow (input : Claim) : M SealedBoxMint := do
  match ← perform (.findMint input.userId input.clientRequestId) with
  | some existing => pure (reuse existing input)
  | none =>
    (perform (.create input.fresh)).settle fun
      | .ok row => pure row
      | .error err => afterRace input err

def incomplete : Thrown := .ofHttp (.internal (js "Sealed box mint record is incomplete"))

def toResult (row : SealedBoxMint) : Except Thrown SealedBoxMintResult :=
  match row.tokenId, row.tokenUri, row.displayImageUrl, row.mintTxHash with
  | some tokenId, some tokenUri, some displayImageUrl, some txHash =>
    if tokenId.isEmpty || tokenUri.isEmpty || displayImageUrl.isEmpty || txHash.isEmpty then
      .error incomplete
    else .ok ⟨row.id, tokenId, tokenUri, displayImageUrl, txHash, row.chainId, row.productName⟩
  | _, _, _, _ => .error incomplete

def storedMintTx (row : SealedBoxMint) : Option JsStr :=
  let hash := lower (trim (row.mintTxHash.getD []))
  if isTxHash hash then some hash else none

/-- The values of the registry row, when the mint's row has the texts that they need. -/
def registryValues (row : SealedBoxMint) : Option Vault.RwaToken :=
  match row.tokenContract, row.tokenId, row.tokenUri, row.vaultRef with
  | some tokenContract, some tokenId, some tokenUri, some vaultRef =>
    if tokenContract.isEmpty || tokenId.isEmpty || tokenUri.isEmpty || vaultRef.isEmpty then none
    else some
      { tokenContract := tokenContract
        tokenId := tokenId
        tokenUri := some tokenUri
        metadataCid := metadataCidFromTokenUri tokenUri
        displayName := some row.productName
        vaultRef := some vaultRef
        settlementPolicy := some .selfVaultHold
        vaultPartnerId := some row.partnerId
        ownerWallet := some row.recipientAddress
        mintTxHash := storedMintTx row }
  | _, _, _, _ => none

def writeRegistry (row : SealedBoxMint) : M Unit := do
  let values ← Prog.orThrow incomplete (registryValues row)
  perform (.upsertToken values)

def metadataFor (row : SealedBoxMint) (imageUrl : JsStr) : RwaMetadata :=
  let set := trim row.consoleName
  { name := row.productName
    description := if set.isEmpty then row.productName else row.productName ++ js " · " ++ set
    image := imageUrl
    attributes := [(js "Asset", js "Sealed box")] ++
      (if set.isEmpty then [] else [(js "Set", set)]) ++
      [(js "PriceCharting product", row.pricechartingProductId)] ++
      (if truthy row.upc then [(js "UPC", row.upc.getD [])] else [])
    assetKind := js "sealed_box"
    pricechartingProductId := row.pricechartingProductId
    productName := row.productName
    consoleName := set
    upc := row.upc }

def mimeOr (mime : JsStr) : JsStr := if mime.isEmpty then js "image/jpeg" else mime

def imageRequired : HttpError := .badRequest (js "Image is required")

def notLoaded : HttpError := .badRequest (js "Representative image could not be loaded")

def isBadRequest : Thrown → Bool
  | .object { http := some (.badRequest _), .. } => true
  | _ => false

def isWebUrl (cover : JsStr) : Bool :=
  !cover.isEmpty && decide (cfg.protocol cover = some (js "https:") ∨
    cfg.protocol cover = some (js "http:"))

def Request.upload (req : Request) : Option MintImage := req.file.filter fun f => !f.buffer.isEmpty

def resolveMintImage (req : Request) (product : CatalogProduct) : M MintImage :=
  match req.upload with
  | some file => pure ⟨file.buffer, mimeOr file.mimetype⟩
  | none => do
    let cover := trim (product.coverImageUrl.getD [])
    Prog.throwIf (!isWebUrl cfg cover) (.ofHttp imageRequired)
    (perform (.fetchImage cover)).settle fun
      | .ok fetched =>
        if fetched.buffer.isEmpty then throwHttp notLoaded
        else pure ⟨fetched.buffer, mimeOr fetched.mimetype⟩
      | .error err => if isBadRequest err then .ret (.error err) else throwHttp notLoaded

/-- The steps that `mintTo` takes outside the process; `onSubmitted` assigns to the row. -/
def mintOps (row : SealedBoxMint) : MintOps Cmd Res where
  mint recipient := perform (.mint row.id recipient)
  onSubmitted txHash := save { row with mintTxHash := some txHash, status := .minting }
  wait txHash := perform (.wait row.id txHash)
  recordOwner tokenId recipient := perform (.recordOwner tokenId recipient)
  sleep ms := perform (.sleep ms)

/-- The `chainWriter.mintTo` of the service. -/
def submit (row : SealedBoxMint) (recipient tokenUri vaultRef : JsStr) : M MintResult :=
  (mintTo (mintOps row) ⟨recipient, some tokenUri, vaultRef⟩).settle fun
    | .ok minted => pure minted
    | .error e => throwHttp e

def noTokenId : HttpError := .internal (js "Mint transaction was mined but returned no token id")

/-- The last part of the `try`, from a minted token on. -/
def finish (row : SealedBoxMint) (minted : MintResult) : M SealedBoxMintResult := do
  Prog.throwIf (decide (minted.tokenId < 1)) (.ofHttp noTokenId)
  let row := { row with tokenId := some (ofNat minted.tokenId), mintTxHash := some minted.txHash }
  save row
  writeRegistry row
  let row := { row with status := .minted, errorMessage := none }
  save row
  .ret (toResult row)

/-- The `try` of `mintForPartner`. -/
def mintBox (req : Request) (product : CatalogProduct) (recipient : JsStr) (row : SealedBoxMint) :
    M SealedBoxMintResult := do
  let image ← resolveMintImage cfg req product
  let photo ← perform (.ingestBoxPhoto req.chainId row.id image)
  let row := { row with photoObjectKey := some photo.1, displayImageUrl := some photo.2 }
  save row
  let imageCid ← perform (.uploadBuffer image
    (js "sealed-box-" ++ row.id ++ js "." ++ imageExt image.mimetype) (mimeOr image.mimetype))
  let imageUrl := js "https://" ++ trim cfg.pinataGateway ++ js "/ipfs/" ++ imageCid
  let metadataCid ← perform (.uploadMetadata row.id (metadataFor row imageUrl))
  let tokenUri := js "ipfs://" ++ metadataCid
  let vaultRef := sealedBoxVaultRef cfg row.id
  let row := { row with tokenUri := some tokenUri, vaultRef := some vaultRef }
  save row
  let contract ← Prog.ret ((cfg.env.getRwaAddress req.chainId).mapError Thrown.ofHttp)
  let row := { row with tokenContract := some contract, status := .minting }
  save row
  let minted ← submit row recipient tokenUri vaultRef
  finish row minted

/-- Each assignment to the row is followed by a save of it. -/
def assigned : Cmd → Option SealedBoxMint
  | .select row => some row
  | _ => none

def isHttpException : Thrown → Bool
  | .object e => e.http.isSome
  | _ => false

/-- What is thrown in the end. -/
def failure (err : Thrown) : Thrown :=
  if isHttpException err then err
  else
    match sealedBoxStorageHttpException err with
    | some mapped => .ofHttp mapped
    | none => err

def fail {α : Type} (row : SealedBoxMint) (err : Thrown) : M α := do
  save { row with
    errorMessage := some ((exceptionText err).take 500)
    status := if truthy row.mintTxHash then .minting else .failed }
  .ret (.error (failure err))

def alreadySubmitted (existing : Option SealedBoxMint) : Bool :=
  existing.any fun e => e.status = .minted || truthy e.tokenId || truthy e.mintTxHash

def alreadySubmittedConflict : HttpError :=
  .conflict (js "Mint already submitted for this request")

def isReported (row : SealedBoxMint) : Bool :=
  row.status = .minted && truthy row.tokenId && truthy row.tokenUri && truthy row.displayImageUrl &&
    truthy row.mintTxHash

/-- What a call does with the row that it has claimed. -/
def proceed (req : Request) (product : CatalogProduct) (recipient : JsStr) (row : SealedBoxMint) :
    M SealedBoxMintResult :=
  if isReported row then .ret (toResult row)
  else if truthy row.tokenId && truthy row.mintTxHash then do
    writeRegistry row
    let row := { row with status := .minted, errorMessage := none }
    save row
    .ret (toResult row)
  else if row.status = .minting && truthy row.mintTxHash then throwHttp alreadySubmittedConflict
  else do
    let last ← (mintBox cfg req product recipient row).recollect assigned row
    match last.2 with
    | .ok result => pure result
    | .error err => fail last.1 err

def mintForPartner (req : Request) : M SealedBoxMintResult := do
  let product ← requireProduct req.pricechartingProductId
  let existing ← perform (.findMint req.userId req.clientRequestId)
  Prog.throwIf (!alreadySubmitted existing && req.upload.isNone &&
    !truthy (product.coverImageUrl.map trim)) (.ofHttp imageRequired)
  let partnerId ← perform (.assertSelfVaultEligible req.userId)
  let recipient ← resolveRecipient req.userId req.recipientAddress
  perform (.preflight req.userId recipient req.chainId)
  let row ← claimRow ⟨req.userId, partnerId, req.chainId, recipient, product, req.clientRequestId⟩
  proceed cfg req product recipient row

/-- A call, which keeps what it was called with. -/
def call (req : Request) : M (Request × SealedBoxMintResult) := do
  let result ← mintForPartner cfg req
  pure (req, result)

end Service

end SealedBox
