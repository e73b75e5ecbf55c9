import Mathlib.Data.List.Sort
import Tokenable.Async.Prog
import Tokenable.User.Account

/-!
# `UserService` over its tables

The session sync of a Privy login, the linking and unlinking of wallets, KYC transitions and profile
settings, as programs over the tables they read and write. A save of a user row names the writer
and the copy of the row it started from; neither has an effect, and they let a run be judged.
-/

namespace Users
open Js Platform Async

/-- Which kind of call saves a user row. -/
inductive Writer where
  | session | wallets | kyc | profile
  deriving DecidableEq

inductive DbError where
  | primaryKey | googleIdTaken | privyIdTaken | emailTaken | walletLinked | providerLinked
  deriving DecidableEq

inductive Failure where
  | http (e : HttpError)
  | db (e : DbError)
  deriving DecidableEq

/-- The tables. `emailUnique` is the constraint that older deployments still have. -/
structure Store where
  users : UserTable
  wallets : WalletTable
  providers : ProviderTable
  kycEvents : List UserKycEvent
  partners : List MarketplacePartner
  emailUnique : Bool := false

inductive Cmd where
  | findUser (id : JsStr)
  | findByPrivyId (privyId : JsStr)
  | findByGoogleId (googleId : JsStr)
  | findLegacyByEmail (email : JsStr)
  | insertUser (user : User)
  | saveUser (writer : Writer) (loaded user : User)
  | listWallets (userId : JsStr)
  | findWallet (userId address : JsStr)
  | countWallets (userId : JsStr)
  | oldestWallet (userId : JsStr)
  | insertWallet (wallet : UserWallet)
  | saveWallet (wallet : UserWallet)
  | removeWallet (wallet : UserWallet)
  | findActiveProvider (providerType providerSubject : JsStr)
  | findOwnProvider (providerType providerSubject userId : JsStr)
  | listActiveProviders (userId : JsStr)
  | insertProvider (provider : UserAuthProvider)
  | saveProvider (provider : UserAuthProvider)
  | insertKycEvent (event : UserKycEvent)
  | findActivePartner (addresses : List JsStr)
  | now

abbrev Res : Cmd → Type
  | .findUser _ | .findByPrivyId _ | .findByGoogleId _ | .findLegacyByEmail _ => Option User
  | .insertUser _ => Except DbError User
  | .saveUser .. => Except DbError Unit
  | .listWallets _ => List UserWallet
  | .findWallet .. | .oldestWallet _ => Option UserWallet
  | .countWallets _ => ℕ
  | .insertWallet _ => Except DbError UserWallet
  | .saveWallet _ | .removeWallet _ => Unit
  | .findActiveProvider .. | .findOwnProvider .. => Option UserAuthProvider
  | .listActiveProviders _ => List UserAuthProvider
  | .insertProvider _ | .saveProvider _ => Except DbError Unit
  | .insertKycEvent _ => Unit
  | .findActivePartner _ => Option MarketplacePartner
  | .now => ℕ

/-- The time of a step, and the id that the database generates. -/
structure Tick where
  now : ℕ := 0
  newId : JsStr := []

/-- The unique constraint of `users` that the row would violate, in the order of the indexes. -/
def Store.userConflict (s : Store) (u : User) : Option DbError :=
  let clash (p : User → Bool) : Bool := s.users.rows.any fun x => x.id ≠ u.id && p x
  if u.googleId.isSome && clash (fun x => x.googleId = u.googleId) then some .googleIdTaken
  else if u.privyId.isSome && clash (fun x => x.privyId = u.privyId) then some .privyIdTaken
  else if s.emailUnique && clash (fun x => x.email = u.email) then some .emailTaken
  else none

def Store.saveUser (s : Store) (u : User) : Store := { s with users := s.users.save u }

def Store.walletsOf (s : Store) (userId : JsStr) : List UserWallet :=
  s.wallets.find fun w => w.userId = userId

/-- `order: { isPrimary: 'DESC', linkedAt: 'ASC' }` -/
def Store.listWallets (s : Store) (userId : JsStr) : List UserWallet :=
  (s.walletsOf userId).insertionSort fun a b =>
    (a.isPrimary = true ∧ b.isPrimary = false) ∨
      (a.isPrimary = b.isPrimary ∧ a.linkedAt ≤ b.linkedAt)

/-- `order: { linkedAt: 'ASC' }` -/
def Store.oldestWallet (s : Store) (userId : JsStr) : Option UserWallet :=
  ((s.walletsOf userId).insertionSort fun a b => a.linkedAt ≤ b.linkedAt).head?

def Store.findWallet (s : Store) (userId address : JsStr) : Option UserWallet :=
  (s.walletsOf userId).find? fun w => w.walletAddress = address

def Store.walletConflict (s : Store) (w : UserWallet) : Option DbError :=
  if (s.wallets.get w.id).isSome then some .primaryKey
  else if (s.findWallet w.userId w.walletAddress).isSome then some .walletLinked
  else none

def Store.saveWallet (s : Store) (w : UserWallet) : Store := { s with wallets := s.wallets.save w }

def Store.removeWallet (s : Store) (w : UserWallet) : Store :=
  { s with wallets := s.wallets.remove w.id }

def Store.providerConflict (s : Store) (p : UserAuthProvider) : Bool :=
  p.unlinkedAt.isNone && s.providers.rows.any fun x =>
    x.id ≠ p.id && x.unlinkedAt.isNone && x.providerType = p.providerType &&
      x.providerSubject = p.providerSubject

def Store.saveProvider (s : Store) (p : UserAuthProvider) : Except DbError Unit × Store :=
  if s.providerConflict p then (.error .providerLinked, s)
  else (.ok (), { s with providers := s.providers.save p })

def exec (s : Store) (x : Tick) : (c : Cmd) → Res c × Store
  | .findUser id => (s.users.get id, s)
  | .findByPrivyId privyId => (s.users.rows.find? fun u => u.privyId = some privyId, s)
  | .findByGoogleId googleId => (s.users.rows.find? fun u => u.googleId = some googleId, s)
  | .findLegacyByEmail email =>
    (s.users.rows.find? fun u => u.email = email && u.privyId.isNone, s)
  | .insertUser user =>
    if (s.users.get x.newId).isSome then (.error .primaryKey, s)
    else
      match s.userConflict { user with id := x.newId } with
      | some e => (.error e, s)
      | none => (.ok { user with id := x.newId }, s.saveUser { user with id := x.newId })
  | .saveUser _ _ user =>
    match s.userConflict user with
    | some e => (.error e, s)
    | none => (.ok (), s.saveUser user)
  | .listWallets userId => (s.listWallets userId, s)
  | .findWallet userId address => (s.findWallet userId address, s)
  | .countWallets userId => ((s.walletsOf userId).length, s)
  | .oldestWallet userId => (s.oldestWallet userId, s)
  | .insertWallet wallet =>
    match s.walletConflict { wallet with id := x.newId, linkedAt := x.now } with
    | some e => (.error e, s)
    | none => (.ok { wallet with id := x.newId, linkedAt := x.now },
        s.saveWallet { wallet with id := x.newId, linkedAt := x.now })
  | .saveWallet wallet => ((), s.saveWallet wallet)
  | .removeWallet wallet => ((), s.removeWallet wallet)
  | .findActiveProvider providerType providerSubject =>
    (s.providers.rows.find? fun p => p.providerType = providerType &&
      p.providerSubject = providerSubject && p.unlinkedAt.isNone, s)
  | .findOwnProvider providerType providerSubject userId =>
    (((s.providers.find fun p => p.providerType = providerType &&
      p.providerSubject = providerSubject && p.userId = userId).insertionSort
        fun a b => b.linkedAt ≤ a.linkedAt).head?, s)
  | .listActiveProviders userId =>
    ((s.providers.find fun p => p.userId = userId && p.unlinkedAt.isNone).insertionSort
      fun a b => a.linkedAt ≤ b.linkedAt, s)
  | .insertProvider provider =>
    if (s.providers.get x.newId).isSome then (.error .primaryKey, s)
    else s.saveProvider { provider with id := x.newId, linkedAt := x.now }
  | .saveProvider provider => s.saveProvider provider
  | .insertKycEvent event => ((), { s with kycEvents := s.kycEvents ++ [event] })
  | .findActivePartner addresses =>
    (s.partners.find? fun p => p.walletAddress ∈ addresses && p.isActive, s)
  | .now => (x.now, s)

abbrev M := Prog Cmd Res Failure

def perform (c : Cmd) : M (Res c) := .call c (fun r => .ret (.ok r))

def attempt {α : Type} : Except DbError α → M α
  | .ok a => .ret (.ok a)
  | .error e => .ret (.error (.db e))

def findById (id : JsStr) : M (Option User) := perform (.findUser id)

def findByIdOrFail (id : JsStr) : M User := do
  let found ← findById id
  Prog.orThrow (.http (.notFound (js "User not found"))) found

def findByGoogleId (googleId : JsStr) : M (Option User) :=
  if (trim googleId).isEmpty then pure none else perform (.findByGoogleId (trim googleId))

def saveUser (writer : Writer) (loaded user : User) : M User := do
  let saved ← (perform (.saveUser writer loaded user) : M (Except DbError Unit))
  attempt saved
  pure user

def now : M ℕ := perform .now

def listWalletsForUser (userId : JsStr) : M (List UserWallet) := perform (.listWallets userId)

def findWalletForUser (userId address : JsStr) : M (Option UserWallet) :=
  perform (.findWallet userId address)

def saveWallet (wallet : UserWallet) : M Unit := perform (.saveWallet wallet)

def UserWallet.patchMetadata (row : UserWallet) (link : ParsedWalletLink) (source : WalletSource) :
    UserWallet :=
  { row with
    chainType := link.chainType
    walletKind := link.walletKind
    walletClient := link.walletClient
    connectorType := link.connectorType
    privyWalletId := link.providerAccountId.or row.privyWalletId
    source := source }

/-- The row object as it is after the call: the caller's copy changes too. -/
def patchWalletMetadata (row : UserWallet) (link : ParsedWalletLink) (source : WalletSource) :
    M UserWallet := do
  saveWallet (row.patchMetadata link source)
  pure (row.patchMetadata link source)

/-- The `meta` argument of `addWalletAddress`. -/
structure WalletMeta where
  chainType : Option JsStr := none
  walletKind : Option WalletKind := none
  walletClient : Option JsStr := none
  connectorType : Option JsStr := none
  source : Option WalletSource := none
  privyWalletId : Option JsStr := none
  deriving DecidableEq

/-- The rest of `addWalletAddress` for a wallet that is not linked yet, to a user with `count`
wallets. -/
def linkWallet (user : User) (address : JsStr) (info : WalletMeta) (count : ℕ) : M User := do
  let wallet : UserWallet :=
    { id := [], userId := user.id, walletAddress := address, isPrimary := count = 0,
      chainType := info.chainType.getD (js "ethereum"), walletKind := info.walletKind.getD .external,
      walletClient := info.walletClient, connectorType := info.connectorType,
      source := info.source.getD .admin, privyWalletId := info.privyWalletId, linkedAt := 0 }
  let inserted ← (perform (.insertWallet wallet) : M (Except DbError UserWallet))
  let row ← attempt inserted
  if count = 0 then
    saveUser .wallets user
      { user with walletAddress := some address, walletLinkedAt := some row.linkedAt }
  else pure user

/-- The metadata that `addWalletAddress` gives to a row that is linked already. -/
def WalletMeta.link (info : WalletMeta) (row : UserWallet) : ParsedWalletLink :=
  { address := row.walletAddress, chainType := info.chainType.getD row.chainType,
    walletKind := info.walletKind.getD row.walletKind, walletClient := info.walletClient,
    connectorType := info.connectorType, providerAccountId := info.privyWalletId }

def addWalletAddress (userId address : JsStr) (info : Option WalletMeta) : M User := do
  let user ← findByIdOrFail userId
  let existing ← findWalletForUser userId address
  match existing with
  | some row =>
    match info with
    | some m => do
      let _ ← patchWalletMetadata row (m.link row) (m.source.getD row.source)
      pure user
    | none => pure user
  | none => do
    let count ← (perform (.countWallets userId) : M ℕ)
    linkWallet user address (info.getD {}) count

/-- The rest of `removeWallet` once the primary row is gone. -/
def promoteOldest (user : User) : M User := do
  let next ← (perform (.oldestWallet user.id) : M (Option UserWallet))
  match next with
  | some wallet => do
    saveWallet { wallet with isPrimary := true }
    saveUser .wallets user
      { user with walletAddress := some wallet.walletAddress, walletLinkedAt := some wallet.linkedAt }
  | none => saveUser .wallets user { user with walletAddress := none, walletLinkedAt := none }

def removeWallet (userId address : JsStr) : M User := do
  let user ← findByIdOrFail userId
  let found ← findWalletForUser userId address
  let row ← Prog.orThrow (.http (.notFound (js "Wallet not linked to this account"))) found
  (perform (.removeWallet row) : M Unit)
  if row.isPrimary then promoteOldest user else pure user

/-- The row `syncAuthProviders` writes over an existing one. -/
def UserAuthProvider.patch (row : UserAuthProvider) (p : ParsedAuthProvider) : UserAuthProvider :=
  { row with
    providerAccountId := p.providerAccountId.or row.providerAccountId
    email := (p.email.map lower).or row.email
    phone := p.phone.or row.phone
    displayName := p.displayName.or row.displayName
    avatarUrl := p.avatarUrl.or row.avatarUrl
    isVerified := p.isVerified
    metadata := row.metadata.filter (fun kv => kv.1 ∉ p.metadata.map Prod.fst) ++ p.metadata }

def saveProvider (row : UserAuthProvider) : M Unit := do
  let saved ← (perform (.saveProvider row) : M (Except DbError Unit))
  attempt saved

/-- One turn of the first loop of `syncAuthProviders`. -/
def syncAuthProvider (userId : JsStr) (p : ParsedAuthProvider) : M Unit := do
  let providerType := trim p.providerType
  let providerSubject := trim p.providerSubject
  if providerType.isEmpty || providerSubject.isEmpty then pure ()
  else do
    let existing ← (perform (.findActiveProvider providerType providerSubject) :
      M (Option UserAuthProvider))
    match existing with
    | some row => if row.userId ≠ userId then pure () else saveProvider (row.patch p)
    | none => do
      let relinked ← (perform (.findOwnProvider providerType providerSubject userId) :
        M (Option UserAuthProvider))
      match relinked with
      | some row => do
        let at_ ← now
        saveProvider { row.patch p with unlinkedAt := none, linkedAt := at_ }
      | none => do
        let inserted ← (perform (.insertProvider
          { id := [], userId, providerType, providerSubject,
            providerAccountId := p.providerAccountId, email := p.email.map lower,
            phone := p.phone, displayName := p.displayName, avatarUrl := p.avatarUrl,
            isVerified := p.isVerified, metadata := p.metadata, linkedAt := 0 }) :
          M (Except DbError Unit))
        attempt inserted

def providerKey (providerType providerSubject : JsStr) : JsStr :=
  providerType ++ js ":" ++ lower providerSubject

def desiredKeys (providers : List ParsedAuthProvider) : List JsStr :=
  (providers.filter fun p => !(trim p.providerType).isEmpty && !(trim p.providerSubject).isEmpty).map
    fun p => providerKey (trim p.providerType) (trim p.providerSubject)

def eachDo {α : Type} (f : α → M Unit) : List α → M Unit
  | [] => pure ()
  | a :: as => do
    f a
    eachDo f as

def syncAuthProviders (userId : JsStr) (providers : List ParsedAuthProvider) : M Unit := do
  eachDo (syncAuthProvider userId) providers
  let active ← (perform (.listActiveProviders userId) : M (List UserAuthProvider))
  let at_ ← now
  eachDo (fun row => saveProvider { row with unlinkedAt := some at_ })
    (active.filter fun row => providerKey row.providerType row.providerSubject ∉ desiredKeys providers)

/-- `Map.set`: the key keeps its place. -/
def setLink (links : List ParsedWalletLink) (link : ParsedWalletLink) : List ParsedWalletLink :=
  if links.any fun l => l.address = link.address then
    links.map fun l => if l.address = link.address then link else l
  else links ++ [link]

section Sync
variable (getAddress : JsStr → Option JsStr)

/-- The wallets of the profile by checksummed address; a malformed address is skipped. -/
def desiredWallets (links : List ParsedWalletLink) : List ParsedWalletLink :=
  links.foldl (fun desired raw =>
    match getAddress raw.address with
    | some address => setLink desired { raw with address }
    | none => desired) []

def WalletMeta.ofLink (link : ParsedWalletLink) : WalletMeta :=
  { chainType := some link.chainType, walletKind := some link.walletKind,
    walletClient := link.walletClient, connectorType := link.connectorType,
    source := some .privySync, privyWalletId := link.providerAccountId }

/-- `existingByAddress.get`: of two rows with the same address the later one. -/
def existingByAddress (existing : List UserWallet) (address : JsStr) : Option UserWallet :=
  existing.reverse.find? fun row => lower row.walletAddress = lower address

/-- The first loop of `syncPrivyWallets`, with the listed rows as they are after it. -/
def addDesired (userId : JsStr) : List ParsedWalletLink → List UserWallet → M (List UserWallet)
  | [], existing => pure existing
  | link :: links, existing =>
    match existingByAddress existing link.address with
    | some row => do
      let patched ← patchWalletMetadata row link .privySync
      addDesired userId links (existing.map fun r => if r.id = patched.id then patched else r)
    | none => do
      (addWalletAddress userId link.address (some (WalletMeta.ofLink link))).swallow
      addDesired userId links existing

/-- One turn of the second loop of `syncPrivyWallets`. -/
def dropUndesired (userId : JsStr) (desired : List JsStr) (row : UserWallet) : M Unit :=
  if row.walletAddress ∈ desired then pure ()
  else if row.source ≠ .privySync then pure ()
  else (removeWallet userId row.walletAddress).swallow

def syncPrivyWallets (userId : JsStr) (links : List ParsedWalletLink) : M Unit := do
  let desired := desiredWallets getAddress links
  let existing ← listWalletsForUser userId
  let existing ← addDesired userId desired existing
  eachDo (dropUndesired userId (desired.map ParsedWalletLink.address)) existing

def syncPrivyIdentity (userId : JsStr) (providers : List ParsedAuthProvider)
    (links : List ParsedWalletLink) : M Unit := do
  syncAuthProviders userId providers
  syncPrivyWallets getAddress userId links

/-- The retry of `patchPrivyProfileIfNeeded` with the stored email; a second clash is ignored. -/
def saveWithStoredEmail (loaded user : User) : M User := do
  let fresh ← findById user.id
  match fresh with
  | none => pure user
  | some stored => do
    let user := { user with email := stored.email }
    (saveUser .session loaded user).swallow
    pure user

/-- The row object as it is after the call. -/
def patchPrivyProfileIfNeeded (loaded user : User) (params : PrivyParams) : M User :=
  let patched := user.patchProfile params
  if patched = user then pure user
  else do
    let saved ← (perform (.saveUser .session loaded patched) : M (Except DbError Unit))
    match saved with
    | .ok _ => pure patched
    | .error .emailTaken => saveWithStoredEmail loaded patched
    | .error e => .ret (.error (.db e))

structure PrivyLogin where
  user : User
  isNewRegistration : Bool
  deriving DecidableEq

def finishPrivySessionSync (loaded : User) (params : PrivyParams) : M PrivyLogin := do
  let user ← patchPrivyProfileIfNeeded loaded loaded params
  syncPrivyIdentity getAddress user.id params.authProviders params.links
  let at_ ← now
  let user ← saveUser .session loaded { user with lastPrivySyncAt := some at_ }
  let refreshed ← findById user.id
  pure ⟨refreshed.getD user, false⟩

def sharedEmail : HttpError := .badRequest
  (js "This email is already on another Tokenable account. Run backend/sql/scripts/apply-deploy-maintenance.sh (deploy-sync.sql), then retry.")

/-- What `linkPrivyToExistingUser` does when its save is refused. -/
def linkRefused (params : PrivyParams) : DbError → M PrivyLogin
  | .privyIdTaken => do
    let byPrivy ← (perform (.findByPrivyId params.privyId) : M (Option User))
    match byPrivy with
    | some user => finishPrivySessionSync getAddress user params
    | none => .ret (.error (.db .privyIdTaken))
  | .emailTaken => .ret (.error (.http sharedEmail))
  | e => .ret (.error (.db e))

def linkPrivyToExistingUser (loaded : User) (params : PrivyParams) : M PrivyLogin := do
  let user ← patchPrivyProfileIfNeeded loaded { loaded with privyId := some params.privyId } params
  let at_ ← now
  let user := { user with lastPrivySyncAt := some at_ }
  let saved ← (perform (.saveUser .session loaded user) : M (Except DbError Unit))
  match saved with
  | .error e => linkRefused getAddress params e
  | .ok _ => do
    syncPrivyIdentity getAddress user.id params.authProviders params.links
    let merged ← findById user.id
    pure ⟨merged.getD user, false⟩

/-- What `findOrCreateFromPrivy` does when the new row is refused. -/
def createRefused (params : PrivyParams) : DbError → M PrivyLogin
  | .privyIdTaken => do
    let raced ← (perform (.findByPrivyId params.privyId) : M (Option User))
    match raced with
    | some user => finishPrivySessionSync getAddress user params
    | none => .ret (.error (.db .privyIdTaken))
  | .googleIdTaken => do
    let raced ← findByGoogleId (params.googleId.getD [])
    match raced with
    | some user => linkPrivyToExistingUser getAddress user params
    | none => .ret (.error (.db .googleIdTaken))
  | .emailTaken => .ret (.error (.http sharedEmail))
  | e => .ret (.error (.db e))

def createFromPrivy (params : PrivyParams) : M PrivyLogin := do
  let at_ ← now
  let inserted ← (perform (.insertUser
    { id := [], email := trim (lower params.email), privyId := some params.privyId,
      googleId := params.googleId, name := params.name, pictureUrl := params.pictureUrl,
      emailVerified := params.emailVerified.getD true, lastPrivySyncAt := some at_ }) :
    M (Except DbError User))
  match inserted with
  | .error e => createRefused getAddress params e
  | .ok saved => do
    syncPrivyIdentity getAddress saved.id params.authProviders params.links
    let created ← findById saved.id
    pure ⟨created.getD saved, true⟩

/-- `findOrCreateFromPrivy` for a Privy id that no row has. -/
def linkOrCreate (params : PrivyParams) : M PrivyLogin := do
  let byGoogle ← findByGoogleId (params.googleId.getD [])
  match byGoogle with
  | some user => linkPrivyToExistingUser getAddress user params
  | none => do
    let legacyByEmail ← (perform (.findLegacyByEmail (trim (lower params.email))) : M (Option User))
    match legacyByEmail with
    | some user => linkPrivyToExistingUser getAddress user params
    | none => createFromPrivy getAddress params

def findOrCreateFromPrivy (params : PrivyParams) : M PrivyLogin := do
  let byPrivy ← (perform (.findByPrivyId params.privyId) : M (Option User))
  match byPrivy with
  | some user => finishPrivySessionSync getAddress user params
  | none => linkOrCreate getAddress params

end Sync

def updateKycStatus (userId : JsStr) (k : KycTransition) : M User := do
  let user ← findByIdOrFail userId
  let at_ ← now
  (perform (.insertKycEvent ⟨userId, k.status, user.kycProviderFor k, k.externalId, k.reason,
    k.payload⟩) : M Unit)
  saveUser .kyc user (user.applyKyc k at_)

def updateProfile (userId : JsStr) (dto : UpdateProfileDto) : M User := do
  let user ← findByIdOrFail userId
  match user.applyProfile dto with
  | .error e => .ret (.error (.http e))
  | .ok updated => do
    let saved ← (perform (.saveUser .profile user updated) : M (Except DbError Unit))
    match saved with
    | .ok _ => pure updated
    | .error .emailTaken => .ret (.error (.http sharedEmail))
    | .error e => .ret (.error (.db e))

/-- `/^0x[a-fA-F0-9]{40}$/` on a text in lower case. -/
def partnerCandidates (user : User) (wallets : List UserWallet) : List JsStr :=
  ((wallets.map UserWallet.walletAddress ++ user.walletAddress.toList).map fun a =>
    lower (trim a)).filter isAddress

/-- The approval that the appointment of an active partner implies. -/
def partnerGrant (user : User) : KycTransition :=
  { status := .approved, provider := some (js "admin"), externalId := user.kycExternalId,
    payload := [(js "source", js "admin_partner_vault_grant")] }

def approveKycIfActivePartner (user : User) : M User :=
  if user.kycStatus = .approved then pure user
  else do
    let wallets ← listWalletsForUser user.id
    let candidates := partnerCandidates user wallets
    if candidates.isEmpty then pure user
    else do
      let partner ← (perform (.findActivePartner candidates) : M (Option MarketplacePartner))
      match partner with
      | none => pure user
      | some _ => updateKycStatus user.id (partnerGrant user)

end Users
