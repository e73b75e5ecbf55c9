import Tokenable.Db.Table
import Tokenable.Platform.Config

/-!
# Accounts: users, linked wallets and login methods

The rows of `users`, `user_wallets` and `user_auth_providers`, and the parts of `UserService` that
compute on a loaded row: the patch of a profile from Privy, the profile settings and the fields of a
KYC transition. `users.wallet_address` repeats the address of the primary row of `user_wallets`.
-/

namespace Users
open Js Platform

inductive KycStatus where
  | none | pending | approved | rejected
  deriving DecidableEq

/-- A JSON object of switches; a key that is missing or not a boolean is `none`. -/
structure EmailNotifPrefs where
  trades : Option Bool := none
  bids : Option Bool := none
  price : Option Bool := none
  vault : Option Bool := none
  listing : Option Bool := none
  market : Option Bool := none
  deriving DecidableEq

def defaultEmailNotifPrefs : EmailNotifPrefs :=
  ⟨some true, some true, some true, some true, some true, some false⟩

def normalizeEmailNotifPrefs (input base : EmailNotifPrefs) : EmailNotifPrefs where
  trades := input.trades.or base.trades
  bids := input.bids.or base.bids
  price := input.price.or base.price
  vault := input.vault.or base.vault
  listing := input.listing.or base.listing
  market := input.market.or base.market

structure User where
  id : JsStr
  email : JsStr
  googleId : Option JsStr := none
  name : Option JsStr := none
  pictureUrl : Option JsStr := none
  emailVerified : Bool := false
  walletAddress : Option JsStr := none
  walletLinkedAt : Option ℕ := none
  privyId : Option JsStr := none
  kycStatus : KycStatus := .none
  kycVerifiedAt : Option ℕ := none
  kycProvider : Option JsStr := none
  kycExternalId : Option JsStr := none
  kycRejectionReason : Option JsStr := none
  lastPrivySyncAt : Option ℕ := none
  marketingEmailsOptIn : Bool := false
  emailNotificationsEnabled : Bool := true
  emailNotifPrefs : Option EmailNotifPrefs := some defaultEmailNotifPrefs
  preferredLocale : Option JsStr := none
  preferredCurrency : Option JsStr := none
  deriving DecidableEq

inductive WalletKind where
  | embedded | external
  deriving DecidableEq

inductive WalletSource where
  | privySync | admin | legacy
  deriving DecidableEq

structure UserWallet where
  id : JsStr
  userId : JsStr
  walletAddress : JsStr
  isPrimary : Bool := false
  chainType : JsStr := js "ethereum"
  walletKind : WalletKind := .external
  walletClient : Option JsStr := none
  connectorType : Option JsStr := none
  source : WalletSource := .legacy
  privyWalletId : Option JsStr := none
  linkedAt : ℕ
  deriving DecidableEq

structure UserAuthProvider where
  id : JsStr
  userId : JsStr
  providerType : JsStr
  providerSubject : JsStr
  providerAccountId : Option JsStr := none
  email : Option JsStr := none
  phone : Option JsStr := none
  displayName : Option JsStr := none
  avatarUrl : Option JsStr := none
  isVerified : Bool := false
  metadata : List (JsStr × JsStr) := []
  linkedAt : ℕ
  unlinkedAt : Option ℕ := none
  deriving DecidableEq

/-- One entry of the append-only audit trail `user_kyc_events`. -/
structure UserKycEvent where
  userId : JsStr
  status : KycStatus
  provider : JsStr
  externalId : Option JsStr
  reason : Option JsStr
  payload : List (JsStr × JsStr)
  deriving DecidableEq

structure MarketplacePartner where
  id : JsStr
  walletAddress : JsStr
  isActive : Bool
  deriving DecidableEq

structure ParsedAuthProvider where
  providerType : JsStr
  providerSubject : JsStr
  providerAccountId : Option JsStr := none
  email : Option JsStr := none
  phone : Option JsStr := none
  displayName : Option JsStr := none
  avatarUrl : Option JsStr := none
  isVerified : Bool
  metadata : List (JsStr × JsStr) := []
  deriving DecidableEq

structure ParsedWalletLink where
  address : JsStr
  chainType : JsStr
  walletKind : WalletKind
  walletClient : Option JsStr := none
  connectorType : Option JsStr := none
  providerAccountId : Option JsStr := none
  deriving DecidableEq

structure PrivyParams where
  privyId : JsStr
  email : JsStr
  name : Option JsStr := none
  pictureUrl : Option JsStr := none
  emailVerified : Option Bool := none
  googleId : Option JsStr := none
  authProviders : List ParsedAuthProvider := []
  wallets : Option (List ParsedWalletLink) := none
  walletAddresses : List JsStr := []
  deriving DecidableEq

def PrivyParams.links (p : PrivyParams) : List ParsedWalletLink :=
  p.wallets.getD
    (p.walletAddresses.map fun address => { address, chainType := js "ethereum", walletKind := .external })

def walletOnlyEmailSuffix : JsStr := js "@privy.wallet"

def isWalletOnlyPlaceholderEmail (email : JsStr) : Bool :=
  walletOnlyEmailSuffix.isSuffixOf (lower email)

namespace User

def isBlank (value : Option JsStr) : Bool := (trim (value.getD [])).isEmpty

def patchEmail (u : User) (p : PrivyParams) : User :=
  let email := trim (lower p.email)
  if !email.isEmpty && email ≠ u.email &&
      !(isWalletOnlyPlaceholderEmail email && !isWalletOnlyPlaceholderEmail u.email) then
    { u with email }
  else u

def patchName (u : User) (p : PrivyParams) : User :=
  if p.name.isSome && p.name ≠ u.name && isBlank u.name then { u with name := p.name } else u

def patchPictureUrl (u : User) (p : PrivyParams) : User :=
  if p.pictureUrl.isSome && p.pictureUrl ≠ u.pictureUrl && isBlank u.pictureUrl then
    { u with pictureUrl := p.pictureUrl }
  else u

def patchEmailVerified (u : User) (p : PrivyParams) : User :=
  match p.emailVerified with
  | none => u
  | some verified =>
    let wouldDowngradeRealInbox := !verified && isWalletOnlyPlaceholderEmail p.email &&
      !isWalletOnlyPlaceholderEmail u.email
    if verified ≠ u.emailVerified && !wouldDowngradeRealInbox then
      { u with emailVerified := verified }
    else u

def patchGoogleId (u : User) (p : PrivyParams) : User :=
  if truthy p.googleId && !truthy u.googleId then { u with googleId := p.googleId } else u

/-- The row after `patchPrivyProfileIfNeeded`; it is dirty when it differs. -/
def patchProfile (u : User) (p : PrivyParams) : User :=
  ((((u.patchEmail p).patchName p).patchPictureUrl p).patchEmailVerified p).patchGoogleId p

end User

/-- The body of `PATCH /auth/profile`; an absent key is `none`. -/
structure UpdateProfileDto where
  name : Option JsStr := none
  email : Option JsStr := none
  marketingEmailsOptIn : Option Bool := none
  emailNotificationsEnabled : Option Bool := none
  emailNotifPrefs : Option EmailNotifPrefs := none
  preferredLocale : Option JsStr := none
  preferredCurrency : Option JsStr := none
  deriving DecidableEq

def supportedLocales : List JsStr := [js "en", js "zh-CN", js "ja", js "zh-TW"]

def supportedDisplayCurrencies : List JsStr :=
  [js "USD", js "EUR", js "GBP", js "KRW", js "JPY", js "SGD", js "CAD", js "AUD", js "CHF",
    js "HKD", js "CNY", js "IDR", js "MYR", js "PHP", js "VND", js "THB"]

def canonicalizeLocale (raw : JsStr) : Option JsStr :=
  let value := lower (trim raw)
  if value.isEmpty then none else supportedLocales.find? fun code => lower code = value

namespace User

def setName (u : User) : Option JsStr → Except HttpError User
  | none => .ok u
  | some raw =>
    let name := trim raw
    if name.isEmpty then .error (.badRequest (js "Display name is required"))
    else .ok { u with name := some name }

def setEmail (u : User) : Option JsStr → Except HttpError User
  | none => .ok u
  | some raw =>
    let email := trim (lower raw)
    if email.isEmpty then .error (.badRequest (js "Email is required"))
    else if isWalletOnlyPlaceholderEmail email then
      .error (.badRequest (js "Enter a real email address"))
    else if !isWalletOnlyPlaceholderEmail u.email && u.email ≠ email then
      .error (.badRequest (js "Email is already set on this account"))
    else if u.email ≠ email then .ok { u with email, emailVerified := false }
    else .ok u

def setLocale (u : User) : Option JsStr → Except HttpError User
  | none => .ok u
  | some raw =>
    match canonicalizeLocale raw with
    | none => .error (.badRequest (js "Unsupported language"))
    | some locale => .ok { u with preferredLocale := some locale }

def setCurrency (u : User) : Option JsStr → Except HttpError User
  | none => .ok u
  | some currency =>
    if currency ∈ supportedDisplayCurrencies then .ok { u with preferredCurrency := some currency }
    else .error (.badRequest (js "Unsupported currency"))

def setNotifPrefs (u : User) : Option EmailNotifPrefs → User
  | none => u
  | some prefs =>
    let stored := normalizeEmailNotifPrefs (u.emailNotifPrefs.getD {}) defaultEmailNotifPrefs
    { u with emailNotifPrefs := some (normalizeEmailNotifPrefs prefs stored) }

def applyProfile (u : User) (dto : UpdateProfileDto) : Except HttpError User := do
  let u ← u.setName dto.name
  let u ← u.setEmail dto.email
  let u := { u with
    marketingEmailsOptIn := dto.marketingEmailsOptIn.getD u.marketingEmailsOptIn
    emailNotificationsEnabled := dto.emailNotificationsEnabled.getD u.emailNotificationsEnabled }
  let u := u.setNotifPrefs dto.emailNotifPrefs
  let u ← u.setLocale dto.preferredLocale
  let u ← u.setCurrency dto.preferredCurrency
  pure { u with emailNotifPrefs := some (u.emailNotifPrefs.getD defaultEmailNotifPrefs) }

end User

structure KycTransition where
  status : KycStatus
  provider : Option JsStr := none
  externalId : Option JsStr := none
  reason : Option JsStr := none
  payload : List (JsStr × JsStr) := []
  deriving DecidableEq

def User.kycProviderFor (u : User) (k : KycTransition) : JsStr :=
  (k.provider.or u.kycProvider).getD (js "sumsub")

def User.applyKyc (u : User) (k : KycTransition) (at_ : ℕ) : User :=
  { u with
    kycStatus := k.status
    kycProvider := some (u.kycProviderFor k)
    kycExternalId := k.externalId.or u.kycExternalId
    kycRejectionReason := if k.status = .rejected then k.reason.or u.kycRejectionReason else none
    kycVerifiedAt := if k.status = .approved then some at_ else none }

abbrev UserTable := Db.Table User JsStr User.id

abbrev WalletTable := Db.Table UserWallet JsStr UserWallet.id

abbrev ProviderTable := Db.Table UserAuthProvider JsStr UserAuthProvider.id

structure KycFields where
  status : KycStatus
  verifiedAt : Option ℕ
  provider : Option JsStr
  externalId : Option JsStr
  rejectionReason : Option JsStr
  deriving DecidableEq

def User.kyc (u : User) : KycFields :=
  ⟨u.kycStatus, u.kycVerifiedAt, u.kycProvider, u.kycExternalId, u.kycRejectionReason⟩

/-- The columns of a user row that only `updateProfile` sets. -/
structure Preferences where
  locale : Option JsStr
  currency : Option JsStr
  emailNotifPrefs : Option EmailNotifPrefs
  emailNotificationsEnabled : Bool
  marketingEmailsOptIn : Bool
  deriving DecidableEq

def User.preferences (u : User) : Preferences :=
  ⟨u.preferredLocale, u.preferredCurrency, u.emailNotifPrefs, u.emailNotificationsEnabled,
    u.marketingEmailsOptIn⟩

end Users
