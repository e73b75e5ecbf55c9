import Tokenable.Async.Expand
import Tokenable.User.Commands

/-!
# KYC through Sumsub

The statuses that `sumsub-status.util` derives from an applicant, the gate of `kyc-gate.util` and
the calls of `KycService`, over the account tables and the Sumsub API.
-/

namespace Kyc
open Js Platform Async Users

/-- A JSON value other than `null`, as `String(…)` and a condition see it. -/
structure JsonValue where
  text : JsStr
  isTruthy : Bool := true
  deriving DecidableEq

/-- The text of `String(value ?? '')`. -/
def textOf (value : Option JsonValue) : JsStr := (value.map JsonValue.text).getD []

structure RawReviewResult where
  reviewAnswer : Option JsonValue := none
  rejectLabels : List JsStr := []
  moderationComment : Option JsStr := none
  deriving DecidableEq

structure RawReview where
  reviewStatus : Option JsonValue := none
  reviewResult : Option RawReviewResult := none
  deriving DecidableEq

/-- An applicant as the API returns it; a `review` or `reviewResult` that is no object is `none`, and
`rejectLabels` are the texts of the array. -/
structure RawApplicant where
  id : Option JsonValue := none
  review : Option RawReview := none
  deriving DecidableEq

def mapSumsubReviewToKycStatus (reviewStatus reviewAnswer : JsStr) : Option KycStatus :=
  let status := lower (trim reviewStatus)
  let answer := upper (trim reviewAnswer)
  if status = js "completed" then
    if answer = js "GREEN" then some .approved
    else if answer = js "RED" then some .rejected
    else some .pending
  else if status = js "onhold" || status = js "on_hold" then some .pending
  else if status = js "init" || status.isEmpty then some .none
  else if status ∈ [js "pending", js "prechecked", js "queued"] then some .pending
  else none

def shouldApplyReconcileTransition (current next : KycStatus) : Bool := current ≠ next

structure SumsubApplicantSnapshot where
  id : JsStr
  reviewStatus : JsStr
  reviewAnswer : JsStr
  deriving DecidableEq

def RawApplicant.reviewResult (raw : RawApplicant) : Option RawReviewResult :=
  raw.review.bind RawReview.reviewResult

def parseSumsubApplicant (raw : RawApplicant) : Option SumsubApplicantSnapshot :=
  let id := trim (textOf raw.id)
  if id.isEmpty then none
  else some
    { id
      reviewStatus := textOf (raw.review.bind RawReview.reviewStatus)
      reviewAnswer := textOf (raw.reviewResult.bind RawReviewResult.reviewAnswer) }

def resolveKycStatusFromSumsubApplicant (snapshot : SumsubApplicantSnapshot) : KycStatus :=
  (mapSumsubReviewToKycStatus snapshot.reviewStatus snapshot.reviewAnswer).getD .none

def extractSumsubRejectionReason (reviewResult : Option RawReviewResult) : Option JsStr :=
  reviewResult.bind fun result =>
    if result.rejectLabels.isEmpty then
      (result.moderationComment.map trim).filter fun comment => !comment.isEmpty
    else some ((js ", ").intercalate result.rejectLabels)

/-- The settings of the Sumsub client, and the accounts that pass the gate while it is not
configured. -/
structure Config where
  isConfigured : Bool := true
  devBypassEmails : List JsStr := []
  devBypassWallets : List JsStr := []

/-- Real inbox email only. -/
def sumsubEmailForUser (email : JsStr) : Option JsStr :=
  let trimmed := trim email
  if trimmed.isEmpty || isWalletOnlyPlaceholderEmail trimmed then none else some trimmed

/-- For which of its two uses an applicant is fetched. -/
inductive FetchUse where
  | reconcile | accessToken
  deriving DecidableEq

inductive Cmd where
  | account (c : Users.Cmd)
  | fetchApplicantByExternalUserId (use : FetchUse) (externalUserId : JsStr)
  | createApplicant (externalUserId : JsStr) (email : Option JsStr)
  | createSdkAccessToken (externalUserId : JsStr) (email : Option JsStr)

structure AccessToken where
  token : JsStr
  userId : JsStr
  deriving DecidableEq

abbrev Res : Cmd → Type
  | .account c => Users.Res c
  | .fetchApplicantByExternalUserId .. => Except HttpError (Option RawApplicant)
  | .createApplicant .. => Except HttpError JsStr
  | .createSdkAccessToken .. => Except HttpError AccessToken

/-- What the world outside decides at a step: the time and id of a database step, and the answers of
the API, whose failures the client has turned into errors. -/
structure Answer where
  tick : Tick := {}
  applicant : Except HttpError (Option RawApplicant) := .ok none
  created : Except HttpError JsStr := .ok []
  token : Except HttpError AccessToken := .ok ⟨[], []⟩

def Answer.found (x : Answer) : Option RawApplicant := x.applicant.toOption.join

def exec (s : Store) (x : Answer) : (c : Cmd) → Res c × Store
  | .account c => Users.exec s x.tick c
  | .fetchApplicantByExternalUserId .. => (x.applicant, s)
  | .createApplicant .. => (x.created, s)
  | .createSdkAccessToken .. => (x.token, s)

abbrev M := Prog Cmd Res Failure

def perform (c : Cmd) : M (Res c) := .call c (fun r => .ret (.ok r))

/-- A call of `UserService`. -/
def account {α : Type} (p : Users.M α) : M α := p.expand fun c => perform (.account c)

def attempt {α : Type} : Except HttpError α → M α
  | .ok a => .ret (.ok a)
  | .error e => .ret (.error (.http e))

/-- Admin / partner-grant override. -/
def isAdminKycApproval (user : User) : Bool :=
  user.kycStatus = .approved && user.kycProvider = some (js "admin")

/-- The transition for a user whom the current Sumsub app does not know. -/
def clearTransition (user : User) : Option KycTransition :=
  if isAdminKycApproval user then none
  else if user.kycStatus = .none && !truthy user.kycExternalId then none
  else if !shouldApplyReconcileTransition user.kycStatus .none then none
  else some
    { status := .none, provider := some (js "sumsub"), externalId := none
      payload := [(js "source", js "sumsub_reconcile"), (js "reason", js "applicant_not_found")] }

/-- The transition for a known applicant. -/
def snapshotTransition (user : User) (snapshot : SumsubApplicantSnapshot)
    (reviewResult : Option RawReviewResult) : Option KycTransition :=
  let nextStatus := resolveKycStatusFromSumsubApplicant snapshot
  let reason := if nextStatus = .rejected then extractSumsubRejectionReason reviewResult else none
  let statusUnchanged := user.kycStatus = nextStatus
  let externalIdUnchanged := user.kycExternalId = some snapshot.id
  if statusUnchanged ∧ externalIdUnchanged then none
  else if ¬ statusUnchanged ∧ !shouldApplyReconcileTransition user.kycStatus nextStatus then
    if ¬ externalIdUnchanged then some
      { status := user.kycStatus, provider := some (user.kycProvider.getD (js "sumsub"))
        externalId := some snapshot.id
        payload := [(js "source", js "sumsub_reconcile"), (js "externalIdOnly", js "true")] }
    else none
  else if isAdminKycApproval user ∧ nextStatus ≠ .approved then none
  else some
    { status := nextStatus, provider := some (js "sumsub"), externalId := some snapshot.id, reason
      payload := [(js "source", js "sumsub_reconcile"), (js "reviewStatus", snapshot.reviewStatus),
        (js "reviewAnswer", snapshot.reviewAnswer)] }

/-- What `reconcileUser` decides to write. -/
def reconcileTransition (user : User) : Option RawApplicant → Option KycTransition
  | none => clearTransition user
  | some raw =>
    match parseSumsubApplicant raw with
    | none => none
    | some snapshot => snapshotTransition user snapshot raw.reviewResult

variable (cfg : Config)

/-- Only the fetch is awaited inside the `try`, so a failed `updateKycStatus` is thrown. -/
def reconcileUser (user : User) : M User :=
  if !cfg.isConfigured then pure user
  else do
    let fetched ← perform (.fetchApplicantByExternalUserId .reconcile user.id)
    match fetched with
    | .error _ => pure user
    | .ok raw =>
      match reconcileTransition user raw with
      | none => pure user
      | some k => account (updateKycStatus user.id k)

def normalizeWallet (address : Option JsStr) : JsStr := lower (trim (address.getD []))

def isDevBypassWallet (user : User) : Bool :=
  let primary := normalizeWallet user.walletAddress
  let email := lower (trim user.email)
  (!primary.isEmpty && primary ∈ cfg.devBypassWallets) ||
    (!email.isEmpty && isWalletOnlyPlaceholderEmail email &&
      email.take (email.length - walletOnlyEmailSuffix.length) ∈ cfg.devBypassWallets)

def isInternalDevKycBypass (user : User) : Bool :=
  let email := lower (trim user.email)
  (!email.isEmpty && email ∈ cfg.devBypassEmails) || isDevBypassWallet cfg user

def isKycApprovedForCustody (user : User) : Bool :=
  isInternalDevKycBypass cfg user || user.kycStatus = .approved

def isKycApprovedFromDb (user : User) : Bool := user.kycStatus = .approved

def custodyRefusal : KycStatus → HttpError
  | .pending => .forbidden
    (js "Identity verification is still in progress. Please wait for approval before continuing.")
  | .rejected => .forbidden
    (js "Identity verification was not approved. Please retry KYC before continuing.")
  | _ => .forbidden
    (js "Identity verification is required before vault deposit or physical card redemption.")

def assertKycApprovedForCustody (user : User) : M Unit :=
  Prog.throwIf (!isKycApprovedForCustody cfg user) (.http (custodyRefusal user.kycStatus))

def assertKycApprovedFromDb (user : User) : M Unit :=
  Prog.throwIf (!isKycApprovedFromDb user) (.http (custodyRefusal user.kycStatus))

def assertApprovedForCustody (user : User) : M Unit := do
  let partnerApproved ← account (approveKycIfActivePartner user)
  let synced ← reconcileUser cfg partnerApproved
  if !cfg.isConfigured then assertKycApprovedForCustody cfg synced
  else assertKycApprovedFromDb synced

structure StatusReport where
  status : KycStatus
  provider : Option JsStr
  verifiedAt : Option ℕ
  rejectionReason : Option JsStr
  externalId : Option JsStr
  sumsubConfigured : Bool
  deriving DecidableEq

def getStatus (user : User) : M StatusReport := do
  let partnerApproved ← account (approveKycIfActivePartner user)
  let synced ← reconcileUser cfg partnerApproved
  pure ⟨synced.kycStatus, synced.kycProvider, synced.kycVerifiedAt, synced.kycRejectionReason,
    synced.kycExternalId, cfg.isConfigured⟩

def notConfigured : HttpError := .unavailable
  (js "Sumsub KYC is not configured (SUMSUB_APP_TOKEN, SUMSUB_SECRET_KEY, SUMSUB_LEVEL_NAME)")

/-- The id of an applicant whose `id` is truthy. -/
def RawApplicant.applicantId (raw : RawApplicant) : Option JsStr :=
  (raw.id.filter JsonValue.isTruthy).map JsonValue.text

def getApplicantByExternalUserId (externalUserId : JsStr) : M (Option JsStr) := do
  Prog.throwIf (!cfg.isConfigured) (.http notConfigured)
  let fetched ← perform (.fetchApplicantByExternalUserId .accessToken externalUserId)
  let data ← (attempt fetched : M (Option RawApplicant))
  pure (data.bind RawApplicant.applicantId)

/-- An empty id in the answer is a missing one. -/
def createApplicant (externalUserId : JsStr) (email : Option JsStr) : M JsStr := do
  Prog.throwIf (!cfg.isConfigured) (.http notConfigured)
  let answer ← perform (.createApplicant externalUserId email)
  let id ← (attempt answer : M JsStr)
  Prog.throwIf id.isEmpty (.http (.internal (js "Sumsub applicant id missing in response")))
  pure id

def createSdkAccessToken (externalUserId : JsStr) (email : Option JsStr) : M AccessToken := do
  Prog.throwIf (!cfg.isConfigured) (.http notConfigured)
  let answer ← perform (.createSdkAccessToken externalUserId email)
  let data ← (attempt answer : M AccessToken)
  Prog.throwIf (data.token.isEmpty || data.userId.isEmpty)
    (.http (.internal (js "Sumsub access token missing in response")))
  pure data

/-- The transition by which `createAccessToken` stores the id of the applicant. -/
def linkTransition (synced : User) (applicantId : JsStr) : KycTransition :=
  { status := synced.kycStatus, provider := some (js "sumsub"), externalId := some applicantId
    payload := [(js "source", js "access_token")] }

def findOrCreateApplicant (synced : User) : M JsStr := do
  let existing ← getApplicantByExternalUserId cfg synced.id
  match existing with
  | some id => pure id
  | none => createApplicant cfg synced.id (sumsubEmailForUser synced.email)

def linkApplicant (synced : User) : M Unit := do
  let applicantId ← findOrCreateApplicant cfg synced
  if synced.kycExternalId = some applicantId then pure ()
  else (account (updateKycStatus synced.id (linkTransition synced applicantId))).discard

/-- Opening the SDK keeps `kyc_status` as it is. -/
def ensureApplicant (synced : User) : M Unit :=
  if truthy synced.kycExternalId then pure () else linkApplicant cfg synced

def createAccessToken (user : User) : M AccessToken := do
  let synced ← reconcileUser cfg user
  ensureApplicant cfg synced
  createSdkAccessToken cfg synced.id (sumsubEmailForUser synced.email)

end Kyc
