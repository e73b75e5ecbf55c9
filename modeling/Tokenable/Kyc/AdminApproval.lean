import Tokenable.Kyc.Service

/-!
# An admin's approval and the reconciliation with Sumsub

The approval is the pair of the status `approved` and the provider `admin`. `reconcileUser` protects
the pair, but it and `createAccessToken` also write the provider `sumsub` over it, and an approval
by Sumsub is cleared by a later answer. A run keeps the approval when no answer of the API makes a
call write that provider for an approved user.
-/

namespace Kyc
open Js Platform Async Users

/-- The calls of `KycService`, each started with the user's current row. -/
inductive KycCall where
  | reconcileUser (userId : JsStr)
  | getStatus (userId : JsStr)
  | assertApprovedForCustody (userId : JsStr)
  | createAccessToken (userId : JsStr)

def KycCall.userId : KycCall → JsStr
  | .reconcileUser userId | .getStatus userId | .assertApprovedForCustody userId
  | .createAccessToken userId => userId

def KycCall.body (cfg : Config) (user : User) : KycCall → M Unit
  | .reconcileUser _ => (Kyc.reconcileUser cfg user).discard
  | .getStatus _ => (Kyc.getStatus cfg user).discard
  | .assertApprovedForCustody _ => Kyc.assertApprovedForCustody cfg user
  | .createAccessToken _ => (Kyc.createAccessToken cfg user).discard

def KycCall.task (cfg : Config) (call : KycCall) : M Unit := do
  let user ← account (findByIdOrFail call.userId)
  call.body cfg user

def AdminApproved (userId : JsStr) (s : Store) : Prop :=
  ∃ u, s.users.get userId = some u ∧ isAdminKycApproval u = true

/-- No call is about to write another provider for a user whom an admin has approved: a fetched
applicant that Sumsub has approved, and one that an access token is made for, has the id that the
row has already. -/
def KeepsProvider : AllowedStep Store Answer Cmd
  | s, x, .fetchApplicantByExternalUserId .reconcile userId =>
    ∀ u ∈ s.users.get userId, isAdminKycApproval u = true →
      ∀ snapshot ∈ x.found.bind parseSumsubApplicant,
        resolveKycStatusFromSumsubApplicant snapshot = .approved →
          u.kycExternalId = some snapshot.id
  | s, x, .fetchApplicantByExternalUserId .accessToken userId =>
    ∀ u ∈ s.users.get userId, isAdminKycApproval u = true →
      ∀ id ∈ x.found.bind RawApplicant.applicantId, u.kycExternalId = some id
  | s, x, .createApplicant userId _ =>
    ∀ u ∈ s.users.get userId, isAdminKycApproval u = true →
      ∀ id ∈ x.created.toOption, id.isEmpty = true ∨ u.kycExternalId = some id
  | _, _, _ => True

instance (s : Store) (x : Answer) (c : Cmd) : Decidable (KeepsProvider s x c) := by
  unfold KeepsProvider
  split <;> infer_instance

section Account
variable {α β : Type} {Ok : AllowedStep Store Answer Cmd} {s t : Store}

/-- A call of `UserService` runs as it does on its own. -/
theorem runs_of_account {p : Users.M α} {o : Except Failure α}
    (h : (account p).Runs exec Ok s o t) : p.Runs Users.exec anyAnswer s o t := by
  refine Prog.runs_of_expand (fun c s o t hc => ?_) h
  obtain ⟨x, -, ho, ht⟩ := hc
  exact ⟨x.tick, ho.symm, ht.symm⟩

theorem runs_current {f : User → M β} {id : JsStr} {o : Except Failure β}
    (h : (account (findByIdOrFail id) >>= f).Runs exec Ok s o t) :
    t = s ∨ ∃ u, s.users.get id = some u ∧ (f u).Runs exec Ok s o t := by
  obtain ⟨x, -, h⟩ := h
  cases hu : s.users.get id with
  | none =>
    simp only [exec, Users.exec, hu] at h
    exact .inl h.2.symm
  | some u =>
    simp only [exec, Users.exec, hu] at h
    exact .inr ⟨u, rfl, h⟩

end Account

/-- Nothing but the row of `userId` differs. -/
def OnlyUser (userId : JsStr) (s t : Store) : Prop :=
  ∀ id, id ≠ userId → t.users.get id = s.users.get id

theorem OnlyUser.refl (userId : JsStr) (s : Store) : OnlyUser userId s s := fun _ _ => rfl

theorem OnlyUser.trans {userId : JsStr} {s t u : Store} (hst : OnlyUser userId s t)
    (htu : OnlyUser userId t u) : OnlyUser userId s u :=
  fun id hid => (htu id hid).trans (hst id hid)

section Writes
variable {s t : Store}

theorem onlyUser_updateKycStatus {Ok : AllowedStep Store Tick Users.Cmd} {userId : JsStr}
    {k : KycTransition} {o : Except Failure User}
    (h : (updateKycStatus userId k).Runs Users.exec Ok s o t) :
    OnlyUser userId s t ∧ ∀ u, o = .ok u → u.id = userId := by
  obtain ⟨⟨e, rfl⟩, rfl⟩ | ⟨u, hu, h⟩ := runs_findByIdOrFail h
  · exact ⟨OnlyUser.refl _ _, fun u hu => by cases hu⟩
  · obtain ⟨x, -, y, -, h⟩ := h
    have hid : u.id = userId := Db.Table.get_key hu
    obtain ⟨-, ⟨-, rfl, rfl⟩ | ⟨-, ⟨e, rfl⟩, rfl⟩⟩ := runs_saveUser h
    · refine ⟨fun id hne => ?_, fun u' hu' => ?_⟩
      · exact Db.Table.get_save_of_ne (hid ▸ hne)
      · exact Except.ok.inj hu' ▸ hid
    · exact ⟨OnlyUser.refl _ _, fun u' hu' => by cases hu'⟩

theorem onlyUser_approveKycIfActivePartner {Ok : AllowedStep Store Tick Users.Cmd} {user : User}
    {o : Except Failure User}
    (h : (approveKycIfActivePartner user).Runs Users.exec Ok s o t) :
    OnlyUser user.id s t ∧ ∀ u, o = .ok u → u.id = user.id := by
  have hpure : ∀ {v : Store}, (pure user : Users.M User).Runs Users.exec Ok v o t →
      OnlyUser user.id v t ∧ ∀ u, o = .ok u → u.id = user.id := by
    rintro v ⟨rfl, rfl⟩
    exact ⟨OnlyUser.refl _ _, fun u hu => by rw [Except.ok.inj hu]⟩
  unfold approveKycIfActivePartner at h
  split at h
  · exact hpure h
  · obtain ⟨x, -, h⟩ := Prog.runs_call_bind.mp h
    generalize (Users.exec s x (.listWallets user.id)).1 = wallets at h
    dsimp only [Users.exec] at h
    split at h
    · exact hpure h
    · obtain ⟨y, -, h⟩ := Prog.runs_call_bind.mp h
      simp only [Users.exec] at h
      split at h
      · exact hpure h
      · exact onlyUser_updateKycStatus h

variable {cfg : Config} {Ok : AllowedStep Store Answer Cmd}

theorem onlyUser_reconcileUser {user : User} {o : Except Failure User}
    (h : (reconcileUser cfg user).Runs exec Ok s o t) :
    OnlyUser user.id s t ∧ ∀ u, o = .ok u → u.id = user.id := by
  have hpure : (pure user : M User).Runs exec Ok s o t →
      OnlyUser user.id s t ∧ ∀ u, o = .ok u → u.id = user.id := by
    rintro ⟨rfl, rfl⟩
    exact ⟨OnlyUser.refl _ _, fun u hu => by rw [Except.ok.inj hu]⟩
  unfold reconcileUser at h
  split at h
  · exact hpure h
  · obtain ⟨x, -, h⟩ := Prog.runs_call_bind.mp h
    simp only [exec] at h
    split at h
    · exact hpure h
    · split at h
      · exact hpure h
      · exact onlyUser_updateKycStatus (runs_of_account h)

/-- Both gates and the status report bring the row up to date in this way. -/
theorem onlyUser_sync {β : Type} {user : User} {f : User → M β}
    (hf : ∀ {u : User} {v : Store} {o : Except Failure β}, (f u).Runs exec Ok v o t → v = t)
    {o : Except Failure β}
    (h : (do
      let partnerApproved ← account (approveKycIfActivePartner user)
      let synced ← reconcileUser cfg partnerApproved
      f synced).Runs exec Ok s o t) :
    OnlyUser user.id s t := by
  obtain ⟨a, v, ha, h⟩ | ⟨e, he, -⟩ := Prog.runs_bind.mp h
  · obtain ⟨hv, hid⟩ := onlyUser_approveKycIfActivePartner (runs_of_account ha)
    have hida : a.id = user.id := hid a rfl
    obtain ⟨b, w, hb, h⟩ | ⟨e, he, -⟩ := Prog.runs_bind.mp h
    · obtain rfl := hf h
      exact hv.trans (hida ▸ (onlyUser_reconcileUser hb).1)
    · exact hv.trans (hida ▸ (onlyUser_reconcileUser he).1)
  · exact (onlyUser_approveKycIfActivePartner (runs_of_account he)).1

theorem status_of_isAdminKycApproval {user : User} (h : isAdminKycApproval user = true) :
    user.kycStatus = .approved := by
  unfold isAdminKycApproval at h
  rw [Bool.and_eq_true] at h
  exact of_decide_eq_true h.1

/-- Bringing the row of an approved user up to date changes nothing. -/
theorem runs_approveKycIfActivePartner {Ok : AllowedStep Store Tick Users.Cmd} {user : User}
    {o : Except Failure User} (happroved : isAdminKycApproval user = true)
    (h : (approveKycIfActivePartner user).Runs Users.exec Ok s o t) : o = .ok user ∧ t = s := by
  have hstatus := status_of_isAdminKycApproval happroved
  unfold approveKycIfActivePartner at h
  rw [if_pos hstatus] at h
  exact ⟨h.1.symm, h.2.symm⟩

/-- An applicant that leaves the provider alone calls for no transition. -/
theorem reconcileTransition_eq_none {user : User} {raw : Option RawApplicant}
    (happroved : isAdminKycApproval user = true)
    (hraw : ∀ snapshot ∈ raw.bind parseSumsubApplicant,
      resolveKycStatusFromSumsubApplicant snapshot = .approved →
        user.kycExternalId = some snapshot.id) :
    reconcileTransition user raw = none := by
  have hstatus := status_of_isAdminKycApproval happroved
  cases raw with
  | none => simp [reconcileTransition, clearTransition, happroved]
  | some a =>
    unfold reconcileTransition
    dsimp only
    split
    · rfl
    · rename_i snapshot hsnapshot
      unfold snapshotTransition
      dsimp only
      by_cases hnext : resolveKycStatusFromSumsubApplicant snapshot = .approved
      · rw [if_pos ⟨hstatus.trans hnext.symm, hraw snapshot hsnapshot hnext⟩]
      · rw [if_neg fun hsame => hnext (hsame.1.symm.trans hstatus), if_neg fun hskip => ?_,
          if_pos ⟨happroved, hnext⟩]
        simp [shouldApplyReconcileTransition, hstatus, Ne.symm hnext] at hskip

theorem runs_reconcileUser {user : User} {o : Except Failure User}
    (hu : s.users.get user.id = some user) (happroved : isAdminKycApproval user = true)
    (h : (reconcileUser cfg user).Runs exec KeepsProvider s o t) : o = .ok user ∧ t = s := by
  unfold reconcileUser at h
  split at h
  · exact ⟨h.1.symm, h.2.symm⟩
  · obtain ⟨x, hok, h⟩ := Prog.runs_call_bind.mp h
    simp only [exec] at h
    split at h
    · exact ⟨h.1.symm, h.2.symm⟩
    · rename_i raw hraw
      have hfound : x.found = raw := by
        rw [Answer.found, hraw]
        cases raw <;> rfl
      rw [reconcileTransition_eq_none happroved (hfound ▸ hok user hu happroved)] at h
      exact ⟨h.1.symm, h.2.symm⟩

def IsRequest : Cmd → Prop
  | .account _ => False
  | _ => True

theorem same_of_requests {β : Type} {p : M β} {o : Except Failure β} (hp : p.Issues IsRequest)
    (h : p.Runs exec Ok s o t) : t = s := by
  refine (Prog.runs_keeps (K := fun u => u = s) (fun c hc u x _ hu => ?_) hp h rfl)
  cases c with
  | account c => exact hc.elim
  | _ => exact hu

theorem issues_request {c : Cmd} (hc : IsRequest c) : (perform c).Issues IsRequest :=
  ⟨hc, fun _ => Prog.issues_ret _⟩

theorem issues_answer {β : Type} (r : Except HttpError β) : (attempt r).Issues IsRequest := by
  cases r <;> exact Prog.issues_ret _

theorem requests_findOrCreateApplicant (user : User) :
    (findOrCreateApplicant cfg user).Issues IsRequest := by
  refine Prog.issues_bind ?_ fun existing => ?_
  · refine Prog.issues_bind (Prog.issues_throwIf _ _) fun _ => ?_
    refine Prog.issues_bind (issues_request trivial) fun fetched => ?_
    exact Prog.issues_bind (issues_answer _) fun data => Prog.issues_ret _
  · cases existing with
    | some id => exact Prog.issues_ret _
    | none =>
      refine Prog.issues_bind (Prog.issues_throwIf _ _) fun _ => ?_
      refine Prog.issues_bind (issues_request trivial) fun answer => ?_
      refine Prog.issues_bind (issues_answer _) fun id => ?_
      exact Prog.issues_bind (Prog.issues_throwIf _ _) fun _ => Prog.issues_ret _

theorem requests_createSdkAccessToken (userId : JsStr) (email : Option JsStr) :
    (createSdkAccessToken cfg userId email).Issues IsRequest := by
  refine Prog.issues_bind (Prog.issues_throwIf _ _) fun _ => ?_
  refine Prog.issues_bind (issues_request trivial) fun answer => ?_
  refine Prog.issues_bind (issues_answer _) fun data => ?_
  exact Prog.issues_bind (Prog.issues_throwIf _ _) fun _ => Prog.issues_ret _

theorem onlyUser_ensureApplicant {user : User} {o : Except Failure Unit}
    (h : (ensureApplicant cfg user).Runs exec Ok s o t) : OnlyUser user.id s t := by
  unfold ensureApplicant at h
  split at h
  · exact h.2 ▸ OnlyUser.refl _ _
  · obtain ⟨id, v, hid, hrest⟩ | ⟨e, he, -⟩ := Prog.runs_bind.mp h
    · have hv : v = s := same_of_requests (requests_findOrCreateApplicant user) hid
      rw [hv] at hrest
      split at hrest
      · exact hrest.2 ▸ OnlyUser.refl _ _
      · obtain ⟨r, hr, -⟩ := Prog.runs_discard.mp hrest
        exact (onlyUser_updateKycStatus (runs_of_account hr)).1
    · have ht : t = s := same_of_requests (requests_findOrCreateApplicant user) he
      exact ht ▸ OnlyUser.refl _ _

theorem onlyUser_createAccessToken {user : User} {o : Except Failure AccessToken}
    (h : (createAccessToken cfg user).Runs exec Ok s o t) : OnlyUser user.id s t := by
  obtain ⟨synced, v, hsynced, hrest⟩ | ⟨e, he, -⟩ := Prog.runs_bind.mp h
  · obtain ⟨hv, hid⟩ := onlyUser_reconcileUser hsynced
    have hida : synced.id = user.id := hid synced rfl
    obtain ⟨_, w, hw, htoken⟩ | ⟨e, he, -⟩ := Prog.runs_bind.mp hrest
    · have ht : t = w := same_of_requests (requests_createSdkAccessToken _ _) htoken
      exact ht ▸ hv.trans (hida ▸ onlyUser_ensureApplicant hw)
    · exact hv.trans (hida ▸ onlyUser_ensureApplicant he)
  · exact (onlyUser_reconcileUser he).1

theorem onlyUser_task {call : KycCall} {o : Except Failure Unit}
    (h : (call.task cfg).Runs exec Ok s o t) : OnlyUser call.userId s t := by
  obtain rfl | ⟨u, hu, hbody⟩ := runs_current h
  · exact OnlyUser.refl _ _
  · have hid : u.id = call.userId := Db.Table.get_key hu
    rw [← hid]
    cases call with
    | reconcileUser userId =>
      obtain ⟨r, hr, -⟩ := Prog.runs_discard.mp hbody
      exact (onlyUser_reconcileUser hr).1
    | getStatus userId =>
      obtain ⟨r, hr, -⟩ := Prog.runs_discard.mp hbody
      exact onlyUser_sync (fun hf => (Prog.runs_pure.mp hf).2) hr
    | assertApprovedForCustody userId =>
      refine onlyUser_sync (fun hf => ?_) hbody
      split at hf <;> exact (Prog.runs_throwIf.mp hf).2
    | createAccessToken userId =>
      obtain ⟨r, hr, -⟩ := Prog.runs_discard.mp hbody
      exact onlyUser_createAccessToken hr

theorem externalId_of_createApplicant {user : User} {email : Option JsStr} {id : JsStr}
    (hu : s.users.get user.id = some user) (happroved : isAdminKycApproval user = true)
    (h : (createApplicant cfg user.id email).Runs exec KeepsProvider s (.ok id) t) :
    user.kycExternalId = some id := by
  obtain ⟨_, w, hw, hrest⟩ | ⟨e, -, he⟩ := Prog.runs_bind.mp h
  · obtain rfl : s = w := (Prog.runs_throwIf.mp hw).2
    obtain ⟨x, hok, hdata⟩ := Prog.runs_call_bind.mp hrest
    simp only [exec] at hdata
    cases hcreated : x.created with
    | error e =>
      rw [hcreated] at hdata
      cases hdata.1
    | ok created =>
      rw [hcreated] at hdata
      obtain ⟨a, v, ⟨ha, rfl⟩, hchecked⟩ | ⟨e, -, he⟩ := Prog.runs_bind.mp hdata
      · obtain rfl := Except.ok.inj ha
        obtain ⟨_, u, hthrow, hid⟩ | ⟨e, -, he⟩ := Prog.runs_bind.mp hchecked
        · obtain rfl := Except.ok.inj hid.1
          obtain hempty | hstored := hok user hu happroved created (by rw [hcreated]; rfl)
          · rw [hempty] at hthrow
            cases hthrow.1
          · exact hstored
        · cases he
      · cases he
  · cases he

/-- With the provider kept, the id that an access token is made for is the stored one. -/
theorem externalId_of_findOrCreateApplicant {user : User} {id : JsStr}
    (hu : s.users.get user.id = some user) (happroved : isAdminKycApproval user = true)
    (h : (findOrCreateApplicant cfg user).Runs exec KeepsProvider s (.ok id) t) :
    user.kycExternalId = some id := by
  obtain ⟨existing, v, hexisting, hrest⟩ | ⟨e, -, he⟩ := Prog.runs_bind.mp h
  · obtain ⟨_, w, hw, hget⟩ | ⟨e, -, he⟩ := Prog.runs_bind.mp hexisting
    · obtain rfl : s = w := (Prog.runs_throwIf.mp hw).2
      obtain ⟨x, hok, hdata⟩ := Prog.runs_call_bind.mp hget
      simp only [exec] at hdata
      cases happlicant : x.applicant with
      | error e =>
        rw [happlicant] at hdata
        cases hdata.1
      | ok raw =>
        rw [happlicant] at hdata
        obtain ⟨hdata, rfl⟩ := hdata
        obtain rfl := Except.ok.inj hdata
        cases hfound : raw.bind RawApplicant.applicantId with
        | some found =>
          rw [hfound] at hrest
          obtain rfl := Except.ok.inj hrest.1
          have hx : x.found = raw := by
            rw [Answer.found, happlicant]
            cases raw <;> rfl
          exact hok user hu happroved found (hx ▸ hfound)
        | none =>
          rw [hfound] at hrest
          exact externalId_of_createApplicant hu happroved hrest
    · cases he
  · cases he

theorem runs_ensureApplicant {user : User} {o : Except Failure Unit}
    (hu : s.users.get user.id = some user) (happroved : isAdminKycApproval user = true)
    (h : (ensureApplicant cfg user).Runs exec KeepsProvider s o t) : t = s := by
  unfold ensureApplicant at h
  split at h
  · exact h.2.symm
  · obtain ⟨id, v, hid, hrest⟩ | ⟨e, he, -⟩ := Prog.runs_bind.mp h
    · have hv : v = s := same_of_requests (requests_findOrCreateApplicant user) hid
      rw [if_pos (externalId_of_findOrCreateApplicant hu happroved hid), hv] at hrest
      exact hrest.2.symm
    · exact same_of_requests (requests_findOrCreateApplicant user) he

theorem runs_createAccessToken {user : User} {o : Except Failure AccessToken}
    (hu : s.users.get user.id = some user) (happroved : isAdminKycApproval user = true)
    (h : (createAccessToken cfg user).Runs exec KeepsProvider s o t) : t = s := by
  obtain ⟨synced, v, hsynced, hrest⟩ | ⟨e, he, -⟩ := Prog.runs_bind.mp h
  · obtain ⟨hsame, rfl⟩ := runs_reconcileUser hu happroved hsynced
    obtain rfl := Except.ok.inj hsame
    obtain ⟨_, w, hw, htoken⟩ | ⟨e, he, -⟩ := Prog.runs_bind.mp hrest
    · rw [same_of_requests (requests_createSdkAccessToken _ _) htoken]
      exact runs_ensureApplicant hu happroved hw
    · exact runs_ensureApplicant hu happroved he
  · exact (runs_reconcileUser hu happroved he).2

theorem runs_sync {β : Type} {user : User} {f : User → M β}
    (hf : ∀ {o : Except Failure β}, (f user).Runs exec KeepsProvider s o t → s = t)
    {o : Except Failure β} (hu : s.users.get user.id = some user)
    (happroved : isAdminKycApproval user = true)
    (h : (do
      let partnerApproved ← account (approveKycIfActivePartner user)
      let synced ← reconcileUser cfg partnerApproved
      f synced).Runs exec KeepsProvider s o t) : t = s := by
  obtain ⟨a, v, ha, hrest⟩ | ⟨e, he, -⟩ := Prog.runs_bind.mp h
  · obtain ⟨hsame, rfl⟩ := runs_approveKycIfActivePartner happroved (runs_of_account ha)
    obtain rfl := Except.ok.inj hsame
    obtain ⟨b, w, hb, hlast⟩ | ⟨e, he, -⟩ := Prog.runs_bind.mp hrest
    · obtain ⟨hsynced, rfl⟩ := runs_reconcileUser hu happroved hb
      obtain rfl := Except.ok.inj hsynced
      exact (hf hlast).symm
    · exact (runs_reconcileUser hu happroved he).2
  · exact (runs_approveKycIfActivePartner happroved (runs_of_account he)).2

/-- A call for an approved user changes nothing. -/
theorem runs_task {call : KycCall} {u : User} {o : Except Failure Unit}
    (hu : s.users.get call.userId = some u) (happroved : isAdminKycApproval u = true)
    (h : (call.task cfg).Runs exec KeepsProvider s o t) : t = s := by
  obtain ht | ⟨user, huser, hbody⟩ := runs_current h
  · exact ht
  · obtain rfl := Option.some.inj (hu.symm.trans huser)
    have hid : u.id = call.userId := Db.Table.get_key hu
    rw [← hid] at hu
    cases call with
    | reconcileUser userId =>
      obtain ⟨r, hr, -⟩ := Prog.runs_discard.mp hbody
      exact (runs_reconcileUser hu happroved hr).2
    | getStatus userId =>
      obtain ⟨r, hr, -⟩ := Prog.runs_discard.mp hbody
      refine runs_sync (fun hf => ?_) hu happroved hr
      exact (Prog.runs_pure.mp hf).2
    | assertApprovedForCustody userId =>
      refine runs_sync (fun hf => ?_) hu happroved hbody
      split at hf <;> exact (Prog.runs_throwIf.mp hf).2
    | createAccessToken userId =>
      obtain ⟨r, hr, -⟩ := Prog.runs_discard.mp hbody
      exact runs_createAccessToken hu happroved hr

theorem adminApproved_task {call : KycCall} {userId : JsStr} {o : Except Failure Unit}
    (hs : AdminApproved userId s) (h : (call.task cfg).Runs exec KeepsProvider s o t) :
    AdminApproved userId t := by
  obtain ⟨u, hu, happroved⟩ := hs
  by_cases hcall : call.userId = userId
  · rw [runs_task (hcall ▸ hu) happroved h]
    exact ⟨u, hu, happroved⟩
  · exact ⟨u, (onlyUser_task h userId (Ne.symm hcall)).trans hu, happroved⟩

end Writes

/-- In every sequence of calls in which no answer of the API makes a call write another provider for
a user whom an admin has approved, the approval stays. -/
theorem admin_approval_survives {cfg : Config} {cs : List (KycCall × Except Failure Unit)}
    {s t : Store} {userId : JsStr} {u : User} (hu : s.users.get userId = some u)
    (hstatus : u.kycStatus = .approved) (hprovider : u.kycProvider = some (js "admin"))
    (hrun : Calls exec KeepsProvider (KycCall.task cfg) cs s t) :
    ∃ v, t.users.get userId = some v ∧ v.kycStatus = .approved := by
  have hs : AdminApproved userId s := ⟨u, hu, by simp [isAdminKycApproval, hstatus, hprovider]⟩
  obtain ⟨v, hv, happroved⟩ : AdminApproved userId t :=
    calls_keep (fun c _ _ _ hcall hw => adminApproved_task hw hcall) hrun hs
  exact ⟨v, hv, status_of_isAdminKycApproval happroved⟩

section Runs

def carol : User :=
  { id := js "c1", email := js "carol@example.com", kycStatus := .approved, kycVerifiedAt := some 1,
    kycProvider := some (js "admin") }

def carolStore : Store := { emptyStore with users := ⟨[carol], by decide⟩ }

def applicant (answer : JsStr) : RawApplicant where
  id := some ⟨js "app-1", true⟩
  review := some
    { reviewStatus := some ⟨js "completed", true⟩
      reviewResult := some { reviewAnswer := some ⟨answer, true⟩ } }

def harmlessAnswers : List (KycCall × Answer) :=
  [(.reconcileUser (js "c1"), { applicant := .ok (some (applicant (js "RED"))) }),
    (.assertApprovedForCustody (js "c1"), { applicant := .ok none }),
    (.createAccessToken (js "c1"), { applicant := .error (.internal (js "Sumsub API error (500)")) })]

theorem admin_approval_survives_harmlessAnswers : ∃ cs t,
    Calls exec KeepsProvider (KycCall.task {}) cs carolStore t ∧ cs.length = 3 ∧
      ∃ v, t.users.get (js "c1") = some v ∧ v.kycStatus = .approved := by
  obtain ⟨r, hr, hlength⟩ : ∃ r, tryCalls exec KeepsProvider (KycCall.task {}) harmlessAnswers
      carolStore = some r ∧ r.1.length = 3 := by decide
  have hrun := calls_of_tryCalls hr
  exact ⟨r.1, r.2, hrun, hlength,
    admin_approval_survives (u := carol) (by decide) (by decide) (by decide) hrun⟩

/-- An applicant that Sumsub approves takes the approval over, and is gone at the next call. -/
def approvedThenMissing : List (KycCall × Answer) :=
  [(.getStatus (js "c1"), { applicant := .ok (some (applicant (js "GREEN"))) }),
    (.getStatus (js "c1"), { applicant := .ok none })]

theorem admin_approval_cleared : carolStore.users.get (js "c1") = some carol ∧
    isAdminKycApproval carol = true ∧ ∃ cs t,
      Calls exec anyAnswer (KycCall.task {}) cs carolStore t ∧
        t.users.rows.map User.kycStatus = [.none] := by
  obtain ⟨cs, t, hrun, ht⟩ : ∃ cs t, Calls exec anyAnswer (KycCall.task {}) cs carolStore t ∧
      t.users.rows.map User.kycStatus = [.none] :=
    exists_calls_of_tryCalls approvedThenMissing
      (fun t : Store => t.users.rows.map User.kycStatus) (by decide)
  exact ⟨by decide, by decide, cs, t, hrun, ht⟩

end Runs

end Kyc
