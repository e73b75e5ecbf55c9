import Tokenable.Async.Serial
import Tokenable.User.Service

/-!
# The commands of the account calls

Each writer of a user row changes the columns it is responsible for and carries the others over from
the copy it loaded. `OwnColumns` says so of a save, and every call issues such saves only. `Quiet`
are the commands of a session sync outside the wallets.
-/

namespace Users
open Js Platform Async

/-- Two copies of a user row that agree on the account, its wallet, its KYC state and its settings. -/
structure CopyOf (loaded u : User) : Prop where
  id : u.id = loaded.id
  walletAddress : u.walletAddress = loaded.walletAddress
  kyc : u.kyc = loaded.kyc
  preferences : u.preferences = loaded.preferences

theorem CopyOf.refl (u : User) : CopyOf u u := ⟨rfl, rfl, rfl, rfl⟩

theorem CopyOf.trans {a b c : User} (hab : CopyOf a b) (hbc : CopyOf b c) : CopyOf a c :=
  ⟨hbc.id.trans hab.id, hbc.walletAddress.trans hab.walletAddress, hbc.kyc.trans hab.kyc,
    hbc.preferences.trans hab.preferences⟩

theorem CopyOf.touch {loaded u : User} (h : CopyOf loaded u) {at_ : Option ℕ} :
    CopyOf loaded { u with lastPrivySyncAt := at_ } :=
  ⟨h.id, h.walletAddress, h.kyc, h.preferences⟩

theorem copyOf_patchProfile (u : User) (p : PrivyParams) : CopyOf u (u.patchProfile p) := by
  have hemail : ∀ v : User, CopyOf v (v.patchEmail p) := fun v => by
    unfold User.patchEmail
    dsimp only
    split_ifs <;> exact ⟨rfl, rfl, rfl, rfl⟩
  have hname : ∀ v : User, CopyOf v (v.patchName p) := fun v => by
    unfold User.patchName
    split_ifs <;> exact ⟨rfl, rfl, rfl, rfl⟩
  have hpicture : ∀ v : User, CopyOf v (v.patchPictureUrl p) := fun v => by
    unfold User.patchPictureUrl
    split_ifs <;> exact ⟨rfl, rfl, rfl, rfl⟩
  have hverified : ∀ v : User, CopyOf v (v.patchEmailVerified p) := fun v => by
    unfold User.patchEmailVerified
    dsimp only
    split
    · exact ⟨rfl, rfl, rfl, rfl⟩
    · split_ifs <;> exact ⟨rfl, rfl, rfl, rfl⟩
  have hgoogle : ∀ v : User, CopyOf v (v.patchGoogleId p) := fun v => by
    unfold User.patchGoogleId
    split_ifs <;> exact ⟨rfl, rfl, rfl, rfl⟩
  exact ((((hemail u).trans (hname _)).trans (hpicture _)).trans (hverified _)).trans (hgoogle _)

/-- The commands of a session sync outside the wallets. -/
def Quiet : Cmd → Prop
  | .insertUser u => u.walletAddress = none
  | .saveUser writer loaded u => writer = .session ∧ CopyOf loaded u
  | .insertWallet _ | .saveWallet _ | .removeWallet _ => False
  | _ => True

/-- What a save of a user row leaves as it was in the loaded copy. -/
def OwnColumns : Cmd → Prop
  | .saveUser .session loaded u => CopyOf loaded u
  | .saveUser .wallets loaded u =>
    u.id = loaded.id ∧ u.kyc = loaded.kyc ∧ u.preferences = loaded.preferences
  | .saveUser .kyc loaded u => u.id = loaded.id ∧ u.preferences = loaded.preferences
  | .saveUser .profile loaded u => u.id = loaded.id ∧ u.kyc = loaded.kyc
  | _ => True

theorem OwnColumns.of_quiet {c : Cmd} (h : Quiet c) : OwnColumns c := by
  cases c with
  | saveUser writer loaded u =>
    obtain ⟨rfl, hcopy⟩ := h
    exact hcopy
  | _ => trivial

section
variable {P : Cmd → Prop} {α : Type}

theorem issues_attempt (r : Except DbError α) : (attempt r).Issues P := by
  cases r <;> exact Prog.issues_ret _

theorem issues_saveUser {writer : Writer} {loaded user : User} (h : P (.saveUser writer loaded user)) :
    (saveUser writer loaded user).Issues P :=
  Prog.issues_bind (Prog.issues_call h) fun _ =>
    Prog.issues_bind (issues_attempt _) fun _ => Prog.issues_ret _

theorem issues_eachDo {f : α → M Unit} (hf : ∀ a, (f a).Issues P) (as : List α) :
    (eachDo f as).Issues P := by
  induction as with
  | nil => exact Prog.issues_ret _
  | cons a as ih => exact Prog.issues_bind (hf a) fun _ => ih

theorem issues_findByIdOrFail (id : JsStr) (h : P (.findUser id)) :
    (findByIdOrFail id).Issues P :=
  Prog.issues_bind (Prog.issues_call h) fun _ => Prog.issues_orThrow _ _

theorem issues_swallow {p : M α} (hp : p.Issues P) : (p.swallow : M Unit).Issues P :=
  Prog.issues_settle hp fun _ => Prog.issues_ret _

end

theorem quiet_saveProvider (p : UserAuthProvider) : (saveProvider p).Issues Quiet :=
  Prog.issues_bind (Prog.issues_call trivial) fun _ => issues_attempt _

theorem quiet_syncAuthProvider (userId : JsStr) (p : ParsedAuthProvider) :
    (syncAuthProvider userId p).Issues Quiet := by
  unfold syncAuthProvider
  dsimp only
  split_ifs
  · exact Prog.issues_ret _
  · refine Prog.issues_bind (Prog.issues_call trivial) fun existing => ?_
    cases existing with
    | some row =>
      dsimp only
      split_ifs
      · exact Prog.issues_ret _
      · exact quiet_saveProvider _
    | none =>
      refine Prog.issues_bind (Prog.issues_call trivial) fun relinked => ?_
      cases relinked with
      | some row =>
        exact Prog.issues_bind (Prog.issues_call trivial) fun _ => quiet_saveProvider _
      | none => exact Prog.issues_bind (Prog.issues_call trivial) fun _ => issues_attempt _

theorem quiet_syncAuthProviders (userId : JsStr) (providers : List ParsedAuthProvider) :
    (syncAuthProviders userId providers).Issues Quiet :=
  Prog.issues_bind (issues_eachDo (quiet_syncAuthProvider userId) providers) fun _ =>
    Prog.issues_bind (Prog.issues_call trivial) fun _ =>
      Prog.issues_bind (Prog.issues_call trivial) fun _ =>
        issues_eachDo (fun _ => quiet_saveProvider _) _

section Patch
variable {loaded user : User} {params : PrivyParams}

theorem CopyOf.patch (h : CopyOf loaded user) : CopyOf loaded (user.patchProfile params) :=
  h.trans (copyOf_patchProfile user params)

theorem CopyOf.withEmail (h : CopyOf loaded user) (email : JsStr) :
    CopyOf loaded { user with email } := ⟨h.id, h.walletAddress, h.kyc, h.preferences⟩

theorem quiet_saveWithStoredEmail (h : CopyOf loaded user) :
    (saveWithStoredEmail loaded user).Issues Quiet := by
  refine Prog.issues_bind (Prog.issues_call trivial) fun fresh => ?_
  cases fresh with
  | none => exact Prog.issues_ret _
  | some stored =>
    exact Prog.issues_bind (issues_swallow (issues_saveUser ⟨rfl, h.withEmail _⟩)) fun _ =>
      Prog.issues_ret _

theorem quiet_patchPrivyProfileIfNeeded (h : CopyOf loaded user) :
    (patchPrivyProfileIfNeeded loaded user params).Issues Quiet := by
  unfold patchPrivyProfileIfNeeded
  dsimp only
  split_ifs
  · exact Prog.issues_ret _
  · refine Prog.issues_bind (Prog.issues_call ⟨rfl, h.patch⟩) fun saved => ?_
    split
    · exact Prog.issues_ret _
    · exact quiet_saveWithStoredEmail h.patch
    · exact Prog.issues_ret _

theorem copyOf_of_yields_saveWithStoredEmail {a : User} (h : CopyOf loaded user)
    (ha : (saveWithStoredEmail loaded user).Yields (fun _ _ => True) (.ok a)) : CopyOf loaded a := by
  obtain ⟨fresh, -, ha⟩ := Prog.yields_bind.mp ha
  cases fresh with
  | none =>
    obtain rfl := Prog.yields_pure.mp ha
    exact h
  | some stored =>
    obtain ⟨u, -, ha⟩ := Prog.yields_bind.mp ha
    obtain rfl := Prog.yields_pure.mp ha
    exact h.withEmail _

/-- The row object keeps the account's wallet, KYC state and settings. -/
theorem copyOf_of_yields {a : User} (h : CopyOf loaded user)
    (ha : (patchPrivyProfileIfNeeded loaded user params).Yields (fun _ _ => True) (.ok a)) :
    CopyOf loaded a := by
  unfold patchPrivyProfileIfNeeded at ha
  dsimp only at ha
  split_ifs at ha
  · obtain rfl := Prog.yields_pure.mp ha
    exact h
  · obtain ⟨saved, -, ha⟩ := Prog.yields_bind.mp ha
    split at ha
    · obtain rfl := Prog.yields_pure.mp ha
      exact h.patch
    · exact copyOf_of_yields_saveWithStoredEmail h.patch ha
    · cases ha

end Patch

/-! ### Every call -/

section Calls
variable {getAddress : JsStr → Option JsStr}

theorem own_linkWallet (user : User) (address : JsStr) (info : WalletMeta) (count : ℕ) :
    (linkWallet user address info count).Issues OwnColumns := by
  refine Prog.issues_bind (Prog.issues_call trivial) fun inserted => ?_
  refine Prog.issues_bind (issues_attempt _) fun row => ?_
  split_ifs
  · exact issues_saveUser ⟨rfl, rfl, rfl⟩
  · exact Prog.issues_ret _

theorem own_addWalletAddress (userId address : JsStr) (info : Option WalletMeta) :
    (addWalletAddress userId address info).Issues OwnColumns := by
  refine Prog.issues_bind (issues_findByIdOrFail _ trivial) fun user => ?_
  refine Prog.issues_bind (Prog.issues_call trivial) fun existing => ?_
  cases existing with
  | some row =>
    cases info with
    | some m =>
      refine Prog.issues_bind ?_ fun _ => Prog.issues_ret _
      exact Prog.issues_bind (Prog.issues_call trivial) fun _ => Prog.issues_ret _
    | none => exact Prog.issues_ret _
  | none => exact Prog.issues_bind (Prog.issues_call trivial) fun count => own_linkWallet _ _ _ _

theorem own_promoteOldest (user : User) : (promoteOldest user).Issues OwnColumns := by
  refine Prog.issues_bind (Prog.issues_call trivial) fun next => ?_
  cases next with
  | some wallet =>
    exact Prog.issues_bind (Prog.issues_call trivial) fun _ => issues_saveUser ⟨rfl, rfl, rfl⟩
  | none => exact issues_saveUser ⟨rfl, rfl, rfl⟩

theorem own_removeWallet (userId address : JsStr) :
    (removeWallet userId address).Issues OwnColumns := by
  refine Prog.issues_bind (issues_findByIdOrFail _ trivial) fun user => ?_
  refine Prog.issues_bind (Prog.issues_call trivial) fun found => ?_
  refine Prog.issues_bind (Prog.issues_orThrow _ _) fun row => ?_
  refine Prog.issues_bind (Prog.issues_call trivial) fun _ => ?_
  split_ifs
  · exact own_promoteOldest user
  · exact Prog.issues_ret _

theorem own_addDesired (userId : JsStr) (links : List ParsedWalletLink)
    (existing : List UserWallet) : (addDesired userId links existing).Issues OwnColumns := by
  induction links generalizing existing with
  | nil => exact Prog.issues_ret _
  | cons link links ih =>
    unfold addDesired
    cases existingByAddress existing link.address with
    | some row =>
      refine Prog.issues_bind ?_ fun patched => ih _
      exact Prog.issues_bind (Prog.issues_call trivial) fun _ => Prog.issues_ret _
    | none =>
      exact Prog.issues_bind (issues_swallow (own_addWalletAddress _ _ _)) fun _ => ih _

theorem own_dropUndesired (userId : JsStr) (desired : List JsStr) (row : UserWallet) :
    (dropUndesired userId desired row).Issues OwnColumns := by
  unfold dropUndesired
  split_ifs
  · exact Prog.issues_ret _
  · exact Prog.issues_ret _
  · exact issues_swallow (own_removeWallet _ _)

theorem own_syncPrivyWallets (userId : JsStr) (links : List ParsedWalletLink) :
    (syncPrivyWallets getAddress userId links).Issues OwnColumns := by
  refine Prog.issues_bind (Prog.issues_call trivial) fun listed => ?_
  refine Prog.issues_bind (own_addDesired _ _ _) fun existing => ?_
  exact issues_eachDo (own_dropUndesired _ _) _

end Calls

/-! ### Logins

A login issues quiet commands outside the sync of the wallets. -/

section Login
variable {getAddress : JsStr → Option JsStr} {params : PrivyParams}
  {Ans : (c : Cmd) → Res c → Prop} {P : Cmd → Prop} {α : Type}

variable (hquiet : ∀ c, Quiet c → P c)
  (hsync : ∀ userId links, (syncPrivyWallets getAddress userId links).IssuesGiven Ans P)
include hquiet

theorem given_of_quiet {p : M α} (hp : p.Issues Quiet) : p.IssuesGiven Ans P :=
  (Prog.issues_mono hquiet hp).given

include hsync

theorem given_syncPrivyIdentity (userId : JsStr) (providers : List ParsedAuthProvider)
    (links : List ParsedWalletLink) :
    (syncPrivyIdentity getAddress userId providers links).IssuesGiven Ans P :=
  Prog.issuesGiven_bind (given_of_quiet hquiet (quiet_syncAuthProviders userId providers)) fun _ _ =>
    hsync userId links

theorem given_finishPrivySessionSync (loaded : User) :
    (finishPrivySessionSync getAddress loaded params).IssuesGiven Ans P := by
  have hpatch : (patchPrivyProfileIfNeeded loaded loaded params).Issues Quiet :=
    quiet_patchPrivyProfileIfNeeded (CopyOf.refl loaded)
  refine Prog.issuesGiven_bind (given_of_quiet hquiet hpatch) fun user huser => ?_
  have hcopy := copyOf_of_yields (CopyOf.refl loaded) (huser.mono fun _ _ _ => trivial)
  refine Prog.issuesGiven_bind (given_syncPrivyIdentity hquiet hsync _ _ _) fun _ _ => ?_
  apply given_of_quiet hquiet
  refine Prog.issues_bind (Prog.issues_call trivial) fun at_ => ?_
  refine Prog.issues_bind (issues_saveUser ⟨rfl, hcopy.touch⟩) fun saved => ?_
  exact Prog.issues_bind (Prog.issues_call trivial) fun _ => Prog.issues_ret _

theorem given_linkRefused (e : DbError) : (linkRefused getAddress params e).IssuesGiven Ans P := by
  unfold linkRefused
  split
  · refine Prog.issuesGiven_bind (Prog.issuesGiven_call (hquiet _ trivial)) fun byPrivy _ => ?_
    cases byPrivy with
    | some user => exact given_finishPrivySessionSync hquiet hsync user
    | none => exact Prog.issuesGiven_ret _
  · exact Prog.issuesGiven_ret _
  · exact Prog.issuesGiven_ret _

theorem given_linkPrivyToExistingUser (loaded : User) :
    (linkPrivyToExistingUser getAddress loaded params).IssuesGiven Ans P := by
  have hlinked : CopyOf loaded { loaded with privyId := some params.privyId } :=
    ⟨rfl, rfl, rfl, rfl⟩
  have hpatch : (patchPrivyProfileIfNeeded loaded _ params).Issues Quiet :=
    quiet_patchPrivyProfileIfNeeded hlinked
  refine Prog.issuesGiven_bind (given_of_quiet hquiet hpatch) fun user huser => ?_
  have hcopy := copyOf_of_yields hlinked (huser.mono fun _ _ _ => trivial)
  refine Prog.issuesGiven_bind (Prog.issuesGiven_call (hquiet _ trivial)) fun at_ _ => ?_
  refine Prog.issuesGiven_bind (Prog.issuesGiven_call (hquiet _ ⟨rfl, hcopy.touch⟩)) fun saved _ => ?_
  split
  · exact given_linkRefused hquiet hsync _
  · refine Prog.issuesGiven_bind (given_syncPrivyIdentity hquiet hsync _ _ _) fun _ _ => ?_
    apply given_of_quiet hquiet
    exact Prog.issues_bind (Prog.issues_call trivial) fun _ => Prog.issues_ret _

omit hsync in
theorem given_findByGoogleId (googleId : JsStr) : (findByGoogleId googleId).IssuesGiven Ans P := by
  unfold findByGoogleId
  split_ifs
  · exact Prog.issuesGiven_ret _
  · exact Prog.issuesGiven_call (hquiet _ trivial)

theorem given_createRefused (e : DbError) :
    (createRefused getAddress params e).IssuesGiven Ans P := by
  unfold createRefused
  split
  · refine Prog.issuesGiven_bind (Prog.issuesGiven_call (hquiet _ trivial)) fun raced _ => ?_
    cases raced with
    | some user => exact given_finishPrivySessionSync hquiet hsync user
    | none => exact Prog.issuesGiven_ret _
  · refine Prog.issuesGiven_bind (given_findByGoogleId hquiet _) fun raced _ => ?_
    cases raced with
    | some user => exact given_linkPrivyToExistingUser hquiet hsync user
    | none => exact Prog.issuesGiven_ret _
  · exact Prog.issuesGiven_ret _
  · exact Prog.issuesGiven_ret _

theorem given_createFromPrivy : (createFromPrivy getAddress params).IssuesGiven Ans P := by
  refine Prog.issuesGiven_bind (Prog.issuesGiven_call (hquiet _ trivial)) fun at_ _ => ?_
  refine Prog.issuesGiven_bind (Prog.issuesGiven_call (hquiet _ rfl)) fun inserted _ => ?_
  split
  · exact given_createRefused hquiet hsync _
  · refine Prog.issuesGiven_bind (given_syncPrivyIdentity hquiet hsync _ _ _) fun _ _ => ?_
    apply given_of_quiet hquiet
    exact Prog.issues_bind (Prog.issues_call trivial) fun _ => Prog.issues_ret _

theorem given_linkOrCreate : (linkOrCreate getAddress params).IssuesGiven Ans P := by
  refine Prog.issuesGiven_bind (given_findByGoogleId hquiet _) fun byGoogle _ => ?_
  cases byGoogle with
  | some user => exact given_linkPrivyToExistingUser hquiet hsync user
  | none =>
    refine Prog.issuesGiven_bind (Prog.issuesGiven_call (hquiet _ trivial)) fun legacyByEmail _ => ?_
    cases legacyByEmail with
    | some user => exact given_linkPrivyToExistingUser hquiet hsync user
    | none => exact given_createFromPrivy hquiet hsync

theorem given_findOrCreateFromPrivy :
    (findOrCreateFromPrivy getAddress params).IssuesGiven Ans P := by
  refine Prog.issuesGiven_bind (Prog.issuesGiven_call (hquiet _ trivial)) fun byPrivy _ => ?_
  cases byPrivy with
  | some user => exact given_finishPrivySessionSync hquiet hsync user
  | none => exact given_linkOrCreate hquiet hsync

end Login

theorem own_findOrCreateFromPrivy {getAddress : JsStr → Option JsStr} {params : PrivyParams} :
    (findOrCreateFromPrivy getAddress params).Issues OwnColumns :=
  Prog.issues_of_given <| given_findOrCreateFromPrivy (fun _ => OwnColumns.of_quiet)
    fun userId links => (own_syncPrivyWallets userId links).given

theorem own_updateKycStatus (userId : JsStr) (k : KycTransition) :
    (updateKycStatus userId k).Issues OwnColumns := by
  refine Prog.issues_bind (issues_findByIdOrFail _ trivial) fun user => ?_
  refine Prog.issues_bind (Prog.issues_call trivial) fun at_ => ?_
  refine Prog.issues_bind (Prog.issues_call trivial) fun _ => ?_
  exact issues_saveUser ⟨rfl, rfl⟩

theorem own_approveKycIfActivePartner (user : User) :
    (approveKycIfActivePartner user).Issues OwnColumns := by
  unfold approveKycIfActivePartner
  split_ifs
  · exact Prog.issues_ret _
  · refine Prog.issues_bind (Prog.issues_call trivial) fun wallets => ?_
    dsimp only
    split_ifs
    · exact Prog.issues_ret _
    · refine Prog.issues_bind (Prog.issues_call trivial) fun partner => ?_
      cases partner with
      | none => exact Prog.issues_ret _
      | some p => exact own_updateKycStatus _ _

theorem except_bind_ok {ε α β : Type} {x : Except ε α} {f : α → Except ε β} {b : β}
    (h : (x >>= f) = .ok b) : ∃ a, x = .ok a ∧ f a = .ok b := by
  cases x with
  | error e => cases h
  | ok a => exact ⟨a, rfl, h⟩

structure SameKyc (u v : User) : Prop where
  id : v.id = u.id
  kyc : v.kyc = u.kyc

theorem SameKyc.refl (u : User) : SameKyc u u := ⟨rfl, rfl⟩

theorem SameKyc.trans {a b c : User} (hab : SameKyc a b) (hbc : SameKyc b c) : SameKyc a c :=
  ⟨hbc.id.trans hab.id, hbc.kyc.trans hab.kyc⟩

theorem sameKyc_setName {u v : User} {name : Option JsStr} (h : u.setName name = .ok v) :
    SameKyc u v := by
  unfold User.setName at h
  split at h
  · exact Except.ok.inj h ▸ SameKyc.refl u
  · dsimp only at h
    split_ifs at h
    exact Except.ok.inj h ▸ ⟨rfl, rfl⟩

theorem sameKyc_setEmail {u v : User} {email : Option JsStr} (h : u.setEmail email = .ok v) :
    SameKyc u v := by
  unfold User.setEmail at h
  split at h
  · exact Except.ok.inj h ▸ SameKyc.refl u
  · dsimp only at h
    split_ifs at h
    · exact Except.ok.inj h ▸ ⟨rfl, rfl⟩
    · exact Except.ok.inj h ▸ SameKyc.refl u

theorem sameKyc_setLocale {u v : User} {locale : Option JsStr} (h : u.setLocale locale = .ok v) :
    SameKyc u v := by
  unfold User.setLocale at h
  split at h
  · exact Except.ok.inj h ▸ SameKyc.refl u
  · split at h
    · cases h
    · exact Except.ok.inj h ▸ ⟨rfl, rfl⟩

theorem sameKyc_setCurrency {u v : User} {currency : Option JsStr}
    (h : u.setCurrency currency = .ok v) : SameKyc u v := by
  unfold User.setCurrency at h
  split at h
  · exact Except.ok.inj h ▸ SameKyc.refl u
  · split_ifs at h
    exact Except.ok.inj h ▸ ⟨rfl, rfl⟩

theorem sameKyc_setNotifPrefs (u : User) (prefs : Option EmailNotifPrefs) :
    SameKyc u (u.setNotifPrefs prefs) := by
  cases prefs <;> exact ⟨rfl, rfl⟩

/-- The profile settings leave the KYC columns alone. -/
theorem sameKyc_applyProfile {u v : User} {dto : UpdateProfileDto}
    (h : u.applyProfile dto = .ok v) : SameKyc u v := by
  obtain ⟨a, ha, h⟩ := except_bind_ok h
  obtain ⟨b, hb, h⟩ := except_bind_ok h
  obtain ⟨c, hc, h⟩ := except_bind_ok h
  obtain ⟨d, hd, h⟩ := except_bind_ok h
  have hflags : SameKyc b { b with
      marketingEmailsOptIn := dto.marketingEmailsOptIn.getD b.marketingEmailsOptIn
      emailNotificationsEnabled :=
        dto.emailNotificationsEnabled.getD b.emailNotificationsEnabled } := ⟨rfl, rfl⟩
  have hbc := (hflags.trans (sameKyc_setNotifPrefs _ dto.emailNotifPrefs)).trans (sameKyc_setLocale hc)
  have hud := (((sameKyc_setName ha).trans (sameKyc_setEmail hb)).trans hbc).trans
    (sameKyc_setCurrency hd)
  exact hud.trans (Except.ok.inj h ▸ ⟨rfl, rfl⟩)

theorem own_updateProfile (userId : JsStr) (dto : UpdateProfileDto) :
    (updateProfile userId dto).Issues OwnColumns := by
  refine Prog.issues_bind (issues_findByIdOrFail _ trivial) fun user => ?_
  split
  · exact Prog.issues_ret _
  · rename_i updated hupdated
    have hsame := sameKyc_applyProfile hupdated
    refine Prog.issues_bind (Prog.issues_call ⟨hsame.id, hsame.kyc⟩) fun saved => ?_
    split <;> exact Prog.issues_ret _

section Calls
variable {Ok : AllowedStep Store Tick Cmd} {s t : Store} {userId : JsStr} {α : Type}

theorem runs_findByIdOrFail {f : User → M α} {o : Except Failure α}
    (h : (findByIdOrFail userId >>= f).Runs exec Ok s o t) :
    ((∃ e, o = .error e) ∧ t = s) ∨ ∃ u, s.users.get userId = some u ∧ (f u).Runs exec Ok s o t := by
  obtain ⟨x, -, h⟩ := h
  cases hu : s.users.get userId with
  | none =>
    simp only [exec, hu] at h
    exact .inl ⟨⟨_, h.1.symm⟩, h.2.symm⟩
  | some u =>
    simp only [exec, hu] at h
    exact .inr ⟨u, rfl, h⟩

/-- A save of a user row, as the last command of a call. -/
theorem runs_saveUser {writer : Writer} {loaded user : User} {o : Except Failure User}
    (h : (saveUser writer loaded user).Runs exec Ok s o t) :
    (∃ x, Ok s x (.saveUser writer loaded user)) ∧
      ((s.userConflict user = none ∧ o = .ok user ∧ t = s.saveUser user) ∨
        ((s.userConflict user).isSome ∧ (∃ e, o = .error e) ∧ t = s)) := by
  obtain ⟨x, hx, h⟩ := h
  refine ⟨⟨x, hx⟩, ?_⟩
  cases hconflict : s.userConflict user with
  | none =>
    simp only [exec, hconflict] at h
    exact .inl ⟨rfl, h.1.symm, h.2.symm⟩
  | some e =>
    simp only [exec, hconflict] at h
    exact .inr ⟨rfl, ⟨_, h.1.symm⟩, h.2.symm⟩

end Calls

def emptyStore : Store where
  users := ⟨[], by decide⟩
  wallets := ⟨[], by decide⟩
  providers := ⟨[], by decide⟩
  kycEvents := []
  partners := []

/-- `getAddress` on addresses without letters, whose checksummed form is the same text. -/
def digitsAddress (address : JsStr) : Option JsStr :=
  if isAddress address then some address else none

end Users
