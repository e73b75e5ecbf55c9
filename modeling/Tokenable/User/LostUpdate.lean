import Mathlib.Logic.Function.Basic
import Tokenable.Async.RelyGuarantee
import Tokenable.User.Commands

/-!
# Concurrent writers of a user row

Session syncs, KYC transitions and profile updates each load a user row, await other statements and
save the whole row. `Tracked` remembers, for each user, the KYC fields that the last completed
`updateKycStatus` wrote and the settings that the last completed `updateProfile` wrote: both save as
their last command. They are what the row says in every state of every interleaving in which no save
overwrites columns of another writer that have changed since its copy was loaded.
-/

namespace Users
open Js Platform Async

structure Tracked where
  store : Store
  kycWritten : JsStr → KycFields
  preferencesWritten : JsStr → Preferences

/-- The row that a command stores in `users`, with the writer; a new row has no writer yet. -/
def Store.written (s : Store) (x : Tick) : Cmd → Option (Option Writer × User)
  | .insertUser user =>
    if (s.users.get x.newId).isNone && (s.userConflict { user with id := x.newId }).isNone then
      some (none, { user with id := x.newId })
    else none
  | .saveUser writer _ user => if (s.userConflict user).isNone then some (some writer, user) else none
  | _ => none

def Tracked.note (s : Tracked) : Option (Option Writer × User) → Tracked
  | some (none, user) =>
    { s with
      kycWritten := Function.update s.kycWritten user.id user.kyc
      preferencesWritten := Function.update s.preferencesWritten user.id user.preferences }
  | some (some .kyc, user) =>
    { s with kycWritten := Function.update s.kycWritten user.id user.kyc }
  | some (some .profile, user) =>
    { s with preferencesWritten := Function.update s.preferencesWritten user.id user.preferences }
  | some (some .session, _) | some (some .wallets, _) | none => s

def trackedExec : Handler Tracked Tick Cmd Res
  | _, s, x, c =>
    some ((exec s.store x c).1, { s.note (s.store.written x c) with store := (exec s.store x c).2 })

/-- Every row has the KYC fields and the settings that were written last. -/
def UpToDate (s : Tracked) : Prop :=
  ∀ u ∈ s.store.users.rows,
    u.kyc = s.kycWritten u.id ∧ u.preferences = s.preferencesWritten u.id

instance (s : Tracked) : Decidable (UpToDate s) := by unfold UpToDate; infer_instance

/-- The stored row has the columns that the writer carries over from its copy. -/
def Fresh (writer : Writer) (loaded stored : User) : Prop :=
  (writer ≠ .kyc → stored.kyc = loaded.kyc) ∧
    (writer ≠ .profile → stored.preferences = loaded.preferences)

instance (writer : Writer) (loaded stored : User) : Decidable (Fresh writer loaded stored) :=
  inferInstanceAs (Decidable (_ ∧ _))

/-- No save carries over KYC fields or settings that have changed since its copy was loaded. -/
def NoStaleSave : Allowed Tracked Cmd
  | _, s, .saveUser writer loaded _ => ∃ x ∈ s.store.users.get loaded.id, Fresh writer loaded x
  | _, _, _ => True

instance (i : ℕ) (s : Tracked) (c : Cmd) : Decidable (NoStaleSave i s c) := by
  unfold NoStaleSave
  split <;> infer_instance

inductive AccountCall where
  | findOrCreateFromPrivy (params : PrivyParams)
  | updateKycStatus (userId : JsStr) (k : KycTransition)
  | approveKycIfActivePartner (user : User)
  | updateProfile (userId : JsStr) (dto : UpdateProfileDto)

def AccountCall.task (getAddress : JsStr → Option JsStr) : AccountCall → Prog Cmd Res Empty Unit
  | findOrCreateFromPrivy params => (Users.findOrCreateFromPrivy getAddress params).swallow
  | updateKycStatus userId k => (Users.updateKycStatus userId k).swallow
  | approveKycIfActivePartner user => (Users.approveKycIfActivePartner user).swallow
  | updateProfile userId dto => (Users.updateProfile userId dto).swallow

theorem own_task (getAddress : JsStr → Option JsStr) (call : AccountCall) :
    (call.task getAddress).Issues OwnColumns := by
  cases call with
  | findOrCreateFromPrivy params =>
    exact Prog.issues_settle own_findOrCreateFromPrivy fun _ => Prog.issues_ret _
  | updateKycStatus userId k =>
    exact Prog.issues_settle (own_updateKycStatus userId k) fun _ => Prog.issues_ret _
  | approveKycIfActivePartner user =>
    exact Prog.issues_settle (own_approveKycIfActivePartner user) fun _ => Prog.issues_ret _
  | updateProfile userId dto =>
    exact Prog.issues_settle (own_updateProfile userId dto) fun _ => Prog.issues_ret _

section Step
variable {s : Tracked} {x : Tick} {u : User}

/-- A stored row is the only one of its id; the others keep what is written of them. -/
theorem upToDate_saveUser {t : Tracked} (hs : UpToDate s) (husers : t.store.users = s.store.users.save u)
    (hkyc : ∀ id, id ≠ u.id → t.kycWritten id = s.kycWritten id)
    (hpreferences : ∀ id, id ≠ u.id → t.preferencesWritten id = s.preferencesWritten id)
    (hown : u.kyc = t.kycWritten u.id ∧ u.preferences = t.preferencesWritten u.id) : UpToDate t := by
  intro v hv
  rw [husers] at hv
  rcases Db.Table.mem_save.mp hv with rfl | ⟨hv, hne⟩
  · exact hown
  · rw [hkyc v.id hne, hpreferences v.id hne]
    exact hs v hv

theorem upToDate_congr {t : Tracked} (hs : UpToDate s) (husers : t.store.users = s.store.users)
    (hkyc : t.kycWritten = s.kycWritten)
    (hpreferences : t.preferencesWritten = s.preferencesWritten) : UpToDate t := by
  intro v hv
  rw [husers] at hv
  rw [hkyc, hpreferences]
  exact hs v hv

/-- A writer that changes its own columns only, and carries the others over as they are stored. -/
theorem upToDate_note {writer : Writer} {loaded stored : User} (hs : UpToDate s)
    (hown : OwnColumns (.saveUser writer loaded u)) (hstored : s.store.users.get loaded.id = some stored)
    (hfresh : Fresh writer loaded stored) :
    UpToDate { s.note (some (some writer, u)) with store := s.store.saveUser u } := by
  obtain ⟨hskyc, hsprefs⟩ := hs stored (Db.Table.mem_of_get hstored)
  rw [Db.Table.get_key hstored] at hskyc hsprefs
  cases writer with
  | session =>
    have hkyc : stored.kyc = loaded.kyc := hfresh.1 (by decide)
    have hprefs : stored.preferences = loaded.preferences := hfresh.2 (by decide)
    refine upToDate_saveUser hs rfl (fun _ _ => rfl) (fun _ _ => rfl) ⟨?_, ?_⟩
    · exact (hown.kyc.trans hkyc.symm).trans (hown.id ▸ hskyc)
    · exact (hown.preferences.trans hprefs.symm).trans (hown.id ▸ hsprefs)
  | wallets =>
    obtain ⟨hid, hsame, hsame'⟩ := hown
    have hkyc : stored.kyc = loaded.kyc := hfresh.1 (by decide)
    have hprefs : stored.preferences = loaded.preferences := hfresh.2 (by decide)
    refine upToDate_saveUser hs rfl (fun _ _ => rfl) (fun _ _ => rfl) ⟨?_, ?_⟩
    · exact (hsame.trans hkyc.symm).trans (hid ▸ hskyc)
    · exact (hsame'.trans hprefs.symm).trans (hid ▸ hsprefs)
  | kyc =>
    obtain ⟨hid, hsame⟩ := hown
    have hprefs : stored.preferences = loaded.preferences := hfresh.2 (by decide)
    refine upToDate_saveUser hs rfl (fun _ h => Function.update_of_ne h _ _) (fun _ _ => rfl) ⟨?_, ?_⟩
    · exact (Function.update_self u.id u.kyc s.kycWritten).symm
    · exact (hsame.trans hprefs.symm).trans (hid ▸ hsprefs)
  | profile =>
    obtain ⟨hid, hsame⟩ := hown
    have hkyc : stored.kyc = loaded.kyc := hfresh.1 (by decide)
    refine upToDate_saveUser hs rfl (fun _ _ => rfl) (fun _ h => Function.update_of_ne h _ _) ⟨?_, ?_⟩
    · exact (hsame.trans hkyc.symm).trans (hid ▸ hskyc)
    · exact (Function.update_self u.id u.preferences s.preferencesWritten).symm

end Step

/-- What a command does to the user rows. -/
theorem exec_of_written (s : Store) (x : Tick) (c : Cmd) :
    (s.written x c = none ∧ (exec s x c).2.users = s.users) ∨
      ∃ w u, s.written x c = some (w, u) ∧ (exec s x c).2 = s.saveUser u := by
  cases c with
  | insertUser user =>
    simp only [Store.written, exec]
    by_cases hid : s.users.get x.newId = none
    · cases hconflict : s.userConflict { user with id := x.newId } with
      | none => exact .inr ⟨none, { user with id := x.newId }, by simp [hid], by simp [hid]⟩
      | some e => exact .inl ⟨by simp, by simp [hid]⟩
    · have hsome : (s.users.get x.newId).isSome := Option.isSome_iff_ne_none.mpr hid
      exact .inl ⟨by simp [hid], by simp [hsome]⟩
  | saveUser writer loaded user =>
    simp only [Store.written, exec]
    cases hconflict : s.userConflict user with
    | none => exact .inr ⟨some writer, user, by simp, rfl⟩
    | some e => exact .inl ⟨by simp, rfl⟩
  | insertWallet w =>
    simp only [exec]
    split <;> exact .inl ⟨rfl, rfl⟩
  | insertProvider p =>
    simp only [exec, Store.saveProvider]
    split_ifs <;> exact .inl ⟨rfl, rfl⟩
  | saveProvider p =>
    simp only [exec, Store.saveProvider]
    split_ifs <;> exact .inl ⟨rfl, rfl⟩
  | _ => exact .inl ⟨rfl, rfl⟩

theorem upToDate_trackedExec {i : ℕ} {s : Tracked} {x : Tick} {c : Cmd} (hc : OwnColumns c)
    (hok : NoStaleSave i s c) (hs : UpToDate s) :
    UpToDate { s.note (s.store.written x c) with store := (exec s.store x c).2 } := by
  rcases exec_of_written s.store x c with ⟨hnone, husers⟩ | ⟨w, u, hwritten, hstore⟩
  · rw [hnone]
    exact upToDate_congr hs husers rfl rfl
  · rw [hwritten, hstore]
    cases w with
    | none =>
      refine upToDate_saveUser hs rfl (fun _ h => Function.update_of_ne h _ _)
        (fun _ h => Function.update_of_ne h _ _) ⟨?_, ?_⟩
      · exact (Function.update_self u.id u.kyc s.kycWritten).symm
      · exact (Function.update_self u.id u.preferences s.preferencesWritten).symm
    | some writer =>
      obtain ⟨loaded, rfl⟩ : ∃ loaded, c = .saveUser writer loaded u := by
        cases c with
        | saveUser writer' loaded user =>
          simp only [Store.written] at hwritten
          split_ifs at hwritten
          obtain ⟨hwriter, rfl⟩ := Prod.mk.inj (Option.some.inj hwritten)
          obtain rfl := Option.some.inj hwriter
          exact ⟨loaded, rfl⟩
        | insertUser user =>
          simp only [Store.written] at hwritten
          split_ifs at hwritten
          cases hwritten
        | _ => cases hwritten
      obtain ⟨stored, hstored, hfresh⟩ := hok
      exact upToDate_note hs hc hstored hfresh

/-- Tasks that keep the rows up to date and rely on nothing else. -/
def lastWriteWins : Contract Tracked :=
  Contract.ofPreorder UpToDate (fun _ _ => True) (fun _ => trivial) (fun _ _ _ _ _ => trivial)

/-- In every run in which no save carries over columns that have changed since its copy was loaded,
every user row has the KYC fields of the last completed `updateKycStatus` and the settings of the last
completed `updateProfile`. -/
theorem last_write_wins {getAddress : JsStr → Option JsStr} {s : Tracked}
    {q : Pool Tracked Cmd Res Empty Unit} (hs : UpToDate s)
    (hreach : Pool.Reach trackedExec (AccountCall.task getAddress) NoStaleSave ⟨s, []⟩ q) :
    UpToDate q.shared := by
  refine Pool.inv_of_reach (Γ := lastWriteWins) (fun call i u hu => ?_) hs hreach
  refine wp_of_issues (K := fun _ => True) (fun _ _ _ _ _ => trivial) ?_ (own_task getAddress call)
    trivial
  intro c hc t x r v ht _ hok hv
  obtain ⟨-, rfl⟩ := Prod.mk.inj (Option.some.inj hv)
  exact ⟨upToDate_trackedExec hc hok ht, trivial, trivial⟩

section Runs

def bob : User :=
  { id := js "b1", email := js "bob@example.com", name := some (js "Bob"), emailVerified := true,
    privyId := some (js "did:b") }

def bobStore : Tracked where
  store := { emptyStore with users := ⟨[bob], by decide⟩ }
  kycWritten := fun _ => bob.kyc
  preferencesWritten := fun _ => bob.preferences

def bobLogin : AccountCall :=
  .findOrCreateFromPrivy { privyId := js "did:b", email := js "bob@example.com", name := some (js "Bob") }

def bobApproved : AccountCall :=
  .updateKycStatus (js "b1") { status := .approved, provider := some (js "sumsub") }

def oneByOne : List (Pool.Event AccountCall Tick) :=
  .spawn bobApproved :: List.replicate 4 (.run 0 ⟨3, []⟩) ++
    .spawn bobLogin :: List.replicate 7 (.run 1 ⟨4, []⟩)

/-- The login has loaded the row when the approval is stored. -/
def approvalDuringLogin : List (Pool.Event AccountCall Tick) :=
  .spawn bobLogin :: .run 0 ⟨2, []⟩ :: .spawn bobApproved :: List.replicate 4 (.run 1 ⟨3, []⟩) ++
    List.replicate 6 (.run 0 ⟨4, []⟩)

/-- The stored and the written KYC status of each user, and whether every call has finished. -/
def shownStatus (q : Pool Tracked Cmd Res Empty Unit) : List (KycStatus × KycStatus) × Bool :=
  (q.shared.store.users.rows.map fun u => (u.kycStatus, (q.shared.kycWritten u.id).status),
    q.tasks.all Prog.isSettled)

theorem last_write_wins_oneByOne : ∃ q,
    Pool.Reach trackedExec (AccountCall.task digitsAddress) NoStaleSave ⟨bobStore, []⟩ q ∧
      shownStatus q = ([(.approved, .approved)], true) ∧ UpToDate q.shared := by
  obtain ⟨q, hq, hshown⟩ : ∃ q,
      Pool.Reach trackedExec (AccountCall.task digitsAddress) NoStaleSave ⟨bobStore, []⟩ q ∧
        shownStatus q = ([(.approved, .approved)], true) :=
    Pool.exists_reach_of_runSchedule oneByOne shownStatus (by decide)
  exact ⟨q, hq, hshown, last_write_wins (by decide) hq⟩

/-- Every call has finished, and the approval is gone. -/
theorem approval_undone_by_login : UpToDate bobStore ∧ ∃ q,
    Pool.Reach trackedExec (AccountCall.task digitsAddress) anyStep ⟨bobStore, []⟩ q ∧
      shownStatus q = ([(.none, .approved)], true) ∧ ¬ UpToDate q.shared := by
  obtain ⟨q, hq, hshown⟩ : ∃ q,
      Pool.Reach trackedExec (AccountCall.task digitsAddress) anyStep ⟨bobStore, []⟩ q ∧
        shownStatus q = ([(.none, .approved)], true) :=
    Pool.exists_reach_of_runSchedule approvalDuringLogin shownStatus (by decide)
  refine ⟨by decide, q, hq, hshown, fun hup => ?_⟩
  obtain ⟨u, hu, hstatus⟩ := List.mem_map.mp
    (show (KycStatus.none, KycStatus.approved) ∈ (shownStatus q).1 from hshown ▸ List.mem_singleton_self _)
  obtain ⟨hnone, happroved⟩ := Prod.mk.inj hstatus
  have hkyc := congrArg KycFields.status (hup u hu).1
  rw [happroved] at hkyc
  exact absurd (hnone.symm.trans hkyc) (by decide)

end Runs

end Users
