import Tokenable.Kyc.AdminApproval

/-!
# Webhooks of Sumsub

A payload names a user, by id or by applicant, and may carry the state of a review. It is applied when
the transition guard lets it. A run of deliveries is one call after the other, in any order and with
repetitions.
-/

namespace Kyc.Webhook
open Js Platform Async Users

/-- The fields of a payload that the handler reads; a body or a `reviewResult` that is no object has
none. -/
structure Payload where
  externalUserId : Option JsonValue := none
  applicantId : Option JsonValue := none
  type : Option JsonValue := none
  reviewStatus : Option JsonValue := none
  reviewResult : Option RawReviewResult := none
  deriving DecidableEq

namespace Payload
variable (p : Payload)

def user : JsStr := trim (textOf p.externalUserId)

def applicant : JsStr := trim (textOf p.applicantId)

def eventType : JsStr := trim (textOf p.type)

def status : JsStr := trim (textOf p.reviewStatus)

def answer : JsStr := trim (textOf (p.reviewResult.bind RawReviewResult.reviewAnswer))

def isWaiting : Bool :=
  p.eventType ∈ [js "applicantPending", js "applicantOnHold", js "applicantAwaitingUser",
    js "applicantAwaitingService"]

def nextStatus : Option KycStatus :=
  match mapSumsubReviewToKycStatus p.status p.answer with
  | some next => some next
  | none => if p.isWaiting then some .pending else none

end Payload

def shouldApplyKycTransition (current next : KycStatus) : Bool :=
  if current = next then false
  else if current = .approved ∧ next = .pending then false
  else if current = .rejected ∧ next = .pending then true
  else true

def transition (p : Payload) (user : User) : Option KycTransition :=
  match p.nextStatus with
  | none => none
  | some next =>
    if !shouldApplyKycTransition user.kycStatus next then none
    else some
      { status := next
        provider := some (js "sumsub")
        externalId := if p.applicant.isEmpty then user.kycExternalId else some p.applicant
        reason := if next = .rejected then extractSumsubRejectionReason p.reviewResult else none
        payload := [(js "source", js "sumsub_webhook"), (js "type", p.eventType),
          (js "reviewStatus", p.status)] ++
            if p.answer.isEmpty then [] else [(js "reviewAnswer", p.answer)] }

inductive Cmd where
  | account (c : Users.Cmd)
  | findByKycExternalId (externalId : JsStr)

abbrev Res : Cmd → Type
  | .account c => Users.Res c
  | .findByKycExternalId _ => Option User

def exec (s : Store) (x : Tick) : (c : Cmd) → Res c × Store
  | .account c => Users.exec s x c
  | .findByKycExternalId externalId =>
    (s.users.rows.find? fun u => u.kycExternalId = some externalId, s)

abbrev M := Prog Cmd Res Failure

def perform (c : Cmd) : M (Res c) := .call c fun r => .ret (.ok r)

def account {α : Type} (p : Users.M α) : M α := p.expand fun c => perform (.account c)

def findByKycExternalId (externalId : JsStr) : M (Option User) :=
  if externalId.isEmpty then pure none
  else perform (.findByKycExternalId externalId)

def findByUserId (id : JsStr) : M (Option User) :=
  if id.isEmpty then pure none else account (findById id)

def findUser (p : Payload) : M (Option User) := do
  let byId ← findByUserId p.user
  match byId with
  | some user => pure (some user)
  | none => findByKycExternalId p.applicant

/-- The `updated` of the response. -/
def handlePayload (p : Payload) : M Bool := do
  let found ← findUser p
  match found with
  | none => pure false
  | some user =>
    match transition p user with
    | none => pure false
    | some k => do
      let _ ← account (updateKycStatus user.id k)
      pure true

def Payload.userIn (p : Payload) (s : Store) : Option User :=
  let byId := if p.user.isEmpty then none else s.users.get p.user
  byId.or
    (if p.applicant.isEmpty then none
    else s.users.rows.find? fun u => u.kycExternalId = some p.applicant)

section Calls
variable {p : Payload} {s t : Store} {Ok : AllowedStep Store Tick Cmd}

theorem mem_of_userIn {user : User} (h : p.userIn s = some user) : user ∈ s.users.rows := by
  unfold Payload.userIn at h
  rcases Option.or_eq_some_iff.mp h with h | ⟨-, h⟩
  · split_ifs at h
    exact Db.Table.mem_of_get h
  · split_ifs at h
    exact List.mem_of_find?_eq_some h

theorem runs_account {α : Type} {q : Users.M α} {o : Except Failure α}
    (h : (account q).Runs exec Ok s o t) : q.Runs Users.exec anyAnswer s o t := by
  refine Prog.runs_of_expand (fun c s o t hc => ?_) h
  obtain ⟨x, -, ho, ht⟩ := hc
  exact ⟨x, ho.symm, ht.symm⟩

theorem runs_findByKycExternalId {id : JsStr} {o : Except Failure (Option User)}
    (h : (findByKycExternalId id).Runs exec Ok s o t) : o = .ok (if id.isEmpty then none
      else s.users.rows.find? fun u => u.kycExternalId = some id) ∧ t = s := by
  unfold findByKycExternalId at h
  by_cases hid : id.isEmpty = true
  · rw [if_pos hid] at h ⊢
    exact ⟨h.1.symm, h.2.symm⟩
  · rw [if_neg hid] at h ⊢
    obtain ⟨x, -, h⟩ := h
    exact ⟨h.1.symm, h.2.symm⟩

theorem runs_findByUserId {id : JsStr} {o : Except Failure (Option User)}
    (h : (findByUserId id).Runs exec Ok s o t) :
    o = .ok (if id.isEmpty then none else s.users.get id) ∧ t = s := by
  unfold findByUserId at h
  by_cases hid : id.isEmpty = true
  · rw [if_pos hid] at h ⊢
    exact ⟨h.1.symm, h.2.symm⟩
  · rw [if_neg hid] at h ⊢
    obtain ⟨x, -, h⟩ := h
    exact ⟨h.1.symm, h.2.symm⟩

theorem runs_findUser {o : Except Failure (Option User)} (h : (findUser p).Runs exec Ok s o t) :
    o = .ok (p.userIn s) ∧ t = s := by
  unfold Payload.userIn
  dsimp only
  rcases Prog.runs_bind.mp h with ⟨byId, u, hbyId, h⟩ | ⟨e, herror, -⟩
  · obtain ⟨hbyId, rfl⟩ := runs_findByUserId hbyId
    rw [← Except.ok.inj hbyId]
    cases byId with
    | some user => exact ⟨h.1.symm, h.2.symm⟩
    | none =>
      rw [Option.none_or]
      exact runs_findByKycExternalId h
  · obtain ⟨herror, -⟩ := runs_findByUserId herror
    cases herror

/-- A call changes nothing but the row of its user, and that by its transition. -/
theorem runs_handlePayload {o : Except Failure Bool} (h : (handlePayload p).Runs exec Ok s o t) :
    (o = .ok false ∧ t = s ∧ ∀ user, p.userIn s = some user → transition p user = none) ∨
      ∃ user k, p.userIn s = some user ∧ transition p user = some k ∧
        ((o = .ok true ∧ ∃ at_, t.users = s.users.save (user.applyKyc k at_)) ∨
          (∃ e, o = .error e) ∧ t.users = s.users) := by
  unfold handlePayload at h
  rcases Prog.runs_bind.mp h with ⟨found, u, hfound, hbody⟩ | ⟨e, herror, -⟩
  · obtain ⟨hfound, rfl⟩ := runs_findUser hfound
    rw [Except.ok.inj hfound] at hbody
    cases huser : p.userIn u with
    | none =>
      rw [huser] at hbody
      exact .inl ⟨hbody.1.symm, hbody.2.symm, fun user huser' => by cases huser'⟩
    | some user =>
      rw [huser] at hbody
      dsimp only at hbody
      cases hk : transition p user with
      | none =>
        rw [hk] at hbody
        refine .inl ⟨hbody.1.symm, hbody.2.symm, fun user' huser' => ?_⟩
        rw [← Option.some.inj huser']
        exact hk
      | some k =>
        rw [hk] at hbody
        refine .inr ⟨user, k, rfl, hk, ?_⟩
        have hget : u.users.get user.id = some user := Db.Table.get_of_mem (mem_of_userIn huser)
        rcases Prog.runs_bind.mp hbody with ⟨saved, v, hsaved, hend⟩ | ⟨e, herror, rfl⟩
        · obtain ⟨⟨e, he⟩, -⟩ | ⟨user', huser', hrest⟩ := runs_findByIdOrFail (runs_account hsaved)
          · cases he
          · rw [hget, Option.some.injEq] at huser'
            subst huser'
            obtain ⟨x, -, y, -, hrest⟩ := hrest
            obtain ⟨-, ⟨-, -, rfl⟩ | ⟨-, ⟨e, he⟩, -⟩⟩ := runs_saveUser hrest
            · exact .inl ⟨hend.1.symm, x.now, by rw [← hend.2]; rfl⟩
            · cases he
        · obtain ⟨-, rfl⟩ | ⟨user', huser', hrest⟩ := runs_findByIdOrFail (runs_account herror)
          · exact .inr ⟨⟨e, rfl⟩, rfl⟩
          · obtain ⟨x, -, y, -, hrest⟩ := hrest
            obtain ⟨-, ⟨-, he, -⟩ | ⟨-, -, rfl⟩⟩ := runs_saveUser hrest
            · cases he
            · exact .inr ⟨⟨e, rfl⟩, rfl⟩
  · obtain ⟨herror, -⟩ := runs_findUser herror
    cases herror

end Calls

section Evidence

def Payload.CarriesStatus (p : Payload) : Prop := p.status ≠ []

/-- A completed review whose answer is `GREEN`. -/
def Payload.IsGreen (p : Payload) : Prop :=
  lower p.status = js "completed" ∧ upper p.answer = js "GREEN"

/-- What the law asks of a call that was started with the tables `s` and has ended with `t`. -/
structure OnEvidence (p : Payload) (s t : Store) : Prop where
  away : ∀ id u v, s.users.get id = some u → t.users.get id = some v → u.kycStatus = .approved →
    v.kycStatus ≠ .approved → p.CarriesStatus
  approves : ∀ id u v, s.users.get id = some u → t.users.get id = some v → u.kycStatus ≠ .approved →
    v.kycStatus = .approved → p.IsGreen
  waits : p.isWaiting = true → ¬ p.CarriesStatus → ∀ u, p.userIn s = some u →
    ∀ v, t.users.get u.id = some v → v.kycStatus ≠ .none

/-- The payload carries a status, or it is about no approved user and is of no waiting type. -/
def Guarded (p : Payload) (s : Store) : Prop :=
  p.CarriesStatus ∨ ∀ u, p.userIn s = some u → u.kycStatus ≠ .approved ∧ p.isWaiting = false

variable {p : Payload} {s t : Store} {Ok : AllowedStep Store Tick Cmd}

/-- Without a status the payload stands for the status `none`: the types are not consulted. -/
theorem nextStatus_of_blank (h : ¬ p.CarriesStatus) : p.nextStatus = some .none := by
  unfold Payload.CarriesStatus at h
  rw [not_not] at h
  unfold Payload.nextStatus
  rw [h]
  rfl

theorem isGreen_of_nextStatus (h : p.nextStatus = some .approved) : p.IsGreen := by
  have hstatus : lower (trim p.status) = lower p.status := by
    unfold Payload.status
    rw [trim_trim]
  have hanswer : upper (trim p.answer) = upper p.answer := by
    unfold Payload.answer
    rw [trim_trim]
  unfold Payload.nextStatus mapSumsubReviewToKycStatus at h
  dsimp only at h
  rw [hstatus, hanswer] at h
  by_cases hcompleted : lower p.status = js "completed"
  · by_cases hgreen : upper p.answer = js "GREEN"
    · exact ⟨hcompleted, hgreen⟩
    · rw [if_pos hcompleted, if_neg hgreen] at h
      split_ifs at h <;> cases h
  · rw [if_neg hcompleted] at h
    split_ifs at h <;> cases h

theorem transition_eq_some {user : User} {k : KycTransition} (h : transition p user = some k) :
    p.nextStatus = some k.status ∧ shouldApplyKycTransition user.kycStatus k.status = true := by
  unfold transition at h
  cases hnext : p.nextStatus with
  | none =>
    rw [hnext] at h
    cases h
  | some next =>
    rw [hnext] at h
    dsimp only at h
    by_cases hguard : shouldApplyKycTransition user.kycStatus next = true
    · rw [hguard] at h
      obtain rfl := Option.some.inj h
      exact ⟨rfl, hguard⟩
    · rw [Bool.not_eq_true] at hguard
      rw [hguard] at h
      cases h

/-- The rows after a call that has made a transition. -/
theorem status_after {user : User} {k : KycTransition} {at_ : ℕ}
    (htable : t.users = s.users.save (user.applyKyc k at_)) {id : JsStr} {u v : User}
    (hu : s.users.get id = some u) (hv : t.users.get id = some v) :
    v.kycStatus = if id = user.id then k.status else u.kycStatus := by
  rw [htable] at hv
  by_cases hid : id = user.id
  · have hself : (s.users.save (user.applyKyc k at_)).get user.id = some (user.applyKyc k at_) :=
      Db.Table.get_save_self s.users (user.applyKyc k at_)
    rw [hid, hself, Option.some.injEq] at hv
    rw [if_pos hid, ← hv]
    rfl
  · have hne : id ≠ (user.applyKyc k at_).id := hid
    rw [Db.Table.get_save_of_ne hne, hu, Option.some.injEq] at hv
    rw [if_neg hid, hv]

/-- A call that leaves the users as they are keeps the law, but for a waiting payload. -/
theorem statuses_kept {id : JsStr} {u v : User} (h : t.users = s.users)
    (hu : s.users.get id = some u) (hv : t.users.get id = some v) : v = u := by
  rw [h, hu, Option.some.injEq] at hv
  exact hv.symm

theorem onEvidence_of_guarded {r : Bool} (h : (handlePayload p).Runs exec Ok s (.ok r) t)
    (hguarded : Guarded p s) : OnEvidence p s t := by
  obtain ⟨-, rfl, hnone⟩ | ⟨user, k, huser, hk, ⟨-, at_, htable⟩ | ⟨⟨e, he⟩, -⟩⟩ :=
    runs_handlePayload h
  · refine ⟨fun id u v hu hv ha hn => ?_, fun id u v hu hv hn ha => ?_, fun hw hblank u hu => ?_⟩
    · rw [statuses_kept rfl hu hv] at hn
      exact absurd ha hn
    · rw [statuses_kept rfl hu hv] at ha
      exact absurd ha hn
    · rcases hguarded with hcarries | hother
      · exact absurd hcarries hblank
      · rw [(hother u hu).2] at hw
        cases hw
  · obtain ⟨hnext, happly⟩ := transition_eq_some hk
    refine ⟨fun id u v hu hv ha hn => ?_, fun id u v hu hv hn ha => ?_, fun hw hblank u hu => ?_⟩
    · rw [status_after htable hu hv] at hn
      by_cases hid : id = user.id
      · rw [hid, Db.Table.get_of_mem (mem_of_userIn huser), Option.some.injEq] at hu
        subst hu
        rcases hguarded with hcarries | hother
        · exact hcarries
        · exact absurd ha (hother user huser).1
      · rw [if_neg hid] at hn
        exact absurd ha hn
    · rw [status_after htable hu hv] at ha
      by_cases hid : id = user.id
      · rw [if_pos hid] at ha
        rw [ha] at hnext
        exact isGreen_of_nextStatus hnext
      · rw [if_neg hid] at ha
        exact absurd ha hn
    · rcases hguarded with hcarries | hother
      · exact absurd hcarries hblank
      · rw [(hother u hu).2] at hw
        cases hw
  · cases he

theorem guarded_of_onEvidence {r : Bool} (h : (handlePayload p).Runs exec Ok s (.ok r) t)
    (hlaw : OnEvidence p s t) : Guarded p s := by
  by_cases hcarries : p.CarriesStatus
  · exact .inl hcarries
  refine .inr fun u hu => ?_
  have hget : s.users.get u.id = some u := Db.Table.get_of_mem (mem_of_userIn hu)
  have hnone : ∃ v, t.users.get u.id = some v ∧ v.kycStatus = .none := by
    obtain ⟨-, rfl, hkeep⟩ | ⟨user, k, huser, hk, ⟨-, at_, htable⟩ | ⟨⟨e, he⟩, -⟩⟩ :=
      runs_handlePayload h
    · refine ⟨u, hget, ?_⟩
      have hkept := hkeep u hu
      unfold transition at hkept
      rw [nextStatus_of_blank hcarries] at hkept
      dsimp only at hkept
      split_ifs at hkept with hguard
      unfold shouldApplyKycTransition at hguard
      by_contra hne
      rw [if_neg hne] at hguard
      revert hguard
      cases u.kycStatus <;> decide
    · rw [hu, Option.some.injEq] at huser
      subst huser
      refine ⟨u.applyKyc k at_, ?_, ?_⟩
      · rw [htable]
        exact Db.Table.get_save_self s.users (u.applyKyc k at_)
      · have hstatus := (transition_eq_some hk).1
        rw [nextStatus_of_blank hcarries, Option.some.injEq] at hstatus
        exact hstatus.symm
    · cases he
  obtain ⟨v, hv, hstatus⟩ := hnone
  refine ⟨fun happroved => ?_, ?_⟩
  · refine hcarries (hlaw.away u.id u v hget hv happroved ?_)
    rw [hstatus]
    decide
  · rw [← Bool.not_eq_true]
    intro hw
    exact hlaw.waits hw hcarries u hu v hv hstatus

/-- A call that fails changes no status. -/
theorem users_of_error {e : Failure} (h : (handlePayload p).Runs exec Ok s (.error e) t) :
    t.users = s.users := by
  obtain ⟨he, -⟩ | ⟨user, k, -, -, ⟨he, -⟩ | ⟨-, htable⟩⟩ := runs_handlePayload h
  · cases he
  · cases he
  · exact htable

end Evidence

section Runs

/-- A delivery: its payload, its outcome, and the tables before and after it. -/
structure Delivery where
  payload : Payload
  outcome : Except Failure Bool
  before : Store
  after : Store

/-- The deliveries follow one another, whatever the clock and the ids are. -/
inductive Delivered : List Delivery → Store → Store → Prop where
  | nil (s : Store) : Delivered [] s s
  | cons (d : Delivery) (ds : List Delivery) (t : Store)
      (hrun : (handlePayload d.payload).Runs exec anyAnswer d.before d.outcome d.after)
      (hrest : Delivered ds d.after t) : Delivered (d :: ds) d.before t

/-- In every run, a delivery that ends changes approvals on evidence only, if and only if its payload
carries a status or is about no approved user and of no waiting type; one that fails changes none. -/
theorem approvals_on_evidence {ds : List Delivery} {s t : Store} (h : Delivered ds s t) :
    ∀ d ∈ ds, (∀ r, d.outcome = .ok r →
        (OnEvidence d.payload d.before d.after ↔ Guarded d.payload d.before)) ∧
      ∀ e, d.outcome = .error e → d.after.users = d.before.users := by
  induction h with
  | nil s => exact fun d hd => by cases hd
  | cons d ds t hrun _ ih =>
    intro d' hd'
    rcases List.mem_cons.mp hd' with rfl | hd'
    · refine ⟨fun r hr => ?_, fun e he => ?_⟩
      · rw [hr] at hrun
        exact ⟨guarded_of_onEvidence hrun, onEvidence_of_guarded hrun⟩
      · rw [he] at hrun
        exact users_of_error hrun
    · exact ih d' hd'

def approvedUser : User where
  id := js "u1"
  email := js "ann@example.com"
  kycStatus := .approved
  kycExternalId := some (js "a1")

def oneApproved : Store := { emptyStore with users := ⟨[approvedUser], List.nodup_singleton _⟩ }

def redReview : Payload where
  applicantId := some ⟨js "a1", true⟩
  type := some ⟨js "applicantReviewed", true⟩
  reviewStatus := some ⟨js "completed", true⟩
  reviewResult := some { reviewAnswer := some ⟨js "RED", true⟩ }

theorem approvals_on_evidence_red : ∃ d : Delivery,
    d.payload = redReview ∧ d.outcome = .ok true ∧ OnEvidence d.payload d.before d.after := by
  have hplay : (((handlePayload redReview).tryPlay exec anyAnswer {} oneApproved).map Prod.fst) =
      some (.ok true) := by decide +kernel
  obtain ⟨⟨o, t⟩, hr, rfl : o = .ok true⟩ := Option.map_eq_some_iff.mp hplay
  have hdelivered : Delivered [⟨redReview, .ok true, oneApproved, t⟩] oneApproved t :=
    .cons ⟨redReview, .ok true, oneApproved, t⟩ [] t (Prog.runs_of_tryPlay hr) (.nil t)
  have hlaw := approvals_on_evidence hdelivered _ List.mem_cons_self
  have hcarries : redReview.status ≠ [] := by decide +kernel
  exact ⟨_, rfl, rfl, (hlaw.1 true rfl).mpr (.inl hcarries)⟩

def onHold : Payload where
  applicantId := some ⟨js "a1", true⟩
  type := some ⟨js "applicantOnHold", true⟩

/-- An applicant on hold, without a review status, loses the approval and has not started. -/
theorem hold_clears_approval : ∃ t,
    (handlePayload onHold).Runs exec anyAnswer oneApproved (.ok true) t ∧
      (t.users.get (js "u1")).map User.kycStatus = some .none ∧ onHold.isWaiting = true ∧
        onHold.status = [] := by
  have hplay : ((handlePayload onHold).tryPlay exec anyAnswer {} oneApproved).map
      (fun r => (r.1, (r.2.users.get (js "u1")).map User.kycStatus)) =
      some (.ok true, some .none) := by decide +kernel
  obtain ⟨⟨o, t⟩, hr, hpair⟩ := Option.map_eq_some_iff.mp hplay
  obtain ⟨rfl, hstatus⟩ := Prod.mk.inj hpair
  exact ⟨t, Prog.runs_of_tryPlay hr, hstatus, by decide +kernel, by decide +kernel⟩

end Runs

end Kyc.Webhook
