import Tokenable.Async.Pool
import Tokenable.Custody.Intake
import Tokenable.Redeem.RefundWrites

/-!
# Tracking numbers and refunds

A refund looks at the tracking numbers of its rows, but a tracking number is entered without a look at
the refund status. No row has both in any run in which a number is entered only on rows that have not
been refunded.
-/

namespace Custody
open Js Platform Async Vault Redeem

inductive TrackingCall where
  | updateTracking (id trackingNumber : JsStr) (trackingCarrier : Option JsStr)
  | updateTrackingBatch (batchId : JsStr) (params : TrackingParams)
  | refundUsdcBatch (batchId : JsStr)
  | returnNft (id : JsStr)
  | refundFullBatch (batchId : JsStr)
  | confirmCustodyTransfers (batchId : JsStr) (transfers : List (ℕ × JsStr)) (chainId : ℕ)

def TrackingCall.task (cfg : Config) : TrackingCall → M Unit
  | .updateTracking id trackingNumber carrier => Custody.updateTracking id trackingNumber carrier
  | .updateTrackingBatch batchId params => Custody.updateTrackingBatch cfg batchId params
  | .refundUsdcBatch batchId => (admin (Redeem.refundUsdcBatch cfg.env batchId)).discard
  | .returnNft id => (admin (Redeem.returnNft cfg.env id)).discard
  | .refundFullBatch batchId => (admin (Redeem.refundFullBatch cfg.env batchId)).discard
  | .confirmCustodyTransfers batchId transfers chainId =>
    Custody.confirmCustodyTransfers cfg batchId transfers chainId

def Exclusive (r : VaultRedemption) : Prop := isTracked r = true → r.refundStatus = .none

instance (r : VaultRedemption) : Decidable (Exclusive r) := by unfold Exclusive; infer_instance

/-- A tracking number is entered only on a row without a refund. -/
def TracksUnrefunded : Cmd → Prop
  | .redeem (.saveRedemptions rows) =>
    ∀ p ∈ rows, isTracked p.1 = false → isTracked p.2 = true → p.1.refundStatus = .none
  | _ => True

instance (c : Cmd) : Decidable (TracksUnrefunded c) := by
  unfold TracksUnrefunded
  split <;> infer_instance

/-- Rows as they are in a table without a tracked and refunded one. -/
def Answered : (c : LockCmd JsStr ⊕ Cmd) → LockRes JsStr Res c → Prop
  | .inr (.redeem (.findBatch _)), (rows : List VaultRedemption) => ∀ r ∈ rows, Exclusive r
  | .inr (.redeem (.findRedemption _)), (found : Option VaultRedemption) => ∀ r ∈ found, Exclusive r
  | .inr (.findBatchOnChain ..), (rows : List VaultRedemption) => ∀ r ∈ rows, Exclusive r
  | _, _ => True

/-- A save keeps the refund status when it leaves or enters a tracking number. -/
def KeepsExclusive : LockCmd JsStr ⊕ Cmd → Prop
  | .inr (.redeem (.saveRedemptions rows)) =>
    ∀ p ∈ rows, isTracked p.2 = true →
      (isTracked p.1 = false → p.1.refundStatus = .none) → p.2.refundStatus = .none
  | _ => True

theorem isTracked_applyUsdcRefundFields (r : VaultRedemption) (h m : JsStr) (a : ℕ) :
    isTracked (r.applyUsdcRefundFields h m a) = isTracked r := by
  unfold VaultRedemption.applyUsdcRefundFields
  dsimp only
  split_ifs <;> rfl

theorem isTracked_applyNftReturnFields (r : VaultRedemption) (h : JsStr) (a : ℕ) :
    isTracked (r.applyNftReturnFields h a) = isTracked r := by
  unfold VaultRedemption.applyNftReturnFields
  dsimp only
  split_ifs <;> rfl

/-- The refunds save rows without a tracking number. -/
theorem refundSaves_keepsExclusive :
    RefundSaves (adminAns Answered) (adminCmd KeepsExclusive) where
  lock _ := trivial
  read c hc := by
    cases c with
    | saveRedemptions rows => exact absurd rfl (hc rows)
    | _ => trivial
  usdc batchId rows _ hrefundable txHash amountMicros at_ := by
    intro p hp htracked
    obtain ⟨r, hr, rfl⟩ := List.mem_map.mp hp
    rw [isTracked_applyUsdcRefundFields] at htracked
    cases htracked.symm.trans (untracked_of_assertRefundable hrefundable r hr)
  nft id found _ r _ hrefundable txHash at_ := by
    intro p hp htracked
    obtain rfl := List.mem_singleton.mp hp
    rw [isTracked_applyNftReturnFields] at htracked
    cases htracked.symm.trans
      (untracked_of_assertRefundable hrefundable r (List.mem_singleton_self r))

theorem refundStatus_track_eq (r : VaultRedemption) (trackingNumber : JsStr) (carrier : Option JsStr)
    (at_ : ℕ) : (track r trackingNumber carrier at_).refundStatus = r.refundStatus := by
  unfold track
  split_ifs <;> rfl

/-- Entering a number keeps the refund status of a row that has none, or has a number already. -/
theorem refundStatus_track {r : VaultRedemption} {trackingNumber : JsStr} {carrier : Option JsStr}
    {at_ : ℕ} (hr : Exclusive r) (hnew : isTracked r = false → r.refundStatus = .none) :
    (track r trackingNumber carrier at_).refundStatus = .none := by
  rw [refundStatus_track_eq]
  cases htracked : isTracked r with
  | true => exact hr htracked
  | false => exact hnew htracked

section Calls
variable {cfg : Config} {α β : Type}

abbrev Given (p : M α) : Prop := p.IssuesGiven Answered KeepsExclusive

theorem given_updateTracking (id trackingNumber : JsStr) (carrier : Option JsStr) :
    Given (updateTracking id trackingNumber carrier) := by
  refine given_admin trivial fun found hfound => ?_
  refine given_orThrow fun row hrow => given_throwIf fun _ => given_throwIf fun _ => ?_
  refine given_admin trivial fun at_ _ => ⟨fun p hp _ hnew => ?_, fun _ _ => trivial⟩
  obtain rfl := List.mem_singleton.mp hp
  exact refundStatus_track (hfound row hrow) hnew

theorem given_updateTrackingBatch (batchId : JsStr) (params : TrackingParams) :
    Given (updateTrackingBatch cfg batchId params) := by
  refine given_throwIf fun _ => given_throwIf fun _ => given_admin trivial fun rows hrows => ?_
  refine given_throwIf fun _ => given_throwIf fun _ => given_admin trivial fun at_ _ => ?_
  refine Prog.issuesGiven_call_bind trivial fun tokens _ => given_throwIf fun _ => given_throwIf fun _ => ?_
  refine given_throwIf fun _ => ⟨fun p hp _ hnew => ?_, fun _ _ => trivial⟩
  obtain ⟨r, hr, rfl⟩ := List.mem_map.mp hp
  exact refundStatus_track (hrows r (List.mem_filter.mp hr).1) hnew

theorem given_task (call : TrackingCall) : Given (call.task cfg) := by
  cases call with
  | updateTracking id trackingNumber carrier => exact given_updateTracking id trackingNumber carrier
  | updateTrackingBatch batchId params => exact given_updateTrackingBatch batchId params
  | refundUsdcBatch batchId =>
    exact given_discard (issuesGiven_admin (refundSaves_keepsExclusive.refundUsdcBatch batchId))
  | returnNft id => exact given_discard (issuesGiven_admin (refundSaves_keepsExclusive.returnNft id))
  | refundFullBatch batchId =>
    exact given_discard (issuesGiven_admin (refundSaves_keepsExclusive.refundFullBatch batchId))
  | confirmCustodyTransfers batchId transfers chainId =>
    refine given_confirmCustodyTransfers (fun c hc => ?_) (fun id found hfound r hr _ txHash at_ => ?_)
      batchId transfers chainId
    · rcases c with c | _ | _ | _ | _ | _ | _ | _ | _
      · cases c with
        | saveRedemptions rows => exact absurd rfl (hc rows)
        | _ => trivial
      all_goals trivial
    · intro p hp htracked _
      obtain rfl := List.mem_singleton.mp hp
      exact hfound r hr htracked

end Calls

/-- The handler of concurrent calls: a step can block only on a batch lock. -/
def concurrently (cfg : Config) :
    Handler (Locked JsStr Store) Answer (LockCmd JsStr ⊕ Cmd) (LockRes JsStr Res) :=
  lockedHandler fun _ s x c => some (exec cfg s x c)

abbrev EntersUnrefunded : Allowed (Locked JsStr Store) (LockCmd JsStr ⊕ Cmd) :=
  lockedAllowed fun _ _ c => TracksUnrefunded c

def AllExclusive (s : Locked JsStr Store) : Prop :=
  ∀ r ∈ s.mem.db.redemptions.rows, Exclusive r

section Step
variable {cfg : Config} {s : Store} {x : Answer}

theorem answered_exec {c : Cmd} (hs : ∀ r ∈ s.db.redemptions.rows, Exclusive r) :
    Answered (.inr c) (exec cfg s x c).1 := by
  rcases c with c | _ | _ | _ | _ | _ | _ | _ | _
  · cases c with
    | findBatch batchId => exact fun r hr => hs r (mem_batch.mp hr).1
    | findRedemption id => exact fun r hr => hs r (Db.Table.mem_of_get hr)
    | _ => trivial
  · trivial
  · trivial
  · trivial
  · trivial
  · exact fun r hr => hs r (Db.Table.mem_find.mp (VaultRedemption.mem_oldestFirst.mp hr)).1
  · trivial
  · trivial
  · trivial

theorem allExclusive_step {i : ℕ} {s t : Locked JsStr Store} {c : LockCmd JsStr ⊕ Cmd}
    {r : LockRes JsStr Res c} (hs : AllExclusive s) (hc : KeepsExclusive c)
    (hok : EntersUnrefunded i s c) (h : concurrently cfg i s x c = some (r, t)) :
    Answered c r ∧ AllExclusive t := by
  rcases c with l | c
  · obtain ⟨locks, -, heq⟩ := Option.map_eq_some_iff.mp h
    obtain ⟨-, rfl⟩ := Prod.mk.inj heq
    exact ⟨trivial, hs⟩
  · obtain ⟨rfl, rfl⟩ := Prod.mk.inj (Option.some.inj h)
    refine ⟨answered_exec hs, fun r hr => ?_⟩
    dsimp only at hr
    rw [redemptions_exec] at hr
    split at hr
    · rename_i rows
      rcases Db.Table.mem_saveAll hr with hnew | ⟨hold, -⟩
      · obtain ⟨p, hp, rfl⟩ := List.mem_map.mp hnew
        intro htracked
        exact hc p hp htracked fun huntracked => hok p hp huntracked htracked
      · exact hs r hold
    · exact hs r hr

end Step

/-- In every run, interleaved or not, in which tracking numbers are entered only on rows without a
refund, no row has both a tracking number and a refund. -/
theorem tracking_excludes_refund {cfg : Config} {s : Locked JsStr Store}
    {q : Pool (Locked JsStr Store) (LockCmd JsStr ⊕ Cmd) (LockRes JsStr Res) HttpError Unit}
    (hs : ∀ r ∈ s.mem.db.redemptions.rows, isTracked r = true → r.refundStatus = .none)
    (hreach : Pool.Reach (concurrently cfg) (TrackingCall.task cfg) EntersUnrefunded ⟨s, []⟩ q) :
    ∀ r ∈ q.shared.mem.db.redemptions.rows, isTracked r = true → r.refundStatus = .none := by
  have hstart : AllExclusive s := hs
  refine Pool.keeps_of_issuesGiven (K := AllExclusive) (fun i u x c r v hu hc hok hv => ?_)
    (fun call => given_task call) hstart hreach
  exact allExclusive_step hu hc hok hv

section Runs

def unlockedStart (s : Store) :
    Pool (Locked JsStr Store) (LockCmd JsStr ⊕ Cmd) (LockRes JsStr Res) HttpError Unit :=
  ⟨⟨Locks.unheld, s⟩, []⟩

def trackCard : TrackingCall := .updateTracking (js "r1") (js " TN1 ") none

def trackThenRefund : List (Pool.Event TrackingCall Answer) :=
  .spawn trackCard :: List.replicate 3 (.run 0 (minedAs "0x01")) ++
    .spawn (.refundUsdcBatch (js "b")) :: List.replicate 4 (.run 1 (minedAs "0x02"))

/-- The tracking number and the refund status of each row, and which calls have finished. -/
def shownTracking
    (q : Pool (Locked JsStr Store) (LockCmd JsStr ⊕ Cmd) (LockRes JsStr Res) HttpError Unit) :
    List (Option JsStr × RefundStatus) × List Bool :=
  (q.shared.mem.db.redemptions.rows.map fun r => (r.trackingNumber, r.refundStatus),
    q.tasks.map Prog.isSettled)

theorem tracking_excludes_refund_trackThenRefund : ∃ q,
    Pool.Reach (concurrently sepolia) (TrackingCall.task sepolia) EntersUnrefunded
      (unlockedStart (oneCard custodyCard custodyAddress)) q ∧
      shownTracking q = ([(some (js "TN1"), .none)], [true, true]) ∧
      ∀ r ∈ q.shared.mem.db.redemptions.rows, isTracked r = true → r.refundStatus = .none := by
  obtain ⟨q, hq, hshown⟩ : ∃ q,
      Pool.Reach (concurrently sepolia) (TrackingCall.task sepolia) EntersUnrefunded
        (unlockedStart (oneCard custodyCard custodyAddress)) q ∧
        shownTracking q = ([(some (js "TN1"), .none)], [true, true]) :=
    Pool.exists_reach_of_runSchedule trackThenRefund shownTracking (by decide)
  exact ⟨q, hq, hshown, tracking_excludes_refund (by decide) hq⟩

def refundThenTrack : List (Pool.Event TrackingCall Answer) :=
  .spawn (.refundUsdcBatch (js "b")) :: List.replicate 8 (.run 0 (minedAs "0x01")) ++
    .spawn trackCard :: List.replicate 3 (.run 1 (minedAs "0x02"))

theorem refunded_row_tracked :
    (∀ r ∈ (oneCard custodyCard custodyAddress).db.redemptions.rows,
      isTracked r = true → r.refundStatus = .none) ∧
    ∃ q, Pool.Reach (concurrently sepolia) (TrackingCall.task sepolia) anyStep
      (unlockedStart (oneCard custodyCard custodyAddress)) q ∧
      shownTracking q = ([(some (js "TN1"), .usdcRefunded)], [true, true]) :=
  ⟨by decide, Pool.exists_reach_of_runSchedule refundThenTrack shownTracking (by decide)⟩

end Runs

end Custody
