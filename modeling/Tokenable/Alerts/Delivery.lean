import Mathlib.Logic.Function.Basic
import Tokenable.Alerts.Service
import Tokenable.Async.RelyGuarantee

/-!
# A fired alert and its notification

The key that makes the notification of an alert unique has 188 characters for ids of the lengths in
use, and its column has room for 128. So no alert is ever stored, the refusal is logged only, and
the subscription is marked as fired all the same. The alerts are as they should be in every run in
which `markFired` finds nothing to mark.
-/

namespace Alerts
open Js Platform Async Orders Users

/-- The SHA-256 of a collection, in hex. -/
def IsCollectionKey (key : JsStr) : Prop := key.length = 64 ∧ ∀ c ∈ key, isLowerHex c = true

structure ListedOrder where
  order : Order
  collectionKey : ∀ key ∈ order.collectionKey, IsCollectionKey (lower (trim key))
  orderHash : order.orderHash.length = 66

inductive AlertCall where
  | subscribe (userId : UserId) (rawKey : JsStr) (chainId : Option ℕ)
  | unsubscribe (userId : UserId) (rawKey : JsStr) (chainId : Option ℕ)
  | onFirstAskListed (ask : ListedOrder)

def AlertCall.task (env : Env) (texts : Texts) : AlertCall → M Unit
  | .subscribe userId rawKey chainId => Alerts.subscribe env texts userId rawKey chainId
  | .unsubscribe userId rawKey chainId => Alerts.unsubscribe env texts userId rawKey chainId
  | .onFirstAskListed ask => Alerts.onFirstAskListed env texts ask.order

/-- A subscription that has fired has been delivered, and none is delivered twice. -/
def Delivered (s : Store) : Prop :=
  ∀ a ∈ s.alerts.rows, (a.firedAt.isSome = true → 1 ≤ s.delivered a.subscription) ∧
    s.delivered a.subscription ≤ 1

instance (s : Store) : Decidable (Delivered s) := by unfold Delivered; infer_instance

/-- No listing marks a subscription: each of its users has unsubscribed, or has fired, by then. -/
def NothingDue : Allowed Store Cmd
  | _, s, .markFired collectionKey tokenContract userIds =>
    ∀ a ∈ s.alerts.rows, a.isDue collectionKey tokenContract userIds = false
  | _, _, _ => True

instance (i : ℕ) (s : Store) (c : Cmd) : Decidable (NothingDue i s c) := by
  unfold NothingDue
  split <;> infer_instance

/-- What the calls store: active subscriptions, and notifications that are refused. -/
def Refused : Cmd → Prop
  | .upsertAlert alert => alert.firedAt = none
  | .saveNotification _ row => 128 < row.dedupeKey.length
  | _ => True

theorem length_listingDedupeKey (userId : UserId) (collectionKey orderHash : JsStr) :
    (listingDedupeKey userId collectionKey orderHash).length =
      58 + collectionKey.length + orderHash.length := by
  have hprefix : (js "buyer_listing_alert:").length = 20 := by decide
  have hcolon : (js ":").length = 1 := by decide
  unfold listingDedupeKey
  simp only [List.length_append, hprefix, hcolon, userId.property]
  omega

theorem length_lower (s : JsStr) : (lower s).length = s.length := List.length_map _

/-- Lowering and trimming a key again does not shorten it. -/
theorem length_normalized (s : JsStr) :
    (lower (trim (lower (trim s)))).length = (lower (trim s)).length := by
  rw [length_lower, ← lower_trim, trim_trim]

section Commands

theorem refused_emitInbox {subscription : Subscription} {params : EmitInboxParams}
    (h : 128 < params.dedupeKey.length) : (emitInbox subscription params).Issues Refused := by
  unfold emitInbox
  dsimp only
  split_ifs
  · exact Prog.issues_ret _
  · refine Prog.issues_bind (Prog.issues_call trivial) fun existing => ?_
    cases existing with
    | some n => exact Prog.issues_ret _
    | none =>
      refine Prog.issues_bind (Prog.issues_call h) fun saved => ?_
      split <;> exact Prog.issues_ret _

variable {env : Env} {texts : Texts} {ask : Order} {collectionKey tokenContract : JsStr}
  {userIds : List UserId}

theorem refused_notifySubscribers {collection : Option MarketplaceCollection}
    (h : 70 < collectionKey.length + ask.orderHash.length) :
    (notifySubscribers env texts ask collectionKey tokenContract collection userIds).Issues
      Refused := by
  induction userIds with
  | nil => exact Prog.issues_ret _
  | cons userId userIds ih =>
    have hlong : 128 < (listingDedupeKey userId collectionKey ask.orderHash).length := by
      rw [length_listingDedupeKey]
      omega
    refine Prog.issues_bind (Prog.issues_call trivial) fun wallets => ?_
    split
    · exact ih
    · exact Prog.issues_bind (refused_emitInbox hlong) fun _ => ih

theorem refused_notifyBuyerListingAlerts
    (h : 70 < (lower (trim collectionKey)).length + ask.orderHash.length) :
    (notifyBuyerListingAlerts env texts ask collectionKey userIds).Issues Refused := by
  unfold notifyBuyerListingAlerts
  dsimp only
  split_ifs
  · exact Prog.issues_ret _
  · exact Prog.issues_bind (Prog.issues_call trivial) fun collection => refused_notifySubscribers h

theorem refused_onFirstAskListed (ask : ListedOrder) :
    (onFirstAskListed env texts ask.order).Issues Refused := by
  unfold onFirstAskListed
  dsimp only
  split_ifs with hskip
  · exact Prog.issues_ret _
  · have hlong : 70 < (lower (trim (lower (trim (ask.order.collectionKey.getD []))))).length +
        ask.order.orderHash.length := by
      rw [length_normalized, ask.orderHash]
      cases hkey : ask.order.collectionKey with
      | none => exact absurd (by rw [hkey]; rfl) (not_or.mp (not_or.mp (not_or.mp hskip).2).2).1
      | some key =>
        have hlength := (ask.collectionKey key hkey).1
        rw [Option.getD_some]
        omega
    refine Prog.issues_bind (Prog.issues_call trivial) fun activeAskCount => ?_
    split_ifs
    · exact Prog.issues_ret _
    · refine Prog.issues_bind (Prog.issues_call trivial) fun userIds => ?_
      split_ifs with hempty
      · exact Prog.issues_ret _
      · refine Prog.issues_bind (refused_notifyBuyerListingAlerts hlong) fun _ => ?_
        unfold markFired
        rw [if_neg hempty]
        exact Prog.issues_call trivial

theorem refused_normalizeKey (raw : JsStr) : (normalizeKey texts raw).Issues Refused :=
  Prog.issues_bind (Prog.issues_orThrow _ _) fun _ =>
    Prog.issues_bind (Prog.issues_throwIf _ _) fun _ => Prog.issues_ret _

theorem refused_subscribe (userId : UserId) (rawKey : JsStr) (chainId : Option ℕ) :
    (subscribe env texts userId rawKey chainId).Issues Refused := by
  refine Prog.issues_bind (refused_normalizeKey rawKey) fun key => ?_
  refine Prog.issues_bind ?_ fun found => ?_
  · unfold findCollection
    split
    · exact Prog.issues_ret _
    · exact Prog.issues_call trivial
  · refine Prog.issues_bind (Prog.issues_orThrow _ _) fun row => ?_
    refine Prog.issues_bind (Prog.issues_call rfl) fun saved => ?_
    cases saved <;> exact Prog.issues_ret _

theorem refused_unsubscribe (userId : UserId) (rawKey : JsStr) (chainId : Option ℕ) :
    (unsubscribe env texts userId rawKey chainId).Issues Refused := by
  refine Prog.issues_bind (refused_normalizeKey rawKey) fun key => ?_
  refine Prog.issues_bind ?_ fun tokenContract => Prog.issues_call trivial
  cases env.getRwaAddress (chainId.getD env.getDefaultChainId) <;> exact Prog.issues_ret _

theorem refused_task (call : AlertCall) : (call.task env texts).Issues Refused := by
  cases call with
  | subscribe userId rawKey chainId => exact refused_subscribe userId rawKey chainId
  | unsubscribe userId rawKey chainId => exact refused_unsubscribe userId rawKey chainId
  | onFirstAskListed ask => exact refused_onFirstAskListed ask

end Commands

section Step
variable {s : Store} {x : Answer}

theorem delivered_subscribe {a : UserBuyerListingAlert} (ha : a.firedAt = none) (hs : Delivered s) :
    Delivered (s.subscribe a) := by
  intro b hb
  rcases Db.Table.mem_save.mp hb with rfl | ⟨hb, hne⟩
  · refine ⟨fun hfired => absurd (ha ▸ hfired) (by decide), ?_⟩
    unfold Store.subscribe
    dsimp only
    split_ifs with hactive
    · obtain ⟨y, hy, -⟩ := hactive
      have hkey : y.subscription = b.subscription := Db.Table.get_key hy
      exact hkey ▸ (hs y (Db.Table.mem_of_get hy)).2
    · rw [Function.update_self]
      exact Nat.zero_le 1
  · have hsame : (s.subscribe a).delivered b.subscription = s.delivered b.subscription := by
      unfold Store.subscribe
      dsimp only
      split_ifs
      · rfl
      · exact Function.update_of_ne hne _ _
    rw [hsame]
    exact hs b hb

/-- An update that hits no row changes nothing. -/
theorem markFired_of_nothingDue {now : ℕ} {collectionKey tokenContract : JsStr}
    {userIds : List UserId}
    (h : ∀ a ∈ s.alerts.rows, a.isDue collectionKey tokenContract userIds = false) :
    (s.markFired now collectionKey tokenContract userIds).alerts.rows = s.alerts.rows := by
  have hfire : ∀ a ∈ s.alerts.rows, fire now collectionKey tokenContract userIds a = a := by
    intro a ha
    unfold fire
    rw [if_neg (by simp [h a ha])]
  exact (List.map_congr_left hfire).trans (List.map_id' _)

theorem delivered_exec {c : Cmd} {r : Res c} {i : ℕ} {t : Store} (hc : Refused c)
    (hok : NothingDue i s c) (hs : Delivered s) (h : exec i s x c = some (r, t)) : Delivered t := by
  cases c with
  | upsertAlert alert =>
    simp only [exec] at h
    split_ifs at h
    · obtain ⟨-, rfl⟩ := Prod.mk.inj (Option.some.inj h)
      exact delivered_subscribe hc hs
    · obtain ⟨-, rfl⟩ := Prod.mk.inj (Option.some.inj h)
      exact hs
  | deleteAlert subscription =>
    obtain ⟨-, rfl⟩ := Prod.mk.inj (Option.some.inj h)
    exact fun a ha => hs a (Db.Table.mem_remove.mp ha).1
  | saveNotification subscription row =>
    have hwide : ¬ row.Fits := fun hfits => absurd hfits.2.2.2.2 (Nat.not_le.mpr hc)
    simp only [exec, if_pos hwide] at h
    obtain ⟨-, rfl⟩ := Prod.mk.inj (Option.some.inj h)
    exact hs
  | markFired collectionKey tokenContract userIds =>
    obtain ⟨-, rfl⟩ := Prod.mk.inj (Option.some.inj h)
    intro a ha
    rw [markFired_of_nothingDue hok] at ha
    exact hs a ha
  | _ =>
    obtain ⟨-, rfl⟩ := Prod.mk.inj (Option.some.inj h)
    exact hs

end Step

def delivery : Contract Store :=
  Contract.ofPreorder Delivered (fun _ _ => True) (fun _ => trivial) (fun _ _ _ _ _ => trivial)

/-- In every run in which no listing marks an active subscription, every subscription that has fired
was delivered, once. -/
theorem fired_alerts_delivered {env : Env} {texts : Texts} {s : Store}
    {q : Pool Store Cmd Res Failure Unit} (hs : Delivered s)
    (hreach : Pool.Reach exec (AlertCall.task env texts) NothingDue ⟨s, []⟩ q) :
    Delivered q.shared := by
  refine Pool.inv_of_reach (Γ := delivery) (fun call i u hu => ?_) hs hreach
  refine wp_of_issues (K := fun _ => True) (fun _ _ _ _ _ => trivial) ?_ (refused_task call) trivial
  intro c hc t x r v ht _ hok hv
  exact ⟨delivered_exec hc hok ht hv, trivial, trivial⟩

section Runs

def cardKey : JsStr := List.replicate 64 'a'

def rwaContract : JsStr := js "0x" ++ List.replicate 40 'c'

/-- The only active ask for the card: 100 USDC. -/
def firstAsk : ListedOrder where
  order :=
    { id := 1, orderHash := js "0x" ++ List.replicate 64 'e', offerer := js "0x" ++ List.replicate 40 '1'
      side := .ask, tokenContract := rwaContract, tokenId := js "7", collectionKey := some cardKey
      considerationAmount := js "100000000" }
  collectionKey := by
    rintro key hkey
    obtain rfl := Option.some.inj hkey
    have hkept : lower (trim cardKey) = cardKey := by decide
    rw [hkept]
    refine ⟨List.length_replicate, fun c hc => ?_⟩
    rw [List.eq_of_mem_replicate hc]
    decide
  orderHash := by decide

/-- The platform's functions on the amount and the key of `firstAsk`. -/
def plainTexts : Texts where
  formatUsdLabel := fun _ => js "$100"
  encodeURIComponent := id
  decodeURIComponent := some

def watchedChain : Env := { rwaAddresses := [(1, rwaContract)] }

def watcher : UserId := ⟨List.replicate 36 '5', by decide⟩

/-- What every step finds: the ask, its collection and the watcher's wallet. -/
def market : Answer where
  now := 9
  orders := [firstAsk.order]
  collections := [{ collectionKey := cardKey, tokenContract := rwaContract }]
  wallets :=
    [{ id := js "w1", userId := watcher.val, walletAddress := js "0x" ++ List.replicate 40 '2'
       isPrimary := true, linkedAt := 1 }]

def noAlerts : Store := { alerts := Db.Table.empty }

def subscribed : List (Pool.Event AlertCall Answer) :=
  .spawn (.subscribe watcher cardKey (some 1)) :: List.replicate 2 (.run 0 market)

/-- The watcher unsubscribes while the listing is being announced. -/
def lateUnsubscribe : List (Pool.Event AlertCall Answer) :=
  subscribed ++ .spawn (.onFirstAskListed firstAsk) :: List.replicate 6 (.run 1 market) ++
    [.spawn (.unsubscribe watcher cardKey (some 1)), .run 2 market, .run 1 market]

/-- When each subscription has fired, how many notifications are stored, and which calls have
finished. -/
def shown (q : Pool Store Cmd Res Failure Unit) : List (Option ℕ) × ℕ × List Bool :=
  (q.shared.alerts.rows.map UserBuyerListingAlert.firedAt, q.shared.notifications.length,
    q.tasks.map Prog.isSettled)

theorem fired_alerts_delivered_lateUnsubscribe : ∃ q,
    Pool.Reach exec (AlertCall.task watchedChain plainTexts) NothingDue ⟨noAlerts, []⟩ q ∧
      shown q = ([], 0, [true, true, true]) ∧ Delivered q.shared := by
  obtain ⟨q, hq, hshown⟩ : ∃ q,
      Pool.Reach exec (AlertCall.task watchedChain plainTexts) NothingDue ⟨noAlerts, []⟩ q ∧
        shown q = ([], 0, [true, true, true]) :=
    Pool.exists_reach_of_runSchedule lateUnsubscribe shown (by decide +kernel)
  exact ⟨q, hq, hshown, fired_alerts_delivered (by decide) hq⟩

def listedOnce : List (Pool.Event AlertCall Answer) :=
  subscribed ++ .spawn (.onFirstAskListed firstAsk) :: List.replicate 7 (.run 1 market)

/-- The subscription has fired, and no notification is stored. -/
theorem fired_alert_undelivered : Delivered noAlerts ∧ ∃ q,
    Pool.Reach exec (AlertCall.task watchedChain plainTexts) anyStep ⟨noAlerts, []⟩ q ∧
      shown q = ([some 9], 0, [true, true]) ∧ ¬ Delivered q.shared := by
  obtain ⟨q, hq, hshown⟩ : ∃ q,
      Pool.Reach exec (AlertCall.task watchedChain plainTexts) anyStep ⟨noAlerts, []⟩ q ∧
        (shown q, decide (Delivered q.shared)) = (([some 9], 0, [true, true]), false) :=
    Pool.exists_reach_of_runSchedule listedOnce
      (fun q => (shown q, decide (Delivered q.shared))) (by decide +kernel)
  obtain ⟨hshown, hnot⟩ := Prod.mk.inj hshown
  exact ⟨by decide, q, hq, hshown, of_decide_eq_false hnot⟩

end Runs

end Alerts
