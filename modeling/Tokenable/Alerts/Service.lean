import Tokenable.Async.Pool
import Tokenable.Orders.Order
import Tokenable.Platform.Config
import Tokenable.User.Account

/-!
# Buyer listing alerts

`BuyerListingAlertService` and the part of `NotificationsService` that delivers its alerts: a buyer
subscribes to a collection, the first active ask on it stores a notification for every subscriber,
and the subscriptions are marked as fired. The order book, the collections and the linked wallets
belong to other services and are what a step finds them to be.
-/

namespace Alerts
open Js Platform Async Orders Users

/-- The id of a user: a `uuid` column, as text. -/
abbrev UserId := { s : JsStr // s.length = 36 }

structure UserBuyerListingAlert where
  userId : UserId
  collectionKey : JsStr
  tokenContract : JsStr
  firedAt : Option ℕ := none
  deriving DecidableEq

/-- The columns of the unique constraint. -/
abbrev Subscription := UserId × JsStr × JsStr

def UserBuyerListingAlert.subscription (a : UserBuyerListingAlert) : Subscription :=
  (a.userId, a.collectionKey, a.tokenContract)

abbrev AlertTable := Db.Table UserBuyerListingAlert Subscription UserBuyerListingAlert.subscription

structure NotificationPayload where
  eventKey : JsStr
  collectionKey : JsStr
  askOrderHash : JsStr
  tokenId : Option JsStr
  lowestAskMicros : JsStr
  cardLabel : JsStr
  imageUrl : Option JsStr
  ctaLabel : JsStr
  href : JsStr
  deriving DecidableEq

structure MarketplaceNotification where
  recipientWallet : JsStr
  chainId : ℕ
  type : JsStr
  title : JsStr
  body : JsStr
  dedupeKey : JsStr
  payload : NotificationPayload
  deriving DecidableEq

structure MarketplaceCollection where
  collectionKey : JsStr
  tokenContract : JsStr
  displayLabel : Option JsStr := none
  coverImageUrl : Option JsStr := none
  deriving DecidableEq

inductive DbError where
  | valueTooLong | checkViolation | uniqueViolation
  deriving DecidableEq

inductive Failure where
  | http (e : HttpError)
  | db (e : DbError)
  | uri
  deriving DecidableEq

/-- The widths of the `varchar` columns. -/
def MarketplaceNotification.Fits (n : MarketplaceNotification) : Prop :=
  n.recipientWallet.length ≤ 42 ∧ n.type.length ≤ 16 ∧ n.title.length ≤ 160 ∧ n.body.length ≤ 400 ∧
    n.dedupeKey.length ≤ 128

instance (n : MarketplaceNotification) : Decidable n.Fits := by
  unfold MarketplaceNotification.Fits
  infer_instance

/-- The tables, and how many alerts have been stored in the current period of each subscription. -/
structure Store where
  alerts : AlertTable
  notifications : List MarketplaceNotification := []
  delivered : Subscription → ℕ := fun _ => 0

/-- A saved notification names the subscription that it is for, which has no effect on the row. -/
inductive Cmd where
  | findCollection (collectionKey tokenContract : JsStr)
  | findCollectionRow (collectionKey tokenContract : JsStr)
  | upsertAlert (alert : UserBuyerListingAlert)
  | deleteAlert (subscription : Subscription)
  | countActiveAsks (collectionKey tokenContract : JsStr)
  | listActiveSubscribers (collectionKey tokenContract : JsStr)
  | listWallets (userId : UserId)
  | findNotification (recipientWallet dedupeKey : JsStr)
  | saveNotification (subscription : Subscription) (row : MarketplaceNotification)
  | markFired (collectionKey tokenContract : JsStr) (userIds : List UserId)

abbrev Res : Cmd → Type
  | .findCollection .. | .findCollectionRow .. => Option MarketplaceCollection
  | .upsertAlert _ => Except DbError Unit
  | .deleteAlert _ => Unit
  | .countActiveAsks .. => ℕ
  | .listActiveSubscribers .. => List UserId
  | .listWallets _ => List UserWallet
  | .findNotification .. => Option MarketplaceNotification
  | .saveNotification .. => Except DbError Unit
  | .markFired .. => Unit

/-- What a step finds in the tables of the other services. -/
structure Answer where
  now : ℕ := 0
  orders : List Order := []
  collections : List MarketplaceCollection := []
  wallets : List UserWallet := []

/-- A subscription that has fired, and a new one, start a new period. -/
def Store.subscribe (s : Store) (a : UserBuyerListingAlert) : Store :=
  { s with
    alerts := s.alerts.save a
    delivered :=
      if ∃ x ∈ s.alerts.get a.subscription, x.firedAt = none then s.delivered
      else Function.update s.delivered a.subscription 0 }

def Store.deliver (s : Store) (subscription : Subscription) (row : MarketplaceNotification) : Store :=
  { s with
    notifications := s.notifications ++ [row]
    delivered := Function.update s.delivered subscription (s.delivered subscription + 1) }

/-- Whether the update of `markFired` hits a row. -/
def UserBuyerListingAlert.isDue (a : UserBuyerListingAlert) (collectionKey tokenContract : JsStr)
    (userIds : List UserId) : Bool :=
  a.collectionKey = collectionKey && lower a.tokenContract = tokenContract && a.firedAt.isNone &&
    a.userId ∈ userIds

def fire (now : ℕ) (collectionKey tokenContract : JsStr) (userIds : List UserId)
    (a : UserBuyerListingAlert) : UserBuyerListingAlert :=
  if a.isDue collectionKey tokenContract userIds then { a with firedAt := some now } else a

theorem subscription_fire (now : ℕ) (collectionKey tokenContract : JsStr) (userIds : List UserId)
    (a : UserBuyerListingAlert) :
    (fire now collectionKey tokenContract userIds a).subscription = a.subscription := by
  unfold fire
  split_ifs <;> rfl

def Store.markFired (s : Store) (now : ℕ) (collectionKey tokenContract : JsStr)
    (userIds : List UserId) : Store :=
  { s with
    alerts :=
      ⟨s.alerts.rows.map (fire now collectionKey tokenContract userIds), by
        rw [List.map_map]
        have hkeys : UserBuyerListingAlert.subscription ∘ fire now collectionKey tokenContract userIds =
            UserBuyerListingAlert.subscription :=
          funext (subscription_fire now collectionKey tokenContract userIds)
        rw [hkeys]
        exact s.alerts.nodup⟩ }

def isActiveAskOf (collectionKey tokenContract : JsStr) (o : Order) : Bool :=
  o.collectionKey = some collectionKey && o.tokenContract = tokenContract && o.side = .ask &&
    o.status = .active

def exec : Handler Store Answer Cmd Res
  | _, s, x, .findCollection collectionKey tokenContract =>
    some (x.collections.find? fun c =>
      lower c.collectionKey = collectionKey && lower c.tokenContract = tokenContract, s)
  | _, s, x, .findCollectionRow collectionKey tokenContract =>
    some (x.collections.find? fun c =>
      c.collectionKey = collectionKey && c.tokenContract = tokenContract, s)
  | _, s, _, .upsertAlert alert =>
    if alert.collectionKey.length ≤ 128 ∧ alert.tokenContract.length ≤ 42 then
      some (.ok (), s.subscribe alert)
    else some (.error .valueTooLong, s)
  | _, s, _, .deleteAlert subscription =>
    some ((), { s with alerts := s.alerts.remove subscription })
  | _, s, x, .countActiveAsks collectionKey tokenContract =>
    some ((x.orders.filter (isActiveAskOf collectionKey tokenContract)).length, s)
  | _, s, _, .listActiveSubscribers collectionKey tokenContract =>
    some ((s.alerts.find fun a => a.collectionKey = collectionKey && a.tokenContract = tokenContract &&
      a.firedAt.isNone).map UserBuyerListingAlert.userId, s)
  | _, s, x, .listWallets _ => some (x.wallets, s)
  | _, s, _, .findNotification recipientWallet dedupeKey =>
    some (s.notifications.find? fun n =>
      n.recipientWallet = recipientWallet && n.dedupeKey = dedupeKey, s)
  | _, s, _, .saveNotification subscription row =>
    if ¬ row.Fits then some (.error .valueTooLong, s)
    else if row.chainId = 0 then some (.error .checkViolation, s)
    else if s.notifications.any fun n =>
        n.recipientWallet = row.recipientWallet && n.dedupeKey = row.dedupeKey then
      some (.error .uniqueViolation, s)
    else some (.ok (), s.deliver subscription row)
  | _, s, x, .markFired collectionKey tokenContract userIds =>
    some ((), s.markFired x.now collectionKey tokenContract userIds)

/-- The functions of the platform that work on floating-point numbers and on UTF-8. -/
structure Texts where
  formatUsdLabel : JsStr → JsStr
  encodeURIComponent : JsStr → JsStr
  decodeURIComponent : JsStr → Option JsStr

abbrev M := Prog Cmd Res Failure

def perform (c : Cmd) : M (Res c) := .call c (fun r => .ret (.ok r))

def attempt {α : Type} : Except DbError α → M α
  | .ok a => .ret (.ok a)
  | .error e => .ret (.error (.db e))

def attemptHttp {α : Type} : Except HttpError α → M α
  | .ok a => .ret (.ok a)
  | .error e => .ret (.error (.http e))

def normalizeWallet (address : JsStr) : JsStr := lower (trim address)

structure EmitInboxParams where
  recipientWallet : JsStr
  chainId : ℕ
  type : JsStr
  title : JsStr
  body : JsStr
  dedupeKey : JsStr
  payload : NotificationPayload

/-- A refused row is only logged. -/
def emitInbox (subscription : Subscription) (params : EmitInboxParams) : M Bool := do
  let recipient := normalizeWallet params.recipientWallet
  if recipient.isEmpty then pure false
  else do
    let existing ← perform (.findNotification recipient params.dedupeKey)
    match existing with
    | some _ => pure false
    | none => do
      let saved ← perform (.saveNotification subscription
        { recipientWallet := recipient, chainId := params.chainId, type := params.type
          title := params.title, body := params.body, dedupeKey := params.dedupeKey
          payload := params.payload })
      match saved with
      | .ok _ => pure true
      | .error _ => pure false

/-- The primary wallet of the listed ones, else one with an address, else the first. -/
def primaryWallet (wallets : List UserWallet) : Option JsStr :=
  (((wallets.find? UserWallet.isPrimary).or
    (wallets.find? fun w => !(trim w.walletAddress).isEmpty)).or wallets.head?).bind fun w =>
      if (trim w.walletAddress).isEmpty then none else some (normalizeWallet (trim w.walletAddress))

section Service
variable (env : Env) (texts : Texts)

def chainIdForOrder (order : Order) : ℕ :=
  (env.resolveChainIdFromRwaAddress order.tokenContract).getD env.getDefaultChainId

def nonEmpty (s : JsStr) : Option JsStr := if s.isEmpty then none else some s

def listingDedupeKey (userId : UserId) (collectionKey orderHash : JsStr) : JsStr :=
  js "buyer_listing_alert:" ++ userId.val ++ js ":" ++ collectionKey ++ js ":" ++ orderHash

/-- The notification of one subscriber of collection `collectionKey` on `tokenContract`. -/
def listingAlert (ask : Order) (collectionKey : JsStr) (collection : Option MarketplaceCollection)
    (userId : UserId) (wallet : JsStr) : EmitInboxParams :=
  let cardLabel := ((collection.bind fun c => nonEmpty (trim (c.displayLabel.getD []))).or
    (nonEmpty (collectionKey.take 48))).getD (js "This card")
  { recipientWallet := wallet
    chainId := chainIdForOrder env ask
    type := js "price"
    title := cardLabel ++ js " is now for sale"
    body := js "Lowest ask " ++ texts.formatUsdLabel ask.considerationAmount ++
      js " — buy or place a bid."
    dedupeKey := listingDedupeKey userId collectionKey ask.orderHash
    payload :=
      { eventKey := js "BUYER_LISTING_ALERT", collectionKey, askOrderHash := ask.orderHash
        tokenId := if isValidDecimalTokenId ask.tokenId then
          some (normalizeDecimalTokenId (trim ask.tokenId)) else none
        lowestAskMicros := ask.considerationAmount, cardLabel
        imageUrl := collection.bind fun c => nonEmpty (trim (c.coverImageUrl.getD []))
        ctaLabel := js "View listing"
        href := js "/marketplace/collections/" ++ texts.encodeURIComponent collectionKey } }

/-- The loop of `notifyBuyerListingAlerts`; `tokenContract` is the one of the subscriptions. -/
def notifySubscribers (ask : Order) (collectionKey tokenContract : JsStr)
    (collection : Option MarketplaceCollection) : List UserId → M Unit
  | [] => pure ()
  | userId :: userIds => do
    let wallets ← perform (.listWallets userId)
    match primaryWallet wallets with
    | none => notifySubscribers ask collectionKey tokenContract collection userIds
    | some wallet => do
      let _ ← emitInbox (userId, collectionKey, tokenContract)
        (listingAlert env texts ask collectionKey collection userId wallet)
      notifySubscribers ask collectionKey tokenContract collection userIds

def notifyBuyerListingAlerts (ask : Order) (collectionKey : JsStr) (userIds : List UserId) :
    M Unit := do
  let key := lower (trim collectionKey)
  if key.isEmpty || userIds.isEmpty then pure ()
  else do
    let tokenContract := lower (trim ask.tokenContract)
    let collection ← perform (.findCollectionRow key tokenContract)
    notifySubscribers env texts ask key tokenContract collection userIds

def markFired (collectionKey tokenContract : JsStr) (userIds : List UserId) : M Unit :=
  if userIds.isEmpty then pure () else perform (.markFired collectionKey (lower tokenContract) userIds)

/-- The first active ask of a collection notifies its subscribers and switches the alerts off. -/
def onFirstAskListed (ask : Order) : M Unit := do
  let collectionKey := lower (trim (ask.collectionKey.getD []))
  let tokenContract := lower (trim ask.tokenContract)
  if ask.side ≠ .ask ∨ ask.status ≠ .active ∨ collectionKey.isEmpty ∨ tokenContract.isEmpty then pure ()
  else do
    let activeAskCount ← perform (.countActiveAsks collectionKey tokenContract)
    if activeAskCount ≠ 1 then pure ()
    else do
      let userIds ← perform (.listActiveSubscribers collectionKey tokenContract)
      if userIds.isEmpty then pure ()
      else do
        notifyBuyerListingAlerts env texts ask collectionKey userIds
        markFired collectionKey tokenContract userIds

def normalizeKey (raw : JsStr) : M JsStr := do
  let decoded ← Prog.orThrow .uri (texts.decodeURIComponent raw)
  let key := lower (trim decoded)
  Prog.throwIf key.isEmpty (.http (.badRequest (js "collectionKey is required")))
  pure key

/-- `CollectionService.findOne`; a chain without a contract has no collections. -/
def findCollection (key : JsStr) (chainId : ℕ) : M (Option MarketplaceCollection) :=
  match env.getRwaAddress chainId with
  | .error _ => pure none
  | .ok tokenContract => perform (.findCollection (lower key) (lower tokenContract))

def subscribe (userId : UserId) (rawKey : JsStr) (chainId : Option ℕ) : M Unit := do
  let collectionKey ← normalizeKey texts rawKey
  let found ← findCollection env collectionKey (chainId.getD env.getDefaultChainId)
  let row ← Prog.orThrow (.http (.notFound (js "Collection not found"))) found
  let saved ← (perform (.upsertAlert { userId, collectionKey, tokenContract := lower row.tokenContract }) :
    M (Except DbError Unit))
  attempt saved

def unsubscribe (userId : UserId) (rawKey : JsStr) (chainId : Option ℕ) : M Unit := do
  let collectionKey ← normalizeKey texts rawKey
  let tokenContract ← attemptHttp (env.getRwaAddress (chainId.getD env.getDefaultChainId))
  perform (.deleteAlert (userId, collectionKey, lower tokenContract))

end Service

end Alerts
