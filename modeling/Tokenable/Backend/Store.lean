import Tokenable.Db.Transaction
import Tokenable.Redeem.Quote
import Tokenable.Redeem.Redemption
import Tokenable.Settlement.Eligibility

/-!
# The marketplace database and the outside world

The tables that the order, settlement and redeem services share, the statements they run on them
and the questions they ask elsewhere: RPC nodes, the clock, and the services whose tables are not
part of this store. A service function is a `BackendM` program; `backendHandler` runs it.
-/

namespace Backend
open Js Platform Db Vault Orders Settlement Redeem Async

structure Tables where
  orders : OrderTable
  tokens : List RwaToken
  holdings : List PortfolioHolding
  settlements : List SelfVaultSettlement
  assets : List VaultAsset
  cycles : CycleTable
  claims : ClaimTable
  redemptions : RedemptionTable

inductive PgError where
  | uniqueViolation
  deriving DecidableEq

inductive Stmt where
  | orderByHash (orderHash : JsStr)
  | ordersOfCollection (key rwa : JsStr) (side : OrderSide) (status : Option OrderStatus) (take : ℕ)
  | activeAsksOfWallet (wallet rwa : JsStr) (take : ℕ)
  | collectionBidsOfWallet (wallet rwa : JsStr) (take : ℕ)
  | activeOrdersOfTokens (contract : JsStr) (tokenIds : List JsStr)
  | priorAskKey (contract : JsStr) (tokenIds : List JsStr)
  | dueOrders (now : ℕ)
  | activeAsksOfCollection (key : JsStr)
  | activeAsksOfToken (tokenId : JsStr)
  | activeAskOf (contract : JsStr) (tokenIds : List JsStr)
  | countActiveBids (wallet key rwa : JsStr)
  | findToken (contract tokenId : JsStr)
  | findCycle (id : JsStr)
  | saveOrders (rows : List (Order × Order))
  | insertOrder (row : Order)
  | cancelActiveAsks (contract tokenId : JsStr) (except : Option ℕ) (at_ : ℕ)
  | expireOrders (now : ℕ)
  | getSettlementPolicy (contract tokenId : JsStr)
  | maybeCreateSelfVaultSettlement (ask : Order) (fill : Fill)
  | seedMarketplaceBuyCostBasis (contract wallet : JsStr) (tokenId : ℕ) (costUsd : ℚ)
      (acquiredAt : ℕ)
  | recordOwner (contract tokenId owner : JsStr)
  | ensureSettlementPolicy (contract tokenId : JsStr) (policy : SettlementPolicy)
  | countClaims (paymentTxHash : JsStr)
  | findClaim (paymentTxHash : JsStr)
  | insertClaim (claim : PaymentClaim)
  | updateClaim (claim : PaymentClaim)
  | lockToken (contract tokenId : JsStr)
  | saveToken (token : RwaToken)
  | lockAsset (certNumber : JsStr)
  | insertAsset (asset : VaultAsset)
  | lockOpenCycle (assetId : JsStr) (chainId : ℕ)
  | countCycles (assetId : JsStr)
  | lockCycle (id : JsStr)
  | saveCycle (cycle : VaultCycle)
  | lockOpenRedemption (cycleId : JsStr)
  | insertRedemption (row : VaultRedemption)

abbrev Stmt.Res : Stmt → Type
  | .orderByHash _ => Option Order
  | .ordersOfCollection .. => List Order
  | .activeAsksOfWallet .. => List Order
  | .collectionBidsOfWallet .. => List Order
  | .activeOrdersOfTokens .. => List Order
  | .priorAskKey .. => Option JsStr
  | .dueOrders _ => List Order
  | .activeAsksOfCollection _ => List Order
  | .activeAsksOfToken _ => List Order
  | .activeAskOf .. => Option Order
  | .countActiveBids .. => ℕ
  | .findToken .. => Option RwaToken
  | .findCycle _ => Option VaultCycle
  | .saveOrders _ => Unit
  | .insertOrder _ => Except PgError Unit
  | .cancelActiveAsks .. => Unit
  | .expireOrders _ => Unit
  | .getSettlementPolicy .. => Option SettlementPolicy
  | .maybeCreateSelfVaultSettlement .. => Unit
  | .seedMarketplaceBuyCostBasis .. => Unit
  | .recordOwner .. => Unit
  | .ensureSettlementPolicy .. => Unit
  | .countClaims _ => ℕ
  | .findClaim _ => Option PaymentClaim
  | .insertClaim _ => Except PgError Unit
  | .updateClaim _ => Except PgError Unit
  | .lockToken .. => Option RwaToken
  | .saveToken _ => Unit
  | .lockAsset _ => Option VaultAsset
  | .insertAsset _ => Except PgError Unit
  | .lockOpenCycle .. => Option VaultCycle
  | .countCycles _ => ℕ
  | .lockCycle _ => Option VaultCycle
  | .saveCycle _ => Unit
  | .lockOpenRedemption _ => Option VaultRedemption
  | .insertRedemption _ => Except PgError Unit

namespace Tables

/-- The tables that the settlement functions of a fill work on; they read no order. -/
def ledger (t : Tables) : Ledger := ⟨⟨[], List.nodup_nil, by simp⟩, t.tokens, t.holdings, t.settlements⟩

def withLedger (t : Tables) (l : Ledger) : Tables :=
  { t with tokens := l.tokens, holdings := l.holdings, settlements := l.settlements }

def orderByHash (t : Tables) (orderHash : JsStr) : Option Order :=
  t.orders.rows.find? (fun o => o.orderHash = orderHash)

def latestFirst (rows : List Order) : List Order :=
  rows.insertionSort (fun a b => b.updatedAt ≤ a.updatedAt)

def ordersOfCollection (t : Tables) (key rwa : JsStr) (side : OrderSide)
    (status : Option OrderStatus) (take : ℕ) : List Order :=
  (latestFirst (t.orders.find fun o => o.collectionKey.map lower = some key && o.side = side &&
    status.all (· = o.status) && lower o.tokenContract = rwa)).take take

def activeAsksOfWallet (t : Tables) (wallet rwa : JsStr) (take : ℕ) : List Order :=
  (latestFirst (t.orders.find fun o => lower o.offerer = wallet && o.side = .ask &&
    o.status = .active && lower o.tokenContract = rwa)).take take

def collectionBidsOfWallet (t : Tables) (wallet rwa : JsStr) (take : ℕ) : List Order :=
  (latestFirst (t.orders.find fun o => lower o.offerer = wallet && o.side = .bid &&
    o.collectionKey.isSome && lower o.tokenContract = rwa)).take take

def activeOrdersOfTokens (t : Tables) (contract : JsStr) (tokenIds : List JsStr) : List Order :=
  t.orders.find fun o => lower o.tokenContract = contract && o.tokenId ∈ tokenIds &&
    o.status = .active

/-- The collection of the ask of the token that was updated last. -/
def priorAskKey (t : Tables) (contract : JsStr) (tokenIds : List JsStr) : Option JsStr :=
  (latestFirst (t.orders.find fun o => o.tokenContract = contract && o.side = .ask &&
    o.tokenId ∈ tokenIds && o.collectionKey.isSome)).head?.bind Order.collectionKey

def activeAsksOfCollection (t : Tables) (key : JsStr) : List Order :=
  t.orders.find fun o => o.status = .active && o.side = .ask && o.collectionKey.map lower = some key

def activeAsksOfToken (t : Tables) (tokenId : JsStr) : List Order :=
  t.orders.find fun o => o.status = .active && o.side = .ask && o.tokenId = tokenId

def activeAskOf (t : Tables) (contract : JsStr) (tokenIds : List JsStr) : Option Order :=
  t.orders.rows.find? fun o => o.tokenContract = contract && o.tokenId ∈ tokenIds &&
    o.status = .active && o.side = .ask

def countActiveBids (t : Tables) (wallet key rwa : JsStr) : ℕ :=
  (t.orders.find fun o => lower o.offerer = wallet && o.collectionKey.map lower = some key &&
    lower o.tokenContract = rwa && o.side = .bid && o.status = .active).length

def isActiveAsk (contract tokenId : JsStr) (except : Option ℕ) (o : Order) : Bool :=
  o.tokenContract = contract && o.tokenId = tokenId && o.status = .active && o.side = .ask &&
    except ≠ some o.id

def isDue (now : ℕ) (o : Order) : Bool := o.status = .active && o.endTime < now

/-- `UPDATE orders SET status … WHERE p`: every row stays, with its id. -/
def updateOrders (t : Tables) (p : Order → Bool) (f : Order → Order) (hf : ∀ o, (f o).id = o.id) :
    Tables :=
  { t with orders := ⟨t.orders.rows.map (fun o => if p o then f o else o), by
      have hid : ∀ o, (if p o then f o else o).id = o.id := fun o => by
        split_ifs
        · exact hf o
        · rfl
      have hkeys : (t.orders.rows.map (fun o => if p o then f o else o)).map Order.id =
          t.orders.rows.map Order.id := by
        rw [List.map_map]
        exact List.map_congr_left fun o _ => hid o
      exact hkeys ▸ t.orders.nodup⟩ }

def recordOwner (t : Tables) (contract tokenId owner : JsStr) : Tables :=
  let token : RwaToken :=
    { tokenContract := contract, tokenId := tokenId, ownerWallet := some owner }
  { t with tokens :=
      Table.upsertRows RwaToken.key token (fun r => { r with ownerWallet := some owner }) t.tokens }

def ensureSettlementPolicy (t : Tables) (contract tokenId : JsStr) (policy : SettlementPolicy) :
    Tables :=
  { t with tokens := t.tokens.map fun r =>
      if lower r.tokenContract = contract ∧ r.tokenId = tokenId ∧ r.settlementPolicy = none then
        { r with settlementPolicy := some policy }
      else r }

/-- `seedAutoCostBasis` with source `marketplace_buy`: a manual row is left alone. -/
def seedMarketplaceBuyCostBasis (t : Tables) (contract wallet : JsStr) (tokenId : ℕ) (costUsd : ℚ)
    (acquiredAt : ℕ) : Tables :=
  let same : PortfolioHolding → Bool := fun h =>
    h.walletAddress = wallet && h.tokenContract = contract && h.tokenId = tokenId
  let seeded : PortfolioHolding → PortfolioHolding := fun h => { h with
    costBasisUsd := some costUsd
    costBasisSource := some .marketplaceBuy
    acquiredAt := acquiredAt }
  let fresh : PortfolioHolding := ⟨wallet, contract, tokenId, none, none, 0, 0⟩
  { t with holdings :=
      match t.holdings.find? same with
      | some existing =>
        if existing.costBasisSource = some .manual then t.holdings
        else t.holdings.map (fun h => if same h then seeded h else h)
      | none => t.holdings ++ [seeded fresh] }

def saveToken (t : Tables) (token : RwaToken) : Tables :=
  { t with tokens := t.tokens.map (fun r => if r.key = token.key then token else r) }

def assetOf (t : Tables) (certNumber : JsStr) : Option VaultAsset :=
  t.assets.find? (fun a => a.externalCertNumber = certNumber)

def openCycleOf (t : Tables) (assetId : JsStr) (chainId : ℕ) : Option VaultCycle :=
  t.cycles.rows.find? (fun c => c.vaultAssetId = assetId && c.chainId = chainId &&
    c.status ≠ .redeemed && c.status ≠ .cancelled)

def closedRedemptionStatuses : List RedemptionStatus := [.completed, .failed, .cancelled, .refunded]

def openRedemptionOf (t : Tables) (cycleId : JsStr) : Option VaultRedemption :=
  t.redemptions.rows.find? (fun r => r.vaultCycleId = cycleId &&
    r.status ∉ closedRedemptionStatuses)

def batchClaimed (t : Tables) (claim : PaymentClaim) : Bool :=
  t.claims.rows.any (fun c => c.paymentBatchId = claim.paymentBatchId &&
    c.paymentTxHash ≠ claim.paymentTxHash)

end Tables

namespace Stmt

/-- No unique index rejects the statement, and it is no read; `FOR UPDATE` reads lock rows. -/
def changes (t : Tables) : Stmt → Bool
  | orderByHash _ | ordersOfCollection .. | activeAsksOfWallet .. | collectionBidsOfWallet ..
  | activeOrdersOfTokens .. | priorAskKey .. | dueOrders _ | activeAsksOfCollection _
  | activeAsksOfToken _ | activeAskOf .. | countActiveBids .. | findToken .. | findCycle _
  | countClaims _ | findClaim _ | countCycles _ => false
  | insertOrder row => !t.orders.rows.any (fun o => o.id = row.id || o.orderHash = row.orderHash)
  | insertClaim claim => (t.claims.get claim.paymentTxHash).isNone && !t.batchClaimed claim
  | updateClaim claim => !t.batchClaimed claim
  | insertAsset asset => !t.assets.any (fun a => a.id = asset.id ||
      a.externalCertNumber = asset.externalCertNumber || a.vaultRef = asset.vaultRef)
  | insertRedemption row => (t.redemptions.get row.id).isNone
  | _ => true

def orUniqueViolation (ok : Bool) : Except PgError Unit :=
  if ok then .ok () else .error .uniqueViolation

def answer (t : Tables) : (q : Stmt) → q.Res
  | orderByHash orderHash => t.orderByHash orderHash
  | ordersOfCollection key rwa side status take => t.ordersOfCollection key rwa side status take
  | activeAsksOfWallet wallet rwa take => t.activeAsksOfWallet wallet rwa take
  | collectionBidsOfWallet wallet rwa take => t.collectionBidsOfWallet wallet rwa take
  | activeOrdersOfTokens contract tokenIds => t.activeOrdersOfTokens contract tokenIds
  | priorAskKey contract tokenIds => t.priorAskKey contract tokenIds
  | dueOrders now => (t.orders.find (Tables.isDue now)).take 500
  | activeAsksOfCollection key => t.activeAsksOfCollection key
  | activeAsksOfToken tokenId => t.activeAsksOfToken tokenId
  | activeAskOf contract tokenIds => t.activeAskOf contract tokenIds
  | countActiveBids wallet key rwa => t.countActiveBids wallet key rwa
  | findToken contract tokenId => findRwaToken t.ledger contract tokenId
  | findCycle id => t.cycles.get id
  | saveOrders _ | cancelActiveAsks .. | expireOrders _ | maybeCreateSelfVaultSettlement ..
  | seedMarketplaceBuyCostBasis .. | recordOwner .. | ensureSettlementPolicy .. | saveToken _
  | saveCycle _ => ()
  | insertOrder row => orUniqueViolation ((insertOrder row).changes t)
  | getSettlementPolicy contract tokenId =>
    (Settlement.getSettlementPolicy t.ledger contract tokenId).1
  | countClaims paymentTxHash => (t.claims.find (fun c => c.paymentTxHash = paymentTxHash)).length
  | findClaim paymentTxHash => t.claims.get paymentTxHash
  | insertClaim claim => orUniqueViolation ((insertClaim claim).changes t)
  | updateClaim claim => orUniqueViolation ((updateClaim claim).changes t)
  | lockToken contract tokenId => findRwaToken t.ledger contract tokenId
  | lockAsset certNumber => t.assetOf certNumber
  | insertAsset asset => orUniqueViolation ((insertAsset asset).changes t)
  | lockOpenCycle assetId chainId => t.openCycleOf assetId chainId
  | countCycles assetId => (t.cycles.find (fun c => c.vaultAssetId = assetId)).length
  | lockCycle id => t.cycles.get id
  | lockOpenRedemption cycleId => t.openRedemptionOf cycleId
  | insertRedemption row => orUniqueViolation ((insertRedemption row).changes t)

def apply (env : Env) (t : Tables) : Stmt → Tables
  | orderByHash _ | ordersOfCollection .. | activeAsksOfWallet .. | collectionBidsOfWallet ..
  | activeOrdersOfTokens .. | priorAskKey .. | dueOrders _ | activeAsksOfCollection _
  | activeAsksOfToken _ | activeAskOf .. | countActiveBids .. | findToken .. | findCycle _
  | countClaims _ | findClaim _ | countCycles _ | lockToken .. | lockAsset _ | lockOpenCycle ..
  | lockCycle _ | lockOpenRedemption _ => t
  | saveOrders rows => { t with orders := t.orders.saveAll (rows.map Prod.snd) }
  | insertOrder row => { t with orders := t.orders.save row }
  | cancelActiveAsks contract tokenId except at_ =>
    t.updateOrders (Tables.isActiveAsk contract tokenId except)
      (fun o => { o with status := .cancelled, updatedAt := at_ }) fun _ => rfl
  | expireOrders now =>
    t.updateOrders (Tables.isDue now) (fun o => { o with status := .expired, updatedAt := now })
      fun _ => rfl
  | getSettlementPolicy contract tokenId =>
    t.withLedger (Settlement.getSettlementPolicy t.ledger contract tokenId).2
  | maybeCreateSelfVaultSettlement ask fill =>
    t.withLedger (Settlement.maybeCreateSelfVaultSettlement env ask fill t.ledger)
  | seedMarketplaceBuyCostBasis contract wallet tokenId costUsd acquiredAt =>
    t.seedMarketplaceBuyCostBasis contract wallet tokenId costUsd acquiredAt
  | recordOwner contract tokenId owner => t.recordOwner contract tokenId owner
  | ensureSettlementPolicy contract tokenId policy =>
    t.ensureSettlementPolicy contract tokenId policy
  | insertClaim claim | updateClaim claim => { t with claims := t.claims.save claim }
  | saveToken token => t.saveToken token
  | insertAsset asset => { t with assets := t.assets ++ [asset] }
  | saveCycle cycle => { t with cycles := t.cycles.save cycle }
  | insertRedemption row => { t with redemptions := t.redemptions.save row }

/-- What a statement locks: rows, and entries of unique indexes. -/
inductive Lock where
  | order (id : ℕ)
  | orderHash (orderHash : JsStr)
  | token (key : JsStr × JsStr)
  | asset (certNumber : JsStr)
  | cycle (id : JsStr)
  | redemption (id : JsStr)
  | claim (paymentTxHash : JsStr)
  | claimBatch (paymentBatchId : JsStr)
  deriving DecidableEq

def locks (t : Tables) : Stmt → List Lock
  | saveOrders rows => rows.map (fun r => .order r.2.id)
  | insertOrder row => [.order row.id, .orderHash row.orderHash]
  | cancelActiveAsks contract tokenId except _ =>
    (t.orders.find (Tables.isActiveAsk contract tokenId except)).map (fun o => .order o.id)
  | expireOrders now => (t.orders.find (Tables.isDue now)).map (fun o => .order o.id)
  | insertClaim claim | updateClaim claim =>
    [.claim claim.paymentTxHash, .claimBatch claim.paymentBatchId]
  | recordOwner contract tokenId _ => [.token (contract, tokenId)]
  | saveToken token => [.token token.key]
  | lockToken contract tokenId =>
    ((findRwaToken t.ledger contract tokenId).map (fun r => .token r.key)).toList
  | lockAsset certNumber => ((t.assetOf certNumber).map (fun _ => .asset certNumber)).toList
  | insertAsset asset => [.asset asset.externalCertNumber]
  | lockOpenCycle assetId chainId =>
    ((t.openCycleOf assetId chainId).map (fun c => .cycle c.id)).toList
  | lockCycle id => ((t.cycles.get id).map (fun c => .cycle c.id)).toList
  | saveCycle cycle => [.cycle cycle.id]
  | lockOpenRedemption cycleId => ((t.openRedemptionOf cycleId).map (fun r => .redemption r.id)).toList
  | insertRedemption row => [.redemption row.id]
  | _ => []

end Stmt

def schema (env : Env) : Schema Tables Stmt Stmt.Res where
  answer := Stmt.answer
  changes := Stmt.changes
  apply := Stmt.apply env
  waits t q q' := (q.locks t).any (· ∈ q'.locks t)

structure SeaportFillStatus where
  isValidated : Bool
  isCancelled : Bool
  totalFilled : ℕ
  totalSize : ℕ
  deriving DecidableEq

/-- `balanceOf`, `allowance` and the time of the latest block. -/
structure BidFunding where
  balance : ℕ
  allowance : ℕ
  nowSec : ℕ
  deriving DecidableEq

structure ReceiptTransfer where
  address : JsStr
  sender : JsStr
  recipient : JsStr
  value : ℕ
  deriving DecidableEq

/-- A mined transaction: whether it succeeded, and its ERC-20 `Transfer` logs. -/
structure TxReceipt where
  succeeded : Bool
  transfers : List ReceiptTransfer
  deriving DecidableEq

/-- The body of a new order; its offerer is the one of the parameters. -/
structure CreateOrderDto where
  side : OrderSide
  tokenContract : JsStr
  tokenId : JsStr
  offerer : JsStr
  considerationAmount : JsStr
  collectionKey : Option JsStr := none
  parameters : OrderParameters := {}
  deriving DecidableEq

/-- Questions that the database does not answer. A failed RPC call answers with its message. -/
inductive Rpc where
  | now
  | uuid
  | nextOrderId
  | getOrderHash (chainId : ℕ) (params : OrderParameters)
  | getOrderStatus (chainId : ℕ) (orderHash : JsStr)
  | ownerOf (chainId : ℕ) (contract : JsStr) (tokenId : ℕ)
  | bidFunding (chainId : ℕ) (offerer : JsStr)
  | listingDisplay (order : Order)
  | ensureCollectionForListing (tokenId : JsStr) (chainId : ℕ)
  | findCollection (key : JsStr) (chainId : ℕ)
  | getReviewStatus (key : JsStr)
  | assertApprovedForCustody (userId : JsStr)
  | assertRedeemable (chainId : ℕ) (tokenIds : List ℕ)
  | estimate (chainId : ℕ) (tokenIds : List ℕ) (shipTo : ShipTo)
  | pinnedQuote (key : JsStr)
  | listWalletsForUser (userId : JsStr)
  | transactionReceipt (chainId : ℕ) (txHash : JsStr)
  | getRwaTokenOwner (chainId : ℕ) (tokenId : ℕ)
  | computeVaultRef (certNumber : JsStr)
  | getAddress (address : JsStr)
  | getCustodyWalletAddress (chainId : ℕ)

abbrev Rpc.Res : Rpc → Type
  | .now => ℕ
  | .uuid => JsStr
  | .nextOrderId => ℕ
  | .getOrderHash .. => Except JsStr JsStr
  | .getOrderStatus .. => Except JsStr SeaportFillStatus
  | .ownerOf .. => Except JsStr JsStr
  | .bidFunding .. => Except HttpError BidFunding
  | .listingDisplay _ => Except HttpError Unit
  | .ensureCollectionForListing .. => Option JsStr
  | .findCollection .. => Option JsStr
  | .getReviewStatus _ => Option JsStr
  | .assertApprovedForCustody _ => Except HttpError Unit
  | .assertRedeemable .. => Except HttpError Unit
  | .estimate .. => Except HttpError RedeemEstimate
  | .pinnedQuote _ => Option PinnedQuote
  | .listWalletsForUser _ => List JsStr
  | .transactionReceipt .. => Except HttpError (Option TxReceipt)
  | .getRwaTokenOwner .. => Except HttpError JsStr
  | .computeVaultRef _ => JsStr
  | .getAddress _ => JsStr
  | .getCustodyWalletAddress _ => Except HttpError JsStr

abbrev World := (q : Rpc) → q.Res

/-- Nodes that do not respond, services with empty tables and checks that all pass. -/
def idleWorld : World
  | .now => 0
  | .uuid => []
  | .nextOrderId => 0
  | .getOrderHash .. => .error []
  | .getOrderStatus .. => .error []
  | .ownerOf .. => .error []
  | .bidFunding .. => .ok ⟨0, 0, 0⟩
  | .listingDisplay _ => .ok ()
  | .ensureCollectionForListing .. => none
  | .findCollection .. => none
  | .getReviewStatus _ => none
  | .assertApprovedForCustody _ => .ok ()
  | .assertRedeemable .. => .ok ()
  | .estimate _ _ _ => .ok ⟨0, 0, []⟩
  | .pinnedQuote _ => none
  | .listWalletsForUser _ => []
  | .transactionReceipt .. => .ok none
  | .getRwaTokenOwner .. => .ok []
  | .computeVaultRef _ => []
  | .getAddress address => address
  | .getCustodyWalletAddress _ => .ok []

abbrev Store := Session Tables Stmt

abbrev BackendCmd := SqlCmd Stmt ⊕ Rpc

abbrev BackendRes : BackendCmd → Type := Sum.elim (SqlRes Stmt.Res) Rpc.Res

abbrev BackendM := SqlProg Stmt.Res Rpc.Res HttpError

abbrev backendHandler (env : Env) : Handler Store World BackendCmd BackendRes :=
  sqlHandler (schema env)

def db (q : Stmt) : BackendM q.Res := sql q

def tx (q : Stmt) : BackendM q.Res := txSql q

def rpc (q : Rpc) : BackendM q.Res := askWorld q

section Alone
variable {env : Env} {x : World} {t : Tables} {α β : Type}

/-- A call that no other one interleaves with, in a world that does not change: how it ends, and
the tables after it. -/
def serve (env : Env) (x : World) (p : BackendM α) (t : Tables) : Except HttpError α × Tables :=
  let last := p.play (alone (schema env) x) (Session.opened t)
  (last.1, last.2.stored)

/-- Each statement acts at once. -/
abbrev solo (env : Env) (x : World) : Tables → (c : BackendCmd) → BackendRes c × Tables :=
  direct (schema env) x

theorem serve_eq_play {p : BackendM α} (hp : p.Issues Outside) :
    serve env x p t = p.play (solo env x) t := by
  obtain ⟨hres, -, hstored⟩ := play_alone (schema env) (x := x) hp (s := Session.opened t) rfl
  exact Prod.ext hres hstored

@[simp] theorem play_db (q : Stmt) :
    (db q).play (solo env x) t = (.ok (q.answer t), if q.changes t then q.apply env t else t) := rfl

@[simp] theorem play_tx (q : Stmt) :
    (tx q).play (solo env x) t = (.ok (q.answer t), if q.changes t then q.apply env t else t) := rfl

@[simp] theorem play_rpc (q : Rpc) : (rpc q).play (solo env x) t = (.ok (x q), t) := rfl

end Alone

def orThrowAnswer {α : Type} (p : BackendM (Except HttpError α)) : BackendM α := do
  let answer ← p
  Prog.ret answer

section Yields
variable {Ans : (c : BackendCmd) → BackendRes c → Prop}

theorem yields_rpc {q : Rpc} {o : Except HttpError q.Res} :
    (rpc q).Yields Ans o ↔ ∃ a, Ans (.inr q) a ∧ o = .ok a := by
  constructor
  · rintro ⟨a, ha, ho⟩
    exact ⟨a, ha, ho.symm⟩
  · rintro ⟨a, ha, ho⟩
    exact ⟨a, ha, ho.symm⟩

/-- The answer of a service is how the call that asks it goes on. -/
theorem yields_transactionReceipt {chainId : ℕ} {txHash : JsStr}
    {o : Except HttpError (Option TxReceipt)} :
    (orThrowAnswer (rpc (.transactionReceipt chainId txHash))).Yields Ans o ↔
      Ans (.inr (.transactionReceipt chainId txHash)) o := by
  constructor
  · rintro ⟨a, ha, rfl⟩
    exact ha
  · intro ho
    exact ⟨o, ho, rfl⟩

end Yields

end Backend
