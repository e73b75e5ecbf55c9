import Tokenable.Async.Mutex
import Tokenable.Async.Obligation
import Tokenable.Db.Table
import Tokenable.Js.Text
import Tokenable.Redeem.Redemption
import Tokenable.Redeem.RefundOnce
import Tokenable.Redeem.CheckedPayment
import Tokenable.Redeem.ClaimOnce
import Tokenable.Chain.MintTo
import Tokenable.Settlement.Eligibility
import Tokenable.Settlement.PayoutOnce
import Tokenable.Settlement.PayoutRetry
import Tokenable.Orders.LeaveActive
import Tokenable.Orders.FillEvidence
import Tokenable.Orders.Invalidate
import Tokenable.Orders.SignedTerms
import Tokenable.Orders.Crossing
import Tokenable.Orders.OneAsk
import Tokenable.Redeem.Unlisted
import Tokenable.User.PrimaryWallet
import Tokenable.User.SyncMirror
import Tokenable.User.LinkedLookup
import Tokenable.User.LostUpdate
import Tokenable.Kyc.AdminApproval
import Tokenable.Alerts.Delivery
import Tokenable.Custody.Tracking
import Tokenable.Custody.RefundedNft
import Tokenable.Custody.RefundOrder
import Tokenable.Custody.Confirmation
import Tokenable.Vault.CycleStates
import Tokenable.Frontend.PlatformFee
import Tokenable.Cards.BucketKey
import Tokenable.Market.MerkleSet
import Tokenable.OwnerIndex.Convergence
import Tokenable.Redeem.FeeConservation
import Tokenable.Redeem.QuotePins
import Tokenable.Frontend.MatchExecution
import Tokenable.Frontend.CriteriaRoot
import Tokenable.Frontend.CrossingAsk
import Tokenable.Vault.MintReview
import Tokenable.Vault.TokenSpelling
import Tokenable.Vault.PartnerMintTruth
import Tokenable.Redeem.RegistryHeal
import Tokenable.Orders.ExpiryNotices
import Tokenable.Pricecharting.CsvReading
import Tokenable.Vault.SubmissionIds
import Tokenable.Kyc.Webhook
import Tokenable.Market.TradeTape
import Tokenable.Market.SnapshotQueue
import Tokenable.Settlement.SellerProceeds
import Tokenable.Vault.DecimalTokenId
import Tokenable.Chain.RpcSemaphore
import Tokenable.Async.PromiseMutex
import Tokenable.Platform.ServiceLocks
import Tokenable.User.AddressDefault
import Tokenable.Orders.BuyerTruth
import Tokenable.Redeem.AutoReceipt
import Tokenable.Frontend.MarketsUrlFilters
import Tokenable.Psa.Lookups
import Tokenable.Rwa.SealedBoxRuns
import Tokenable.Rwa.MintRuns
