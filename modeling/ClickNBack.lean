import ClickNBack.VerifyPurchases.Dispatch
import ClickNBack.Purchases.Settlement
import ClickNBack.ReadCommitted.Commuting
import ClickNBack.Purchases.AllOrNothing
import ClickNBack.Purchases.MonthlyCap
import ClickNBack.Purchases.Ingestion
import ClickNBack.Purchases.DistinctPurchases
import ClickNBack.Purchases.Accounting
import ClickNBack.Purchases.LockStep
import ClickNBack.Purchases.AuditCompleteness
import ClickNBack.Purchases.Eligibility
import ClickNBack.Offers.ActiveOffer
import ClickNBack.Offers.Creation
import ClickNBack.Purchases.Paging
import ClickNBack.Auth.Lifecycle
import ClickNBack.Auth.Rotation
import ClickNBack.Auth.CurrentUser
import ClickNBack.FeatureFlags.History
import ClickNBack.Purchases.Advertised
import ClickNBack.Purchases.Confidentiality
import ClickNBack.VerifyPurchases.Schedule
import ClickNBack.Core.LiveLoops
import ClickNBack.Core.DispatchHistories
import ClickNBack.VerifyPurchases.RunnerOutcome
import ClickNBack.Users.Registration
import ClickNBack.FeatureFlags.Concurrent
import ClickNBack.Application.Safety
import ClickNBack.Purchases.Progress
import ClickNBack.Purchases.Reconciliation
import ClickNBack.Offers.Details
import ClickNBack.VerifyPurchases.Backlog
