import ClickNBack.Core.Broker
import ClickNBack.Purchases.Repositories

namespace ClickNBack.Purchases

open ReadCommitted

structure PurchaseConfirmed where
  purchaseId : String
  userId : String
  merchantId : String
  amount : Int
  currency : String
  cashbackAmount : Int
  verifiedAt : Nat

structure PurchaseRejected where
  purchaseId : String
  userId : String
  merchantId : String
  amount : Int
  currency : String
  failedAt : Nat
  reason : String

structure PurchaseReversed where
  purchaseId : String
  userId : String
  adminId : String
  merchantId : String
  amount : Int
  currency : String
  priorStatus : PurchaseStatus

structure PurchaseConfirmedByAdmin where
  purchaseId : String
  userId : String
  adminId : String
  merchantId : String
  amount : Int
  currency : String
  cashbackAmount : Int
  confirmedAt : Nat

inductive EventType
  | purchaseConfirmed
  | purchaseRejected
  | purchaseReversed
  | purchaseConfirmedByAdmin
deriving DecidableEq

abbrev Event : EventType → Type
  | .purchaseConfirmed => PurchaseConfirmed
  | .purchaseRejected => PurchaseRejected
  | .purchaseReversed => PurchaseReversed
  | .purchaseConfirmedByAdmin => PurchaseConfirmedByAdmin

abbrev MessageBroker := Core.Broker Event Coroutine

/-- `AuditTrailRepository.add`, in a session of its own. -/
def AuditTrailRepository.add (auditLog : AuditLog) : Coroutine Unit := do
  Prog.execute (.insertAuditLog auditLog)
  Prog.commitTx

def persistAuditLog (datetimeProvider : Nat) (actorType : AuditActorType) (actorId : Option String)
    (action : AuditAction) (resourceType resourceId : String) (outcome : AuditOutcome)
    (details : List (String × AuditDetail)) : Coroutine Unit :=
  AuditTrailRepository.add {
    occurredAt := datetimeProvider
    actorType
    actorId := if actorType ≠ .system then actorId else none
    action
    resourceType
    resourceId
    outcome
    details }

def handlePurchaseConfirmed (datetimeProvider : Nat) (event : PurchaseConfirmed) :
    Coroutine Unit :=
  persistAuditLog datetimeProvider .system none .purchaseConfirmed "purchase" event.purchaseId
    .success [("merchant_id", .text event.merchantId), ("amount", .decimal event.amount),
      ("currency", .text event.currency), ("cashback_amount", .decimal event.cashbackAmount)]

def handlePurchaseRejected (datetimeProvider : Nat) (event : PurchaseRejected) : Coroutine Unit :=
  persistAuditLog datetimeProvider .system none .purchaseRejected "purchase" event.purchaseId
    .success [("merchant_id", .text event.merchantId), ("amount", .decimal event.amount),
      ("currency", .text event.currency), ("reason", .text event.reason)]

def handlePurchaseReversed (datetimeProvider : Nat) (event : PurchaseReversed) : Coroutine Unit :=
  persistAuditLog datetimeProvider .admin (some event.adminId) .purchaseReversed "purchase"
    event.purchaseId .success [("prior_status", .status event.priorStatus)]

def subscribeAuditHandlers (datetimeProvider : Nat) (broker : MessageBroker) : MessageBroker :=
  ((broker.subscribe .purchaseConfirmed (handlePurchaseConfirmed datetimeProvider)).subscribe
    .purchaseRejected (handlePurchaseRejected datetimeProvider)).subscribe
    .purchaseReversed (handlePurchaseReversed datetimeProvider)

/-- The broker of the application, once the audit handlers are subscribed. -/
def auditedBroker (datetimeProvider : Nat) : MessageBroker :=
  subscribeAuditHandlers datetimeProvider Core.Broker.empty

theorem auditedBroker_confirmed (now : Nat) :
    auditedBroker now .purchaseConfirmed = [handlePurchaseConfirmed now] := rfl

theorem auditedBroker_rejected (now : Nat) :
    auditedBroker now .purchaseRejected = [handlePurchaseRejected now] := rfl

theorem auditedBroker_reversed (now : Nat) :
    auditedBroker now .purchaseReversed = [handlePurchaseReversed now] := rfl

/-- Nothing is subscribed to the event of a manual confirmation. -/
theorem auditedBroker_confirmedByAdmin (now : Nat) :
    auditedBroker now .purchaseConfirmedByAdmin = [] := rfl

end ClickNBack.Purchases
