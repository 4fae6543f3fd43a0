import ClickNBack.Numeric.Decimal
import ClickNBack.Offers.Models

namespace ClickNBack.Purchases

open Numeric Relational Offers

inductive PurchaseStatus
  | pending
  | confirmed
  | rejected
  | reversed
deriving DecidableEq, Repr

/-- `PurchaseStatus(value)`, with `none` for its ValueError. -/
def PurchaseStatus.ofValue : String → Option PurchaseStatus
  | "pending" => some .pending
  | "confirmed" => some .confirmed
  | "rejected" => some .rejected
  | "reversed" => some .reversed
  | _ => none

inductive CashbackTransactionStatus
  | pending
  | available
  | reversed
deriving DecidableEq, Repr

structure User where
  id : String
  active : Bool
deriving DecidableEq

/-- A row of `purchases`; its Numeric(12,2) columns are counted in cents. -/
structure Purchase where
  id : String
  externalId : String
  userId : String
  merchantId : String
  offerId : Option String
  amount : Int
  cashbackAmount : Int
  currency : String
  status : PurchaseStatus
  createdAt : Nat
deriving DecidableEq

structure CashbackTransaction where
  id : String
  userId : String
  purchaseId : String
  amount : Int
  status : CashbackTransactionStatus
  createdAt : Nat
deriving DecidableEq

/-- A row of `wallets` without its key. -/
structure Wallet where
  pendingBalance : Int
  availableBalance : Int
  paidBalance : Int
deriving DecidableEq

inductive AuditActorType
  | system
  | admin
  | user
deriving DecidableEq

inductive AuditOutcome
  | success
  | failure
deriving DecidableEq

inductive AuditAction
  | purchaseConfirmed
  | purchaseRejected
  | cashbackCredited
  | withdrawalRequested
  | withdrawalProcessed
  | purchaseReversed
  | merchantActivated
  | offerActivated
deriving DecidableEq

inductive AuditDetail
  | text (s : String)
  | decimal (cents : Int)
  | status (s : PurchaseStatus)
deriving DecidableEq

structure AuditLog where
  occurredAt : Nat
  actorType : AuditActorType
  actorId : Option String
  action : AuditAction
  resourceType : String
  resourceId : String
  outcome : AuditOutcome
  details : List (String × AuditDetail)
deriving DecidableEq

inductive PurchaseException
  | duplicatePurchase (externalId : String) (createdAt : Nat) (amount : Int)
  | userNotFound (userId : String)
  | userInactive (userId : String)
  | merchantNotFound (merchantId : String)
  | merchantInactive (merchantId : String)
  | offerNotAvailable (merchantId : String)
  | unsupportedCurrency (currency : String)
  | purchaseOwnershipViolation (currentUserId requestedUserId : String)
  | purchaseNotFound (purchaseId : String)
  | purchaseAlreadyReversed (purchaseId : String) (currentStatus : PurchaseStatus)
      (reversibleFromStatuses : List PurchaseStatus)
  | purchaseViewForbidden (purchaseId resourceOwnerId currentUserId : String)
  | invalidPurchaseStatus (status : String)
  | purchaseNotPending (purchaseId : String) (currentStatus requiredStatus : PurchaseStatus)
  | multipleResultsFound
  | integrityError
  | invalidOperation
  | operationalError
deriving DecidableEq

/-- The body of POST /purchases after validation. -/
structure PurchaseCreate where
  externalId : String
  userId : String
  merchantId : String
  amount : Decimal
  currency : String
  externalId_length : 1 ≤ externalId.length
  amount_pos : 0 < amount.coeff
  amount_scale : -2 ≤ amount.exp
  currency_length : currency.length = 3

/-- The amount in cents, which the scale of a request makes exact. -/
def PurchaseCreate.amountCents (data : PurchaseCreate) : Int :=
  data.amount.coeff * 10 ^ (data.amount.exp + 2).toNat

/-- What `enforce_cashback_value_validity` leaves of the values of an offer. -/
def Accepted (o : Offer Decimal) : Prop :=
  0 ≤ o.percentage.coeff ∧ ∀ f ∈ o.fixedAmount, 0 ≤ f.coeff

/-- The rows that other modules own: purchases only reads them. -/
structure Catalog where
  users : Table User String [User.id]
  merchants : MerchantTable
  offers : OfferTable Decimal
  accepted : ∀ o ∈ offers.rows, Accepted o

abbrev PurchaseTable := Table Purchase String [Purchase.id, Purchase.externalId]

abbrev TransactionTable :=
  Table CashbackTransaction String [CashbackTransaction.id, CashbackTransaction.purchaseId]

structure Database where
  catalog : Catalog
  purchases : PurchaseTable
  transactions : TransactionTable
  wallets : String → Option Wallet
  auditLogs : Multiset AuditLog

end ClickNBack.Purchases
