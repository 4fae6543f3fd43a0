import ClickNBack.Purchases.AuditTrail
import ClickNBack.Purchases.Policies

namespace ClickNBack.Purchases

open ReadCommitted Prog

def newPurchase (purchaseId : String) (now : Nat) (data : PurchaseCreate) (offerId : String)
    (cashbackAmount : Int) : Purchase where
  id := purchaseId
  externalId := data.externalId
  userId := data.userId
  merchantId := data.merchantId
  offerId := some offerId
  amount := data.amountCents
  cashbackAmount
  currency := data.currency
  status := .pending
  createdAt := now

/-- `PurchaseService.ingest_purchase`; the keys and the timestamp of the new rows
are what the defaults of their columns generate. -/
def ingestPurchase (purchaseId transactionId : String) (today now : Nat) (data : PurchaseCreate)
    (currentUserId : String) : Coroutine Purchase := do
  lift (enforcePurchaseOwnership currentUserId data.userId)
  let existing ← PurchaseRepository.getByExternalId data.externalId
  lift (refuseDuplicate data.externalId existing)
  lift (enforceCurrencyEur data.currency)
  let user ← UsersClient.getUserById data.userId
  lift (enforceUserActive user data.userId)
  let merchant ← MerchantsClient.getMerchantById data.merchantId
  lift (enforceMerchantActive merchant data.merchantId)
  let available ← OffersClient.getActiveOfferForMerchant data.merchantId today
  let offer ← lift (enforceOfferAvailable available data.merchantId)
  let cashback ← lift (calculate offer.id offer.percentage offer.fixedAmount data.amount)
  let result ← PurchaseRepository.addPurchase
    (newPurchase purchaseId now data offer.id cashback.cashbackAmount)
  CashbackClient.create transactionId result.id data.userId cashback.cashbackAmount now
  WalletsClient.creditPending data.userId cashback.cashbackAmount
  commitTx
  return result

/-- The session holds one object for the row, so after the flush of
`update_status` the caller's `purchase` is the refreshed one. -/
def applyPurchaseConfirmation (purchase : Purchase) : Coroutine Purchase := do
  let confirmed ← PurchaseRepository.updateStatus purchase.id .confirmed
  let purchase := confirmed.getD purchase
  if purchase.cashbackAmount > 0 then
    CashbackClient.confirm purchase.id
    WalletsClient.confirmPending purchase.userId purchase.cashbackAmount
  return purchase

def confirmPurchaseManually (broker : MessageBroker) (now : Nat) (purchaseId adminId : String) :
    Coroutine Purchase := do
  match ← PurchaseRepository.getById purchaseId with
  | none => raise (.purchaseNotFound purchaseId)
  | some purchase =>
    lift (enforcePurchasePending purchaseId purchase.status)
    let purchase ← applyPurchaseConfirmation purchase
    commitTx
    broker.publish (t := .purchaseConfirmedByAdmin) {
      purchaseId
      userId := purchase.userId
      adminId
      merchantId := purchase.merchantId
      amount := purchase.amount
      currency := purchase.currency
      cashbackAmount := purchase.cashbackAmount
      confirmedAt := now : PurchaseConfirmedByAdmin }
    return purchase

def reversePurchase (broker : MessageBroker) (purchaseId adminId : String) :
    Coroutine Purchase := do
  match ← PurchaseRepository.getById purchaseId with
  | none => raise (.purchaseNotFound purchaseId)
  | some purchase =>
    lift (enforcePurchaseReversible purchaseId purchase.status)
    let originalCashbackAmount := purchase.cashbackAmount
    let priorStatus := purchase.status
    CashbackClient.reverse purchaseId
    if priorStatus = .pending then
      WalletsClient.reversePending purchase.userId originalCashbackAmount
    else
      WalletsClient.reverseAvailable purchase.userId originalCashbackAmount
    let reversed ← PurchaseRepository.reversePurchase purchaseId
    let purchase := reversed.getD purchase
    commitTx
    broker.publish (t := .purchaseReversed) {
      purchaseId
      userId := purchase.userId
      adminId
      merchantId := purchase.merchantId
      amount := purchase.amount
      currency := purchase.currency
      priorStatus : PurchaseReversed }
    return purchase

def confirmPurchase (broker : MessageBroker) (purchase : Purchase) (verifiedAt : Nat) :
    Coroutine Unit := do
  let purchase ← applyPurchaseConfirmation purchase
  commitTx
  broker.publish (t := .purchaseConfirmed) {
    purchaseId := purchase.id
    userId := purchase.userId
    merchantId := purchase.merchantId
    amount := purchase.amount
    currency := purchase.currency
    cashbackAmount := purchase.cashbackAmount
    verifiedAt : PurchaseConfirmed }

def rejectPurchase (broker : MessageBroker) (purchase : Purchase) (reason : String)
    (failedAt : Nat) : Coroutine Unit := do
  let rejected ← PurchaseRepository.updateStatus purchase.id .rejected
  let purchase := rejected.getD purchase
  if purchase.cashbackAmount > 0 then
    CashbackClient.reverse purchase.id
    WalletsClient.reversePending purchase.userId purchase.cashbackAmount
  commitTx
  broker.publish (t := .purchaseRejected) {
    purchaseId := purchase.id
    userId := purchase.userId
    merchantId := purchase.merchantId
    amount := purchase.amount
    currency := purchase.currency
    failedAt
    reason : PurchaseRejected }

inductive Disposition
  | confirmed
  | rejected
  | pending
deriving DecidableEq

structure VerificationResult where
  disposition : Disposition
  reason : Option String

/-- `result.reason or "Verification declined."` -/
def declineReason (reason : Option String) : String :=
  match reason with
  | none | some "" => "Verification declined."
  | some r => r

/-- One round of the loop of `_run_verification_with_retry`, in its own session;
the result says whether the runner stops. -/
def verificationAttempt (broker : MessageBroker) (verify : Purchase → Nat → VerificationResult)
    (now : Nat) (purchaseId : String) (attempt : Nat) : Coroutine Bool := do
  match ← PurchaseRepository.getById purchaseId with
  | none =>
    closeSession
    return true
  | some purchase =>
    if purchase.status ≠ .pending then
      closeSession
      return true
    else
      let result := verify purchase attempt
      match result.disposition with
      | .confirmed =>
        confirmPurchase broker purchase now
        closeSession
        return true
      | .rejected =>
        rejectPurchase broker purchase (declineReason result.reason) now
        closeSession
        return true
      | .pending =>
        closeSession
        return false

def exhaustedReason (maxAttempts : Int) : String :=
  "Bank reconciliation failed: no matching bank movement found after " ++ toString maxAttempts ++
    " verification attempt(s)."

/-- What `_run_verification_with_retry` does when its attempts are exhausted. -/
def forceReject (broker : MessageBroker) (now : Nat) (purchaseId : String) (maxAttempts : Int) :
    Coroutine Unit := do
  match ← PurchaseRepository.getById purchaseId with
  | none => closeSession
  | some purchase =>
    if purchase.status = .pending then
      rejectPurchase broker purchase (exhaustedReason maxAttempts) now
      closeSession
    else closeSession

end ClickNBack.Purchases
