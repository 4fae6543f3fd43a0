import ClickNBack.Core.Errors
import ClickNBack.Purchases.Services

namespace ClickNBack.Purchases

open Relational ReadCommitted Prog ClickNBack.Core

structure PurchaseOut where
  id : String
  status : PurchaseStatus
  cashbackAmount : Int
deriving DecidableEq

structure PurchaseDetailsOut where
  id : String
  merchantName : String
  amount : Int
  status : PurchaseStatus
  cashbackAmount : Int
  cashbackStatus : Option String
  createdAt : Nat
deriving DecidableEq

/-- It has the same fields. -/
abbrev UserPurchaseOut := PurchaseDetailsOut

structure PaginatedUserPurchaseOut where
  data : List UserPurchaseOut
  pagination : PaginationOut
deriving DecidableEq

def listUserPurchases (listing : Listing Purchase) (currentUserId : String)
    (status : Option String) (offset limit : Nat) :
    Coroutine (List (Purchase × String) × Nat) := do
  match status with
  | some value =>
    if PurchaseStatus.ofValue value = none then
      raise (.invalidPurchaseStatus value)
    else pure ()
  | none => pure ()
  let (purchases, total) ← PurchaseRepository.listPurchases listing
    (status.bind PurchaseStatus.ofValue) (some currentUserId) offset limit
  let merchantsMap ← MerchantsClient.getMerchantsByIds (purchases.map Purchase.merchantId)
  let enriched := purchases.map fun p => (p, (merchantsMap p.merchantId).elim "Unknown" (·.name))
  return (enriched, total)

def getPurchaseDetails (purchaseId currentUserId : String) : Coroutine (Purchase × String) := do
  match ← PurchaseRepository.getById purchaseId with
  | none => raise (.purchaseNotFound purchaseId)
  | some purchase =>
    lift (enforcePurchaseViewOwnership currentUserId purchase.userId purchaseId)
    let merchant ← MerchantsClient.getMerchantById purchase.merchantId
    return (purchase, merchant.elim "Unknown" (·.name))

namespace PublicApi

/-- The `except` clauses of the endpoint `ingest_purchase`; `now` is the clock of an
internal error. -/
def ingestError (now : Nat) : PurchaseException → HttpError
  | .purchaseOwnershipViolation _ _ =>
    forbiddenError "You can only ingest purchases on your own behalf."
      [("reason",
        .text "The user_id in the request does not match the authenticated user.")]
  | .duplicatePurchase externalId createdAt amount =>
    businessRuleViolationError "DUPLICATE_PURCHASE"
      ("A purchase with external ID '" ++ externalId ++ "' has already been processed.")
      [("external_id", .text externalId), ("previously_created_at", .isoformat createdAt),
        ("previously_processed_amount", .decimal amount),
        ("action", .text ("This request is idempotent and safe to retry. " ++
          "You will receive the same result."))]
  | .userNotFound userId | .userInactive userId =>
    unprocessableEntityError "USER_NOT_ELIGIBLE" "User is not eligible to ingest purchases."
      [("user_id", .text userId), ("reason",
        .text "Purchase cannot be ingested for users who are non-existent or inactive.")]
  | .merchantNotFound merchantId | .merchantInactive merchantId =>
    unprocessableEntityError "MERCHANT_NOT_ELIGIBLE"
      "Merchant is not eligible to process purchases."
      [("merchant_id", .text merchantId), ("reason",
        .text "Purchases cannot be processed for merchants who are non-existent or inactive.")]
  | .offerNotAvailable merchantId =>
    unprocessableEntityError "OFFER_NOT_AVAILABLE"
      ("No active offer is available for merchant '" ++ merchantId ++ "'.")
      [("merchant_id", .text merchantId), ("reason",
        .text "Purchases cannot be processed without a valid active offer for the merchant.")]
  | .unsupportedCurrency currency =>
    unprocessableEntityError "UNSUPPORTED_CURRENCY"
      ("Currency '" ++ currency ++ "' is not supported. Only EUR is accepted at this time.")
      [("currency", .text currency),
        ("reason", .text "The platform currently processes purchases in EUR only.")]
  | _ => internalServerError now

def listError (now : Nat) : PurchaseException → HttpError
  | .invalidPurchaseStatus status =>
    unprocessableEntityError "INVALID_PURCHASE_STATUS"
      ("'" ++ status ++ "' is not a valid purchase status. " ++
        "Allowed values: pending, confirmed, reversed.") []
  | _ => internalServerError now

def detailsError (now : Nat) : PurchaseException → HttpError
  | .purchaseNotFound purchaseId =>
    notFoundError ("Purchase with ID '" ++ purchaseId ++ "' does not exist.")
      [("resource_type", .text "purchase"), ("resource_id", .text purchaseId)]
  | .purchaseViewForbidden purchaseId resourceOwnerId currentUserId =>
    forbiddenError
      ("You do not have permission to view this purchase. " ++
        "Purchase belongs to another user.")
      [("purchase_id", .text purchaseId), ("resource_owner", .text resourceOwnerId),
        ("current_user", .text currentUserId)]
  | _ => internalServerError now

def purchaseDetailsOut (r : Purchase × String) : PurchaseDetailsOut :=
  ⟨r.1.id, r.2, r.1.amount, r.1.status, r.1.cashbackAmount, none, r.1.createdAt⟩

/-- The response that a coroutine ends with on the committed rows `d`. -/
def respond {α β : Type} (p : Coroutine α) (out : α → β) (error : PurchaseException → HttpError)
    (d : Database) : Except HttpError β :=
  match (p.run d []).1 with
  | .ok a => .ok (out a)
  | .error e => .error (error e)

def ingestPurchase (clock : Nat) (purchaseId transactionId : String) (today now : Nat)
    (data : PurchaseCreate) (currentUserId : String) (d : Database) :
    Except HttpError PurchaseOut :=
  respond (Purchases.ingestPurchase purchaseId transactionId today now data currentUserId)
    (fun p => ⟨p.id, p.status, p.cashbackAmount⟩) (ingestError clock) d

def listUserPurchases (clock : Nat) (listing : Listing Purchase) (currentUserId : String)
    (status : Option String) (offset limit : Nat) (d : Database) :
    Except HttpError PaginatedUserPurchaseOut :=
  respond (Purchases.listUserPurchases listing currentUserId status offset limit)
    (fun r => ⟨r.1.map purchaseDetailsOut, ⟨offset, limit, r.2⟩⟩) (listError clock) d

def getPurchaseDetails (clock : Nat) (purchaseId currentUserId : String) (d : Database) :
    Except HttpError PurchaseDetailsOut :=
  respond (Purchases.getPurchaseDetails purchaseId currentUserId) purchaseDetailsOut
    (detailsError clock) d

end PublicApi

end ClickNBack.Purchases
