import ClickNBack.Purchases.Statements
import ClickNBack.Relational.Queries

namespace ClickNBack.Purchases

open Relational ReadCommitted Offers

abbrev Coroutine := Prog Database Sql PurchaseException

namespace PurchaseRepository

def getByExternalId (externalId : String) : Coroutine (Option Purchase) :=
  selectOne .multipleResultsFound fun d =>
    d.purchases.rows.filter fun p => p.externalId = externalId

def getById (purchaseId : String) : Coroutine (Option Purchase) :=
  selectOne .multipleResultsFound fun d => d.purchases.rows.filter fun p => p.id = purchaseId

def addPurchase (purchase : Purchase) : Coroutine Purchase := do
  Prog.execute (.insertPurchase purchase)
  let refreshed ← getById purchase.id
  return refreshed.getD purchase

def updateStatus (purchaseId : String) (newStatus : PurchaseStatus) :
    Coroutine (Option Purchase) := do
  match ← getById purchaseId with
  | none => return none
  | some _ =>
    Prog.execute (.updatePurchase purchaseId (.status newStatus))
    getById purchaseId

def reversePurchase (purchaseId : String) : Coroutine (Option Purchase) := do
  match ← getById purchaseId with
  | none => return none
  | some _ =>
    Prog.execute (.updatePurchase purchaseId .reversed)
    getById purchaseId

/-- Without the filters by merchant and by date, which the users' own listing does
not set. -/
def listPurchases (listing : Listing Purchase) (status : Option PurchaseStatus)
    (userId : Option String) (offset limit : Nat) : Coroutine (List Purchase × Nat) := do
  let conditions (p : Purchase) : Bool :=
    status.all (p.status = ·) ∧ userId.all (p.userId = ·)
  let total ← Prog.query fun d => (d.purchases.rows.filter (conditions ·)).card
  let items ← Prog.query fun d => page offset limit
    (newestFirst Purchase.createdAt (listing.list (d.purchases.rows.filter (conditions ·))))
  return (items, total)

end PurchaseRepository

namespace UsersClient

def getUserById (userId : String) : Coroutine (Option User) :=
  selectOne .multipleResultsFound fun d => d.catalog.users.rows.filter fun u => u.id = userId

end UsersClient

namespace MerchantsClient

def getMerchantById (merchantId : String) : Coroutine (Option Merchant) :=
  selectOne .multipleResultsFound fun d =>
    d.catalog.merchants.rows.filter fun m => m.id = merchantId

def getMerchantsByIds (merchantIds : List String) : Coroutine (String → Option Merchant) :=
  Prog.query fun d merchantId =>
    if merchantId ∈ merchantIds then d.catalog.merchants.find Merchant.id merchantId else none

end MerchantsClient

namespace OffersClient

def getActiveOfferForMerchant (merchantId : String) (today : Nat) :
    Coroutine (Option (Offer Numeric.Decimal)) :=
  Prog.query (fun d =>
    Offers.getActiveOfferForMerchant .multipleResultsFound d.catalog.offers merchantId today) >>=
    Prog.lift

end OffersClient

namespace CashbackClient

/-- `transactionId` is the generated key of the new row, `now` the start of the
database transaction. -/
def create (transactionId purchaseId userId : String) (amount : Int) (now : Nat) :
    Coroutine Unit :=
  Prog.execute (.insertTransaction ⟨transactionId, userId, purchaseId, amount, .pending, now⟩)

def confirm (purchaseId : String) : Coroutine Unit :=
  Prog.execute (.updateTransaction purchaseId .available)

def reverse (purchaseId : String) : Coroutine Unit :=
  Prog.execute (.updateTransaction purchaseId .reversed)

def listByUserId (listing : Listing CashbackTransaction) (userId : String) (limit offset : Nat) :
    Coroutine (List CashbackTransaction × Nat) := do
  let total ← Prog.query fun d => (d.transactions.rows.filter fun t => t.userId = userId).card
  let items ← Prog.query fun d => page offset limit (newestFirst CashbackTransaction.createdAt
    (listing.list (d.transactions.rows.filter fun t => t.userId = userId)))
  return (items, total)

end CashbackClient

namespace WalletsClient

def getByUserId (userId : String) : Coroutine (Option Wallet) :=
  Prog.query fun d => d.wallets userId

def creditPending (userId : String) (amount : Int) : Coroutine Unit :=
  Prog.execute (.upsertWallet userId amount)

def confirmPending (userId : String) (amount : Int) : Coroutine Unit :=
  Prog.execute (.updateWallet userId (-amount) amount)

def reversePending (userId : String) (amount : Int) : Coroutine Unit :=
  Prog.execute (.updateWallet userId (-amount) 0)

def reverseAvailable (userId : String) (amount : Int) : Coroutine Unit :=
  Prog.execute (.updateWallet userId 0 (-amount))

end WalletsClient

end ClickNBack.Purchases
