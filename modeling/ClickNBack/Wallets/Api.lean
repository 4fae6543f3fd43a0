import ClickNBack.Purchases.PublicApi

namespace ClickNBack.Wallets

open Relational Purchases ClickNBack.Core

structure WalletSummaryOut where
  pendingBalance : Int
  availableBalance : Int
  paidBalance : Int
deriving DecidableEq

inductive WalletTransactionType
  | cashbackCredit
deriving DecidableEq

structure WalletTransactionOut where
  id : String
  type : WalletTransactionType
  amount : Int
  status : CashbackTransactionStatus
  relatedPurchaseId : Option String
deriving DecidableEq

structure PaginatedWalletTransactionOut where
  data : List WalletTransactionOut
  pagination : PaginationOut
deriving DecidableEq

def getWalletSummary (userId : String) : Coroutine WalletSummaryOut := do
  match ← WalletsClient.getByUserId userId with
  | none => return ⟨0, 0, 0⟩
  | some wallet => return ⟨wallet.pendingBalance, wallet.availableBalance, wallet.paidBalance⟩

def listWalletTransactions (listing : Listing CashbackTransaction) (userId : String)
    (limit offset : Nat) : Coroutine PaginatedWalletTransactionOut := do
  let (txns, total) ← CashbackClient.listByUserId listing userId limit offset
  let transactions := txns.map fun txn =>
    ⟨txn.id, .cashbackCredit, txn.amount, txn.status, some txn.purchaseId⟩
  return ⟨transactions, ⟨offset, limit, total⟩⟩

namespace Api

def getWalletSummary (clock : Nat) (userId : String) (d : Database) :
    Except HttpError WalletSummaryOut :=
  PublicApi.respond (Wallets.getWalletSummary userId) id (fun _ => internalServerError clock) d

def listWalletTransactions (clock : Nat) (listing : Listing CashbackTransaction) (userId : String)
    (limit offset : Nat) (d : Database) : Except HttpError PaginatedWalletTransactionOut :=
  PublicApi.respond (Wallets.listWalletTransactions listing userId limit offset) id
    (fun _ => internalServerError clock) d

end Api

end ClickNBack.Wallets
