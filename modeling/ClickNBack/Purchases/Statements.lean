import ClickNBack.Purchases.Models
import ClickNBack.ReadCommitted.Program
import Mathlib.Tactic.Ring

namespace ClickNBack.Purchases

open Relational ReadCommitted Function

/-- The SET clauses of an UPDATE of one purchase. -/
inductive PurchaseUpdate
  | status (s : PurchaseStatus)
  | reversed
deriving DecidableEq

def PurchaseUpdate.on : PurchaseUpdate → Purchase → Purchase
  | .status s, p => { p with status := s }
  | .reversed, p => { p with status := .reversed, cashbackAmount := 0 }

def CashbackTransaction.withStatus (s : CashbackTransactionStatus) (t : CashbackTransaction) :
    CashbackTransaction := { t with status := s }

/-- An UPDATE of both balances by increments. -/
def Wallet.add (pending available : Int) (w : Wallet) : Wallet :=
  { w with
    pendingBalance := w.pendingBalance + pending
    availableBalance := w.availableBalance + available }

/-- The upsert of `credit_pending`: a new row holds the amount. -/
def credit (amount : Int) : Option Wallet → Wallet
  | none => ⟨amount, 0, 0⟩
  | some w => w.add amount 0

inductive Sql
  | insertPurchase (row : Purchase)
  | updatePurchase (id : String) (set : PurchaseUpdate)
  | insertTransaction (row : CashbackTransaction)
  | updateTransaction (purchaseId : String) (status : CashbackTransactionStatus)
  | upsertWallet (userId : String) (amount : Int)
  | updateWallet (userId : String) (pending available : Int)
  | insertAuditLog (row : AuditLog)
deriving DecidableEq

theorem PurchaseUpdate.keeps (u : PurchaseUpdate) :
    ∀ g ∈ [Purchase.id, Purchase.externalId], ∀ r, g (u.on r) = g r := by
  cases u <;> simp [PurchaseUpdate.on]

theorem CashbackTransaction.withStatus_keeps (s : CashbackTransactionStatus) :
    ∀ g ∈ [CashbackTransaction.id, CashbackTransaction.purchaseId], ∀ r,
      g (r.withStatus s) = g r := by
  simp [CashbackTransaction.withStatus]

def PurchaseTable.update (t : PurchaseTable) (id : String) (u : PurchaseUpdate) : PurchaseTable :=
  t.modify Purchase.id id u.on u.keeps

def TransactionTable.update (t : TransactionTable) (purchaseId : String)
    (s : CashbackTransactionStatus) : TransactionTable :=
  t.modify CashbackTransaction.purchaseId purchaseId (·.withStatus s)
    (CashbackTransaction.withStatus_keeps s)

/-- The rows, by table and key, that a statement may lock. -/
inductive LockKey
  | purchase (id : String)
  | externalId (externalId : String)
  | transaction (id : String)
  | transactionOf (purchaseId : String)
  | wallet (userId : String)
deriving DecidableEq

namespace Sql

def exec : Sql → Database → Except PurchaseException Database
  | .insertPurchase row, d =>
    match d.purchases.insert row with
    | some t => .ok { d with purchases := t }
    | none => .error .integrityError
  | .updatePurchase id set, d => .ok { d with purchases := PurchaseTable.update d.purchases id set }
  | .insertTransaction row, d =>
    match d.transactions.insert row with
    | some t => .ok { d with transactions := t }
    | none => .error .integrityError
  | .updateTransaction purchaseId status, d =>
    .ok { d with transactions := TransactionTable.update d.transactions purchaseId status }
  | .upsertWallet userId amount, d =>
    .ok { d with wallets := update d.wallets userId (some (credit amount (d.wallets userId))) }
  | .updateWallet userId pending available, d =>
    .ok { d with
      wallets := update d.wallets userId ((d.wallets userId).map (·.add pending available)) }
  | .insertAuditLog row, d => .ok { d with auditLogs := row ::ₘ d.auditLogs }

/-- An UPDATE locks the rows that it finds, an INSERT the keys that it adds. -/
def locks : Sql → Database → List LockKey
  | .insertPurchase row, _ => [.purchase row.id, .externalId row.externalId]
  | .updatePurchase id _, d =>
    if (d.purchases.find Purchase.id id).isSome then [.purchase id] else []
  | .insertTransaction row, _ => [.transaction row.id, .transactionOf row.purchaseId]
  | .updateTransaction purchaseId _, d =>
    if (d.transactions.find CashbackTransaction.purchaseId purchaseId).isSome then
      [.transactionOf purchaseId] else []
  | .upsertWallet userId _, _ => [.wallet userId]
  | .updateWallet userId _ _, d => if (d.wallets userId).isSome then [.wallet userId] else []
  | .insertAuditLog _, _ => []

instance : Statement Sql Database PurchaseException LockKey := ⟨exec, locks⟩

end Sql

section

variable (d : Database)

@[simp] theorem apply_insertPurchase (row : Purchase) :
    apply (Sql.insertPurchase row) d = { d with purchases := d.purchases.put row } := by
  rw [apply]
  simp only [Statement.exec, Sql.exec, Table.put]
  cases d.purchases.insert row <;> rfl

@[simp] theorem apply_insertTransaction (row : CashbackTransaction) :
    apply (Sql.insertTransaction row) d = { d with transactions := d.transactions.put row } := by
  rw [apply]
  simp only [Statement.exec, Sql.exec, Table.put]
  cases d.transactions.insert row <;> rfl

@[simp] theorem apply_updatePurchase (id : String) (u : PurchaseUpdate) :
    apply (Sql.updatePurchase id u) d =
      { d with purchases := PurchaseTable.update d.purchases id u } := rfl

@[simp] theorem apply_updateTransaction (purchaseId : String) (s : CashbackTransactionStatus) :
    apply (Sql.updateTransaction purchaseId s) d =
      { d with transactions := TransactionTable.update d.transactions purchaseId s } := rfl

@[simp] theorem apply_upsertWallet (userId : String) (amount : Int) :
    apply (Sql.upsertWallet userId amount) d =
      { d with wallets := update d.wallets userId (some (credit amount (d.wallets userId))) } := rfl

@[simp] theorem apply_updateWallet (userId : String) (pending available : Int) :
    apply (Sql.updateWallet userId pending available) d =
      { d with wallets :=
          update d.wallets userId ((d.wallets userId).map (·.add pending available)) } := rfl

@[simp] theorem apply_insertAuditLog (row : AuditLog) :
    apply (Sql.insertAuditLog row) d = { d with auditLogs := row ::ₘ d.auditLogs } := rfl

def Sql.onPurchases : Sql → PurchaseTable → PurchaseTable
  | .insertPurchase row, t => t.put row
  | .updatePurchase id set, t => PurchaseTable.update t id set
  | _, t => t

def Sql.onTransactions : Sql → TransactionTable → TransactionTable
  | .insertTransaction row, t => t.put row
  | .updateTransaction purchaseId status, t => TransactionTable.update t purchaseId status
  | _, t => t

def Sql.onWallets : Sql → (String → Option Wallet) → String → Option Wallet
  | .upsertWallet userId amount, w => update w userId (some (credit amount (w userId)))
  | .updateWallet userId pending available, w =>
    update w userId ((w userId).map (·.add pending available))
  | _, w => w

def Sql.onAuditLogs : Sql → Multiset AuditLog → Multiset AuditLog
  | .insertAuditLog row, rows => row ::ₘ rows
  | _, rows => rows

theorem apply_eq (s : Sql) :
    apply s d = ⟨d.catalog, s.onPurchases d.purchases, s.onTransactions d.transactions,
      s.onWallets d.wallets, s.onAuditLogs d.auditLogs⟩ := by
  cases s with
  | insertPurchase row => rw [apply_insertPurchase]; rfl
  | insertTransaction row => rw [apply_insertTransaction]; rfl
  | updatePurchase | updateTransaction | upsertWallet | updateWallet | insertAuditLog => rfl

theorem catalog_apply (s : Sql) : (apply s d).catalog = d.catalog := by
  rw [apply_eq]

theorem catalog_run {β : Type} (p : Prog Database Sql PurchaseException β) :
    (p.run d []).2.catalog = d.catalog := by
  rw [Prog.run_snd]
  exact replay_congr Database.catalog _ d fun s _ d => catalog_apply d s

def Sql.refusable : Sql → Bool
  | .insertPurchase _ | .insertTransaction _ => true
  | _ => false

theorem exec_eq_apply {s : Sql} (h : s.refusable = false) :
    Statement.exec s d = .ok (apply s d) := by
  cases s with
  | insertPurchase row | insertTransaction row => cases h
  | updatePurchase | updateTransaction | upsertWallet | updateWallet | insertAuditLog => rfl

theorem committed_write_bind {s : Sql} {β : Type} (h : s.refusable = false)
    (g : Unit → Prog Database Sql PurchaseException β) (log : List Sql) :
    (Prog.execute s >>= g).committed d log = (g ()).committed d (log ++ [s]) := by
  change (Prog.bind (Prog.execute s) g).committed d log = _
  simp only [Prog.execute, Prog.bind, Prog.committed, exec_eq_apply (replay log d) h]

theorem exec_insertPurchase_iff (row : Purchase) :
    (∃ d', Statement.exec (Sql.insertPurchase row) d = .ok d') ↔ d.purchases.Free row := by
  simp only [Statement.exec, Sql.exec]
  rw [← Table.insert_isSome]
  cases d.purchases.insert row <;> simp

theorem exec_insertTransaction_iff (row : CashbackTransaction) :
    (∃ d', Statement.exec (Sql.insertTransaction row) d = .ok d') ↔ d.transactions.Free row := by
  simp only [Statement.exec, Sql.exec]
  rw [← Table.insert_isSome]
  cases d.transactions.insert row <;> simp

theorem update_add_zero (wallets : String → Option Wallet) (userId : String) :
    update wallets userId ((wallets userId).map (·.add 0 0)) = wallets := by
  funext v
  by_cases h : v = userId
  · subst h
    cases wallets v <;> simp [Wallet.add]
  · simp [h]

end

end ClickNBack.Purchases
