import ClickNBack.Purchases.Effects
import ClickNBack.Transition.Runs

namespace ClickNBack.Purchases

open Relational ReadCommitted Prog

/-- The operations on purchases, with everything they read from outside the
database: generated keys, clocks and the bank. -/
inductive Operation
  | ingest (purchaseId transactionId : String) (today now : Nat) (data : PurchaseCreate)
      (currentUserId : String)
  | attempt (verify : Purchase → Nat → VerificationResult) (now : Nat) (purchaseId : String)
      (number : Nat)
  | forceReject (now : Nat) (purchaseId : String) (maxAttempts : Int)
  | confirmManually (now : Nat) (purchaseId adminId : String)
  | reverse (now : Nat) (purchaseId adminId : String)

namespace Operation

/-- The coroutine that serves the operation, the result left out. -/
def prog : Operation → Coroutine Unit
  | .ingest purchaseId transactionId today now data currentUserId => do
    let _ ← ingestPurchase purchaseId transactionId today now data currentUserId
  | .attempt verify now purchaseId number => do
    let _ ← verificationAttempt (auditedBroker now) verify now purchaseId number
  | .forceReject now purchaseId maxAttempts =>
    Purchases.forceReject (auditedBroker now) now purchaseId maxAttempts
  | .confirmManually now purchaseId adminId => do
    let _ ← confirmPurchaseManually (auditedBroker now) now purchaseId adminId
  | .reverse now purchaseId adminId => do
    let _ ← reversePurchase (auditedBroker now) purchaseId adminId

def exec (o : Operation) (d : Database) : Database := (o.prog.run d []).2

inductive Effect (d : Database) : Operation → List Sql → Prop
  | idle (o : Operation) : Effect d o []
  | ingested {purchaseId transactionId : String} {today now : Nat} {data : PurchaseCreate}
      {currentUserId : String} {row : Purchase}
      (h : Ingests d purchaseId transactionId today now data row) :
      Effect d (.ingest purchaseId transactionId today now data currentUserId)
        (ingestionWrites transactionId row)
  | confirmed {verify : Purchase → Nat → VerificationResult} {now : Nat} {purchaseId : String}
      {number : Nat} {p : Purchase} (h : d.purchases.find Purchase.id purchaseId = some p)
      (hs : p.status = .pending) :
      Effect d (.attempt verify now purchaseId number)
        (confirmationWrites p ++ [.insertAuditLog (confirmedLog now p)])
  | rejected {verify : Purchase → Nat → VerificationResult} {now : Nat} {purchaseId : String}
      {number : Nat} {p : Purchase} (reason : String)
      (h : d.purchases.find Purchase.id purchaseId = some p) (hs : p.status = .pending) :
      Effect d (.attempt verify now purchaseId number)
        (rejectionWrites p ++ [.insertAuditLog (rejectedLog now reason p)])
  | exhausted {now : Nat} {purchaseId : String} {maxAttempts : Int} {p : Purchase}
      (h : d.purchases.find Purchase.id purchaseId = some p) (hs : p.status = .pending) :
      Effect d (.forceReject now purchaseId maxAttempts)
        (rejectionWrites p ++
          [.insertAuditLog (rejectedLog now (exhaustedReason maxAttempts) p)])
  | confirmedManually {now : Nat} {purchaseId adminId : String} {p : Purchase}
      (h : d.purchases.find Purchase.id purchaseId = some p) (hs : p.status = .pending) :
      Effect d (.confirmManually now purchaseId adminId) (confirmationWrites p)
  | reversed {now : Nat} {purchaseId adminId : String} {p : Purchase}
      (h : d.purchases.find Purchase.id purchaseId = some p) (hs : p.status ≠ .reversed) :
      Effect d (.reverse now purchaseId adminId)
        (reversalWrites p ++ [.insertAuditLog (reversedLog now adminId p)])

theorem find_cases (d : Database) (purchaseId : String) :
    (∀ p, d.purchases.find Purchase.id purchaseId = some p → p.status ≠ .pending) ∨
      ∃ p, d.purchases.find Purchase.id purchaseId = some p ∧ p.status = .pending := by
  cases h : d.purchases.find Purchase.id purchaseId with
  | none => exact Or.inl fun p hp => by cases hp
  | some p =>
    by_cases hs : p.status = .pending
    · exact Or.inr ⟨p, rfl, hs⟩
    · refine Or.inl fun q hq => ?_
      cases hq
      exact hs

theorem committed_discard {α : Type} (p : Coroutine α) (d : Database) (log : List Sql) :
    (p >>= fun _ => pure ()).committed d log = p.committed d log := by
  change (Prog.bind p fun _ => .ret ()).committed d log = _
  induction p generalizing d log with
  | ret a | raise e => rfl
  | select k ih => exact ih _ d log
  | exec s k ih =>
    simp only [Prog.bind, committed]
    cases Statement.exec s (replay log d) with
    | ok d' => exact ih _ d (log ++ [s])
    | error e => exact ih _ d []
  | commit k ih => simp only [Prog.bind, committed, ih]
  | close k ih => exact ih d []

theorem effect (o : Operation) (d : Database) : o.Effect d (o.prog.committed d []) := by
  cases o with
  | ingest purchaseId transactionId today now data currentUserId =>
    simp only [prog, committed_discard]
    obtain h | ⟨row, hrow, h⟩ :=
      ingestPurchase_committed d purchaseId transactionId today now data currentUserId
    · rw [h]
      exact Effect.idle _
    · rw [h]
      exact Effect.ingested hrow
  | attempt verify now purchaseId number =>
    simp only [prog, committed_discard]
    obtain h | ⟨p, h, hs⟩ := find_cases d purchaseId
    · rw [verificationAttempt_idle verify now number h]
      exact Effect.idle _
    · rw [verificationAttempt_pending verify now number h hs]
      cases (verify p number).disposition with
      | confirmed => exact Effect.confirmed h hs
      | rejected => exact Effect.rejected _ h hs
      | pending => exact Effect.idle _
  | forceReject now purchaseId maxAttempts =>
    obtain h | ⟨p, h, hs⟩ := find_cases d purchaseId
    · simp only [prog, forceReject_idle now maxAttempts h]
      exact Effect.idle _
    · simp only [prog, forceReject_pending now maxAttempts h hs]
      exact Effect.exhausted h hs
  | confirmManually now purchaseId adminId =>
    simp only [prog, committed_discard]
    obtain h | ⟨p, h, hs⟩ := find_cases d purchaseId
    · rw [confirmPurchaseManually_idle now adminId h]
      exact Effect.idle _
    · rw [confirmPurchaseManually_pending now adminId h hs]
      exact Effect.confirmedManually h hs
  | reverse now purchaseId adminId =>
    simp only [prog, committed_discard]
    by_cases h : ∃ p, d.purchases.find Purchase.id purchaseId = some p ∧ p.status ≠ .reversed
    · obtain ⟨p, h, hs⟩ := h
      rw [reversePurchase_settled now adminId h hs]
      exact Effect.reversed h hs
    · rw [reversePurchase_idle now adminId fun p hp => by
        by_contra hs
        exact h ⟨p, hp, hs⟩]
      exact Effect.idle _

theorem exec_eq_replay (o : Operation) (d : Database) :
    o.exec d = replay (o.prog.committed d []) d := run_snd _ _ _

end Operation

/-- One step of a sequential run: an operation on purchases, or a change that
other modules make to the rows they own. -/
inductive Step
  | operation (o : Operation)
  | administer (catalog : Catalog)

def Step.exec : Step → Database → Database
  | .operation o, d => o.exec d
  | .administer catalog, d => { d with catalog }

def runSteps (steps : List Step) (d : Database) : Database := Transition.run Step.exec steps d

theorem runSteps_append (l l' : List Step) (d : Database) :
    runSteps (l ++ l') d = runSteps l' (runSteps l d) := Transition.run_append _ l l' d

theorem runSteps_singleton (s : Step) (d : Database) : runSteps [s] d = s.exec d := rfl

/-- The database before the first purchase, and so before the first cashback
transaction. -/
def noPurchases (catalog : Catalog) (wallets : String → Option Wallet)
    (auditLogs : Multiset AuditLog) : Database where
  catalog
  purchases := Table.empty
  transactions := Table.empty
  wallets
  auditLogs

def noWallets : String → Option Wallet := fun _ => none

/-- A shop whose offer gives ten percent, and its one customer. -/
def oneOffer : Catalog where
  users := ⟨{⟨"ana", true⟩}, by simp⟩
  merchants := ⟨{⟨"shop", "Shop", true⟩}, by simp⟩
  offers := ⟨{⟨"offer", "shop", ⟨10, 0⟩, none, 0, 30, ⟨100, 0⟩, true⟩}, by simp⟩
  accepted := by simp [Accepted]

def oneRequest (externalId : String) (cents : Int) (hcents : 0 < cents)
    (hid : 1 ≤ externalId.length := by decide) : PurchaseCreate where
  externalId
  userId := "ana"
  merchantId := "shop"
  amount := ⟨cents, -2⟩
  currency := "EUR"
  externalId_length := hid
  amount_pos := hcents
  amount_scale := le_refl _
  currency_length := by decide

theorem one_le_length_ext : 1 ≤ "ext".length := by decide

theorem tenEuros_pos : (0 : Int) < 1000 := by decide

theorem twentyEuros_pos : (0 : Int) < 2000 := by decide

theorem hundredEuros_pos : (0 : Int) < 10000 := by decide

end ClickNBack.Purchases
