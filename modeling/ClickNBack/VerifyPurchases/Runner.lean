import ClickNBack.EventLoop.Interpretation
import ClickNBack.VerifyPurchases.Job

namespace ClickNBack.VerifyPurchases

open EventLoop Purchases ReadCommitted

/-- What the runner asks of its collaborators: the repository, the bank, the cashback
and the wallets client, the session, the broker and the clock. -/
inductive Call
  | getById (purchaseId : String)
  | verify (purchase : Purchase) (attempt : Nat)
  | updateStatus (purchaseId : String) (newStatus : PurchaseStatus)
  | confirmCashback (purchaseId : String)
  | reverseCashback (purchaseId : String)
  | confirmPending (userId : String) (amount : Int)
  | reversePending (userId : String) (amount : Int)
  | commit
  | publishConfirmed (event : PurchaseConfirmed)
  | publishRejected (event : PurchaseRejected)
  | closeSession
  | sleep

abbrev Call.Answer : Call → Type
  | .getById _ | .updateStatus _ _ => Option Purchase
  | .verify _ _ => VerificationResult
  | _ => Unit

namespace Runner

abbrev RunnerCoroutine := Coro Call.Answer InFlightTracker Empty JobException

def call (q : Call) : RunnerCoroutine q.Answer := Coro.request q

def applyPurchaseConfirmation (purchase : Purchase) : RunnerCoroutine Purchase := do
  let confirmed ← call (.updateStatus purchase.id .confirmed)
  let purchase := confirmed.getD purchase
  if purchase.cashbackAmount > 0 then
    call (.confirmCashback purchase.id)
    call (.confirmPending purchase.userId purchase.cashbackAmount)
  return purchase

def confirmPurchase (purchase : Purchase) (verifiedAt : Nat) : RunnerCoroutine Unit := do
  let purchase ← applyPurchaseConfirmation purchase
  call .commit
  call <| .publishConfirmed {
    purchaseId := purchase.id
    userId := purchase.userId
    merchantId := purchase.merchantId
    amount := purchase.amount
    currency := purchase.currency
    cashbackAmount := purchase.cashbackAmount
    verifiedAt }

def rejectPurchase (purchase : Purchase) (reason : String) (failedAt : Nat) :
    RunnerCoroutine Unit := do
  let rejected ← call (.updateStatus purchase.id .rejected)
  let purchase := rejected.getD purchase
  if purchase.cashbackAmount > 0 then
    call (.reverseCashback purchase.id)
    call (.reversePending purchase.userId purchase.cashbackAmount)
  call .commit
  call <| .publishRejected {
    purchaseId := purchase.id
    userId := purchase.userId
    merchantId := purchase.merchantId
    amount := purchase.amount
    currency := purchase.currency
    failedAt
    reason }

/-- One round of the loop; the result says whether the runner stops. -/
def verificationAttempt (now : Nat) (purchaseId : String) (attempt : Nat) :
    RunnerCoroutine Bool := do
  match ← call (.getById purchaseId) with
  | none =>
    call .closeSession
    return true
  | some purchase =>
    if purchase.status ≠ .pending then
      call .closeSession
      return true
    else
      let result ← call (.verify purchase attempt)
      match result.disposition with
      | .confirmed =>
        confirmPurchase purchase now
        call .closeSession
        return true
      | .rejected =>
        rejectPurchase purchase (declineReason result.reason) now
        call .closeSession
        return true
      | .pending =>
        call .closeSession
        return false

def forceReject (now : Nat) (purchaseId : String) (maxAttempts : Int) : RunnerCoroutine Unit := do
  match ← call (.getById purchaseId) with
  | none => call .closeSession
  | some purchase =>
    if purchase.status = .pending then
      rejectPurchase purchase (exhaustedReason maxAttempts) now
      call .closeSession
    else call .closeSession

variable (clock : Nat → Nat) (maxAttempts : Int) (purchaseId : String)

def verificationRounds : List Nat → RunnerCoroutine Unit
  | [] => forceReject (clock (maxAttempts.toNat + 1)) purchaseId maxAttempts
  | attempt :: attempts => do
    if ← verificationAttempt (clock attempt) purchaseId attempt then return ()
    else
      if attempt < maxAttempts then call .sleep
      verificationRounds attempts

def runVerificationWithRetry : RunnerCoroutine Unit :=
  (verificationRounds clock maxAttempts purchaseId (List.range' 1 maxAttempts.toNat)).tryFinally
    (Coro.modify (InFlightTracker.discard purchaseId))

end Runner

/-- The collaborators of the application; the bank answers at once, and the audit
handler of an event reads the clock when the runner does. -/
def Call.implementation (verify : Purchase → Nat → VerificationResult) :
    (q : Call) → JobCoroutine q.Answer
  | .getById purchaseId => ofCoroutine (PurchaseRepository.getById purchaseId)
  | .verify purchase attempt => pure (verify purchase attempt)
  | .updateStatus purchaseId newStatus =>
    ofCoroutine (PurchaseRepository.updateStatus purchaseId newStatus)
  | .confirmCashback purchaseId => ofCoroutine (CashbackClient.confirm purchaseId)
  | .reverseCashback purchaseId => ofCoroutine (CashbackClient.reverse purchaseId)
  | .confirmPending userId amount => ofCoroutine (WalletsClient.confirmPending userId amount)
  | .reversePending userId amount => ofCoroutine (WalletsClient.reversePending userId amount)
  | .commit => ofCoroutine Prog.commitTx
  | .publishConfirmed event =>
    ofCoroutine ((auditedBroker event.verifiedAt).publish (t := .purchaseConfirmed) event)
  | .publishRejected event =>
    ofCoroutine ((auditedBroker event.failedAt).publish (t := .purchaseRejected) event)
  | .closeSession => ofCoroutine Prog.closeSession
  | .sleep => VerifyPurchases.sleep

theorem ofCoroutine_bind {α β : Type} (p : Coroutine α) (f : α → Coroutine β) :
    ofCoroutine (p >>= f) = ofCoroutine p >>= fun a => ofCoroutine (f a) := by
  change ofCoroutine (Prog.bind p f) = Coro.bind (ofCoroutine p) _
  induction p with
  | ret a | raise e => rfl
  | select k ih | exec s k ih =>
    simp only [Prog.bind, ofCoroutine, Coro.bind]
    congr 1
    funext r
    cases r with
    | ok a => exact ih a
    | error e => rfl
  | commit k ih | close k ih =>
    simp only [Prog.bind, ofCoroutine, Coro.bind]
    congr 1
    funext r
    cases r with
    | ok a => exact ih
    | error e => rfl

namespace Runner

variable (verify : Purchase → Nat → VerificationResult)

/-- With the collaborators of the application, the runner's coroutine is that of the
database. -/
def Implemented {α : Type} (c : RunnerCoroutine α) (p : Coroutine α) : Prop :=
  c.interpret (Call.implementation verify) = ofCoroutine p

section

variable {verify} {α β : Type}

theorem implemented_pure (a : α) : Implemented verify (pure a) (pure a) := rfl

theorem implemented_call {q : Call} {p : Coroutine q.Answer}
    (h : q.implementation verify = ofCoroutine p) : Implemented verify (call q) p :=
  (Coro.interpret_request _ q).trans h

theorem Implemented.bind {c : RunnerCoroutine α} {p : Coroutine α} (hc : Implemented verify c p)
    {f : α → RunnerCoroutine β} {g : α → Coroutine β} (hf : ∀ a, Implemented verify (f a) (g a)) :
    Implemented verify (c >>= f) (p >>= g) := by
  rw [Implemented] at *
  rw [Coro.interpret_bind, ofCoroutine_bind, hc]
  exact congrArg _ (funext hf)

theorem Implemented.call_bind {q : Call} {a : q.Answer} (h : q.implementation verify = pure a)
    {f : q.Answer → RunnerCoroutine β} {p : Coroutine β} (hf : Implemented verify (f a) p) :
    Implemented verify (call q >>= f) p := by
  rw [Implemented] at *
  rw [Coro.interpret_bind, call, Coro.interpret_request, h, pure_bind]
  exact hf

theorem Implemented.ite {P : Prop} [Decidable P] {c c' : RunnerCoroutine α} {p p' : Coroutine α}
    (hc : Implemented verify c p) (hc' : Implemented verify c' p') :
    Implemented verify (if P then c else c') (if P then p else p') := by
  split
  · exact hc
  · exact hc'

end

theorem applyPurchaseConfirmation_implemented (purchase : Purchase) :
    Implemented verify (applyPurchaseConfirmation purchase)
      (Purchases.applyPurchaseConfirmation purchase) := by
  apply Implemented.bind (implemented_call rfl)
  intro confirmed
  apply Implemented.ite
  · apply Implemented.bind (implemented_call rfl)
    intro _
    apply Implemented.bind (implemented_call rfl)
    intro _
    exact implemented_pure _
  · exact implemented_pure _

theorem confirmPurchase_implemented (purchase : Purchase) (now : Nat) :
    Implemented verify (confirmPurchase purchase now)
      (Purchases.confirmPurchase (auditedBroker now) purchase now) := by
  apply Implemented.bind (applyPurchaseConfirmation_implemented verify purchase)
  intro confirmed
  apply Implemented.bind (implemented_call rfl)
  intro _
  exact implemented_call rfl

theorem rejectPurchase_implemented (purchase : Purchase) (reason : String) (now : Nat) :
    Implemented verify (rejectPurchase purchase reason now)
      (Purchases.rejectPurchase (auditedBroker now) purchase reason now) := by
  have hpublish : ∀ rejected : Purchase, Implemented verify
      (do
        call .commit
        call <| .publishRejected ⟨rejected.id, rejected.userId, rejected.merchantId,
          rejected.amount, rejected.currency, now, reason⟩)
      (do
        Prog.commitTx
        (auditedBroker now).publish (t := .purchaseRejected) ⟨rejected.id, rejected.userId,
          rejected.merchantId, rejected.amount, rejected.currency, now, reason⟩) := by
    intro rejected
    apply Implemented.bind (implemented_call rfl)
    intro _
    exact implemented_call rfl
  apply Implemented.bind (implemented_call rfl)
  intro rejected
  apply Implemented.ite
  · apply Implemented.bind (implemented_call rfl)
    intro _
    apply Implemented.bind (implemented_call rfl)
    intro _
    exact hpublish _
  · exact hpublish _

theorem verificationAttempt_implemented (now : Nat) (purchaseId : String) (attempt : Nat) :
    Implemented verify (verificationAttempt now purchaseId attempt)
      (Purchases.verificationAttempt (auditedBroker now) verify now purchaseId attempt) := by
  have hclose : ∀ stop : Bool, Implemented verify (do call .closeSession; return stop)
      (do Prog.closeSession; return stop) := by
    intro stop
    apply Implemented.bind (implemented_call rfl)
    intro _
    exact implemented_pure stop
  apply Implemented.bind (implemented_call rfl)
  intro found
  cases found with
  | none => exact hclose true
  | some purchase =>
    apply Implemented.ite
    · exact hclose true
    · apply Implemented.call_bind (a := verify purchase attempt) rfl
      simp only
      cases (verify purchase attempt).disposition with
      | confirmed =>
        apply Implemented.bind (confirmPurchase_implemented verify purchase now)
        exact fun _ => hclose true
      | rejected =>
        apply Implemented.bind (rejectPurchase_implemented verify purchase _ now)
        exact fun _ => hclose true
      | pending => exact hclose false

theorem forceReject_implemented (now : Nat) (purchaseId : String) (maxAttempts : Int) :
    Implemented verify (forceReject now purchaseId maxAttempts)
      (Purchases.forceReject (auditedBroker now) now purchaseId maxAttempts) := by
  apply Implemented.bind (implemented_call rfl)
  intro found
  cases found with
  | none => exact implemented_call rfl
  | some purchase =>
    apply Implemented.ite
    · apply Implemented.bind (rejectPurchase_implemented verify purchase _ now)
      exact fun _ => implemented_call rfl
    · exact implemented_call rfl

variable (clock : Nat → Nat) (maxAttempts : Int) (purchaseId : String)

theorem interpret_verificationRounds (attempts : List Nat) :
    (verificationRounds clock maxAttempts purchaseId attempts).interpret
        (Call.implementation verify) =
      VerifyPurchases.verificationRounds verify clock maxAttempts purchaseId attempts := by
  induction attempts with
  | nil => exact forceReject_implemented verify _ purchaseId maxAttempts
  | cons attempt attempts ih =>
    rw [verificationRounds, VerifyPurchases.verificationRounds]
    rw [Coro.interpret_bind, verificationAttempt_implemented]
    congr 1
    funext stop
    cases stop with
    | true => rfl
    | false =>
      simp only [Bool.false_eq_true, if_false]
      by_cases hlast : (attempt : Int) < maxAttempts
      · rw [if_pos hlast, if_pos hlast, Coro.interpret_bind, ih]
        exact congrArg (· >>= _) (Coro.interpret_request _ _)
      · rw [if_neg hlast, if_neg hlast]
        exact ih

/-- With the collaborators of the application, the runner is the task of the job. -/
theorem interpret_runVerificationWithRetry :
    (runVerificationWithRetry clock maxAttempts purchaseId).interpret
        (Call.implementation verify) =
      VerifyPurchases.runVerificationWithRetry verify clock maxAttempts purchaseId := by
  rw [runVerificationWithRetry, VerifyPurchases.runVerificationWithRetry]
  rw [Coro.interpret_tryFinally, interpret_verificationRounds]
  rfl

end Runner

end ClickNBack.VerifyPurchases
