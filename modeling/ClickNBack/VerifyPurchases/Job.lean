import ClickNBack.EventLoop.Registry
import ClickNBack.Purchases.Eligibility
import ClickNBack.Purchases.Services

namespace ClickNBack.VerifyPurchases

open Relational EventLoop FeatureFlags Purchases

inductive Request
  | pendingPurchases
  | featureFlags
  | rows
  | flush (s : Sql)
  | commit
  | closeSession
  | sleep

/-- `flush` is answered with the refusal of its statement, if it is refused, and
`featureFlags` with the order in which the rows arrive. -/
def Request.Answer : Request → Type
  | .pendingPurchases => List Purchase
  | .featureFlags => FeatureFlagTable × Listing FeatureFlag
  | .rows => Database
  | .flush _ => Except PurchaseException Unit
  | .commit | .closeSession | .sleep => Unit

structure World where
  database : Database
  featureFlags : FeatureFlagTable

/-- `get_pending_purchases` orders by `created_at` only. What a runner reads is left
open: it sees its own writes, and other requests change the rows at any time. -/
def World.serves (w : World) : (q : Request) → q.Answer → Prop
  | .pendingPurchases, (pending : List Purchase) =>
    ↑pending = w.database.purchases.rows.filter (fun p => p.status = .pending) ∧
      pending.Pairwise fun p p' => p.createdAt ≤ p'.createdAt
  | .featureFlags, answer => answer.1 = w.featureFlags
  | _, _ => True

inductive JobException
  | purchase (e : PurchaseException)
  | keyError
deriving DecidableEq

abbrev InFlightTracker := Registry String

namespace InFlightTracker

def add (purchaseId : String) (task : Nat) (t : InFlightTracker) : InFlightTracker :=
  AList.insert purchaseId task t

def discard (purchaseId : String) (t : InFlightTracker) : InFlightTracker :=
  AList.erase purchaseId t

def contains (t : InFlightTracker) (purchaseId : String) : Bool := purchaseId ∈ t

end InFlightTracker

abbrev JobCoroutine := Coro Request.Answer InFlightTracker String JobException

def getPendingPurchases : JobCoroutine (List Purchase) := Coro.request Request.pendingPurchases

def getFeatureFlags : JobCoroutine (FeatureFlagTable × Listing FeatureFlag) :=
  Coro.request Request.featureFlags

def closeSession : JobCoroutine Unit := Coro.request Request.closeSession

def sleep : JobCoroutine Unit := Coro.request Request.sleep

def ofCoroutine {α : Type} : Coroutine α → JobCoroutine α
  | .ret a => .ret a
  | .raise e => .raise (.purchase e)
  | .select k => .await .rows fun
    | .ok d => ofCoroutine (k d)
    | .error e => .raise e
  | .exec s k => .await (.flush s) fun
    | .ok r => ofCoroutine (k r)
    | .error e => .raise e
  | .commit k => .await .commit fun
    | .ok _ => ofCoroutine k
    | .error e => .raise e
  | .close k => .await .closeSession fun
    | .ok _ => ofCoroutine k
    | .error e => .raise e

section

variable (verify : Purchase → Nat → VerificationResult) (clock : Nat → Nat) (maxAttempts : Int)
  (purchaseId : String)

/-- The `for` loop of `_run_verification_with_retry` over its remaining attempts, and
what follows it. -/
def verificationRounds : List Nat → JobCoroutine Unit
  | [] =>
    let now := clock (maxAttempts.toNat + 1)
    ofCoroutine (forceReject (auditedBroker now) now purchaseId maxAttempts)
  | attempt :: attempts => do
    let now := clock attempt
    if ← ofCoroutine (verificationAttempt (auditedBroker now) verify now purchaseId attempt) then
      return ()
    else
      if attempt < maxAttempts then sleep
      verificationRounds attempts

def runVerificationWithRetry : JobCoroutine Unit :=
  (verificationRounds verify clock maxAttempts purchaseId
    (List.range' 1 maxAttempts.toNat)).tryFinally (Coro.modify (InFlightTracker.discard purchaseId))

end

/-- `specs` is the order in which a set of scopes is listed. -/
def FeatureFlagClient.filterEligiblePurchases (specs : Listing Scope) (purchases : List Purchase) :
    JobCoroutine (List Purchase × Nat) := do
  let (flags, rows) ← getFeatureFlags
  match Purchases.filterEligiblePurchases rows specs flags purchases with
  | some result => return result
  | none => Coro.lift (.error .keyError)

def dispatchPendingPurchases (specs : Listing Scope) : JobCoroutine Unit := do
  let pending ← getPendingPurchases
  closeSession
  if pending = [] then return ()
  else
    let inFlight ← Coro.get
    let newPurchases := pending.filter fun p => !inFlight.contains p.id
    if newPurchases = [] then return ()
    else
      let (eligiblePurchases, _) ← FeatureFlagClient.filterEligiblePurchases specs newPurchases
      closeSession
      eligiblePurchases.forM fun purchase => do
        let task ← Coro.createTask purchase.id
        Coro.modify (InFlightTracker.add purchase.id task)

/-- `make_verify_purchases_task`; the bank and the clock of a runner are those of its
task. -/
def verifyPurchasesTask (specs : Listing Scope) (verify : Nat → Purchase → Nat → VerificationResult)
    (clock : Nat → Nat → Nat) (maxAttempts : Int) :
    Job World Request.Answer InFlightTracker String JobException where
  main := dispatchPendingPurchases specs
  task purchaseId n := runVerificationWithRetry (verify n) (clock n) maxAttempts purchaseId
  serves := World.serves

end ClickNBack.VerifyPurchases
