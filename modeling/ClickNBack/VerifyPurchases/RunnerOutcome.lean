import ClickNBack.EventLoop.Environment
import ClickNBack.VerifyPurchases.Runner

namespace ClickNBack.VerifyPurchases

open EventLoop Purchases Runner

namespace Call

def attempt : Call → Option Nat
  | .verify _ attempt => some attempt
  | _ => none

end Call

inductive RunnerOutcome
  | confirmed (purchase : Purchase) (verifiedAt : Nat)
  | rejected (purchase : Purchase) (reason : String) (failedAt : Nat)
  | nothing

namespace RunnerOutcome

/-- The calls of exactly one confirmation, of exactly one rejection, or none. -/
def calls : RunnerOutcome → List Call
  | .confirmed p verifiedAt =>
    .updateStatus p.id .confirmed ::
      ((if p.cashbackAmount > 0 then
        [.confirmCashback p.id, .confirmPending p.userId p.cashbackAmount] else []) ++
      [.commit, .publishConfirmed ⟨p.id, p.userId, p.merchantId, p.amount, p.currency,
        p.cashbackAmount, verifiedAt⟩])
  | .rejected p reason failedAt =>
    .updateStatus p.id .rejected ::
      ((if p.cashbackAmount > 0 then
        [.reverseCashback p.id, .reversePending p.userId p.cashbackAmount] else []) ++
      [.commit, .publishRejected ⟨p.id, p.userId, p.merchantId, p.amount, p.currency, failedAt,
        reason⟩])
  | .nothing => []

end RunnerOutcome

namespace RunnerOutcome

variable (o : RunnerOutcome)

end RunnerOutcome

section

variable (fetched : Nat → Option Purchase) (verify : Purchase → Nat → VerificationResult)
  (clock : Nat → Nat) (maxAttempts : Int)

/-- The purchase is absent or not pending, or the bank decides. -/
def decisive (i : Nat) : Bool :=
  (fetched i).all fun p => p.status ≠ .pending ∨ (verify p i).disposition ≠ .pending

def firstDecisive (attempts : List Nat) : Option Nat := attempts.find? (decisive fetched verify)

/-- What the deciding attempt leads to, or the end of the attempts. -/
def settlement : Option Nat → RunnerOutcome
  | some i =>
    match fetched i with
    | none => .nothing
    | some p =>
      if p.status = .pending then
        match (verify p i).disposition with
        | .confirmed => .confirmed p (clock i)
        | .rejected => .rejected p (declineReason (verify p i).reason) (clock i)
        | .pending => .nothing
      else .nothing
  | none =>
    match fetched (maxAttempts.toNat + 1) with
    | none => .nothing
    | some p =>
      if p.status = .pending then
        .rejected p (exhaustedReason maxAttempts) (clock (maxAttempts.toNat + 1))
      else .nothing

end

section

variable (fetched : Nat → Option Purchase) (verify : Purchase → Nat → VerificationResult)
  (clock : Nat → Nat) (maxAttempts : Int) (purchaseId : String)

end

section

variable {fetched : Nat → Option Purchase} {verify : Purchase → Nat → VerificationResult}
  {others : List Call → InFlightTracker → InFlightTracker} {l : List Call} {p : Purchase}

end

section

variable (fetched : Nat → Option Purchase) (verify : Purchase → Nat → VerificationResult)
  (clock : Nat → Nat) (maxAttempts : Int) (purchaseId : String)

theorem firstDecisive_eq_some {n i : Nat} :
    firstDecisive fetched verify (List.range' 1 n) = some i ↔
      decisive fetched verify i = true ∧ 1 ≤ i ∧ i ≤ n ∧
        ∀ k, 1 ≤ k → k < i → ¬ decisive fetched verify k = true := by
  rw [firstDecisive]
  rw [List.find?_range'_eq_some, List.mem_range'_1]
  simp only [Bool.not_eq_true', Bool.not_eq_true, Nat.lt_one_add_iff, and_assoc]

end

end ClickNBack.VerifyPurchases
