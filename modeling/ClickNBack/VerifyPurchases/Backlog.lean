import ClickNBack.Purchases.DistinctPurchases
import ClickNBack.Purchases.Progress
import ClickNBack.Purchases.Promises
import ClickNBack.ReadCommitted.Refusals
import ClickNBack.VerifyPurchases.Runner

namespace ClickNBack.VerifyPurchases

open Relational ReadCommitted Prog EventLoop Purchases

def withoutSleep {α : Type} : JobCoroutine α → JobCoroutine α
  | .ret a => .ret a
  | .raise e => .raise e
  | .read k => .read fun m => withoutSleep (k m)
  | .write m c => .write m (withoutSleep c)
  | .spawn x k => .spawn x fun n => withoutSleep (k n)
  | .await .sleep k => withoutSleep (k (.ok ()))
  | .await q k => .await q fun r => withoutSleep (k r)

def SimulatedPurchaseVerifier.verify (rejectionMerchantId : String) (purchase : Purchase)
    (_attempt : Nat) : VerificationResult :=
  if ¬ (rejectionMerchantId ≠ "" ∧ purchase.merchantId = rejectionMerchantId) then
    ⟨.confirmed, none⟩
  else ⟨.pending, none⟩

section

variable (verify : Purchase → Nat → VerificationResult) (clock : Nat → Nat) (maxAttempts : Int)
  (purchaseId : String)

/-- The sessions that a runner opens one after another. -/
def verificationSessions : List Nat → Purchases.Coroutine Unit
  | [] =>
    let now := clock (maxAttempts.toNat + 1)
    forceReject (auditedBroker now) now purchaseId maxAttempts
  | attempt :: attempts => do
    let now := clock attempt
    if ← verificationAttempt (auditedBroker now) verify now purchaseId attempt then return ()
    else verificationSessions attempts

theorem withoutSleep_bind {α β : Type} (c : JobCoroutine α) (f : α → JobCoroutine β) :
    withoutSleep (c >>= f) = withoutSleep c >>= fun a => withoutSleep (f a) := by
  change withoutSleep (c.bind f) = (withoutSleep c).bind _
  induction c with
  | ret a | raise e => rfl
  | read k ih | spawn x k ih => simp only [Coro.bind, withoutSleep, ih]
  | write m c ih => simp only [Coro.bind, withoutSleep, ih]
  | await q k ih =>
    cases q with
    | sleep => exact ih (.ok ())
    | pendingPurchases | featureFlags | rows | flush s | commit | closeSession =>
      simp only [Coro.bind, withoutSleep, ih]

theorem withoutSleep_tryFinally {α : Type} (c : JobCoroutine α) (fin : JobCoroutine Unit) :
    withoutSleep (c.tryFinally fin) = (withoutSleep c).tryFinally (withoutSleep fin) := by
  induction c with
  | ret a | raise e => exact withoutSleep_bind fin _
  | read k ih | spawn x k ih => simp only [Coro.tryFinally, withoutSleep, ih]
  | write m c ih => simp only [Coro.tryFinally, withoutSleep, ih]
  | await q k ih =>
    cases q with
    | sleep => exact ih (.ok ())
    | pendingPurchases | featureFlags | rows | flush s | commit | closeSession =>
      simp only [Coro.tryFinally, withoutSleep, ih]

theorem withoutSleep_ofCoroutine {α : Type} (p : Purchases.Coroutine α) :
    withoutSleep (ofCoroutine p) = ofCoroutine p := by
  induction p with
  | ret a | raise e => rfl
  | select k ih | exec s k ih =>
    simp only [ofCoroutine, withoutSleep]
    congr 1
    funext r
    cases r with
    | ok a => exact ih a
    | error e => rfl
  | commit k ih | close k ih =>
    simp only [ofCoroutine, withoutSleep]
    congr 1
    funext r
    cases r with
    | ok a => exact ih
    | error e => rfl

theorem withoutSleep_verificationRounds (attempts : List Nat) :
    withoutSleep (verificationRounds verify clock maxAttempts purchaseId attempts) =
      ofCoroutine (verificationSessions verify clock maxAttempts purchaseId attempts) := by
  induction attempts with
  | nil => exact withoutSleep_ofCoroutine _
  | cons attempt attempts ih =>
    rw [verificationRounds, verificationSessions, withoutSleep_bind, withoutSleep_ofCoroutine,
      ofCoroutine_bind]
    congr 1
    funext stop
    cases stop with
    | true => rfl
    | false =>
      simp only [Bool.false_eq_true, if_false]
      by_cases hlast : (attempt : Int) < maxAttempts
      · rw [if_pos hlast, withoutSleep_bind, ih]
        rfl
      · rw [if_neg hlast]
        exact ih

/-- Apart from the sleep and from the tracker, a runner is its sessions. -/
theorem withoutSleep_runVerificationWithRetry :
    withoutSleep (runVerificationWithRetry verify clock maxAttempts purchaseId) =
      (ofCoroutine (verificationSessions verify clock maxAttempts purchaseId
        (List.range' 1 maxAttempts.toNat))).tryFinally
          (Coro.modify (InFlightTracker.discard purchaseId)) := by
  rw [runVerificationWithRetry, withoutSleep_tryFinally, withoutSleep_verificationRounds]
  rfl

end

inductive Verdict
  | confirmed (attempt : Nat)
  | rejected (attempt : Nat) (reason : String)

namespace Verdict

def status : Verdict → PurchaseStatus
  | .confirmed _ => .confirmed
  | .rejected _ _ => .rejected

def log (clock : Nat → Nat) (p : Purchase) : Verdict → AuditLog
  | .confirmed attempt => confirmedLog (clock attempt) p
  | .rejected attempt reason => rejectedLog (clock attempt) reason p

def writes (clock : Nat → Nat) (p : Purchase) (v : Verdict) : List Sql :=
  match v with
  | .confirmed _ => confirmationWrites p ++ [.insertAuditLog (v.log clock p)]
  | .rejected _ _ => rejectionWrites p ++ [.insertAuditLog (v.log clock p)]

end Verdict

section

variable (verify : Purchase → Nat → VerificationResult) (maxAttempts : Int) (p : Purchase)

/-- The first of the attempts with an answer of the bank decides; if there is none, the
purchase is rejected. -/
def verdictOf (attempts : List Nat) : Verdict :=
  match attempts.find? fun attempt => (verify p attempt).disposition ≠ .pending with
  | some attempt =>
    if (verify p attempt).disposition = .confirmed then .confirmed attempt
    else .rejected attempt (declineReason (verify p attempt).reason)
  | none => .rejected (maxAttempts.toNat + 1) (exhaustedReason maxAttempts)

def verdict : Verdict := verdictOf verify maxAttempts p (List.range' 1 maxAttempts.toNat)

theorem verdictOf_cons (attempt : Nat) (attempts : List Nat) :
    verdictOf verify maxAttempts p (attempt :: attempts) =
      match (verify p attempt).disposition with
      | .confirmed => .confirmed attempt
      | .rejected => .rejected attempt (declineReason (verify p attempt).reason)
      | .pending => verdictOf verify maxAttempts p attempts := by
  rw [verdictOf, List.find?_cons]
  cases h : (verify p attempt).disposition with
  | confirmed | rejected => simp [h]
  | pending => rfl

end

/-- The simulated bank confirms at once, and never a purchase at its rejection merchant. -/
theorem verdict_simulated (rejectionMerchantId : String) (maxAttempts : Int) (p : Purchase) :
    verdict (SimulatedPurchaseVerifier.verify rejectionMerchantId) maxAttempts p =
      if 0 < maxAttempts ∧ ¬ (rejectionMerchantId ≠ "" ∧ p.merchantId = rejectionMerchantId) then
        .confirmed 1
      else .rejected (maxAttempts.toNat + 1) (exhaustedReason maxAttempts) := by
  by_cases hrejects : rejectionMerchantId ≠ "" ∧ p.merchantId = rejectionMerchantId
  · rw [if_neg fun h => h.2 hrejects, verdict, verdictOf, List.find?_eq_none.mpr]
    intro attempt _
    rw [SimulatedPurchaseVerifier.verify, if_neg (not_not_intro hrejects)]
    simp
  · by_cases hmax : 0 < maxAttempts
    · obtain ⟨n, hn⟩ : ∃ n, maxAttempts.toNat = n + 1 := ⟨maxAttempts.toNat - 1, by omega⟩
      rw [if_pos ⟨hmax, hrejects⟩, verdict, hn, List.range'_succ, verdictOf_cons,
        SimulatedPurchaseVerifier.verify, if_pos hrejects]
    · have hnone : maxAttempts.toNat = 0 := by omega
      rw [if_neg fun h => hmax h.1, verdict, verdictOf, hnone]
      rfl

section

variable {verify : Purchase → Nat → VerificationResult} {clock : Nat → Nat} {maxAttempts : Int}
  {purchaseId : String} {d : Database} {p : Purchase} {β : Type}

theorem verificationAttempt_committed_bind_idle (now attempt : Nat)
    (h : ∀ p, d.purchases.find Purchase.id purchaseId = some p → p.status ≠ .pending)
    (f : Bool → Purchases.Coroutine β) :
    (verificationAttempt (auditedBroker now) verify now purchaseId attempt >>= f).committed d [] =
      (f true).committed d [] := by
  rw [verificationAttempt, bind_assoc, getById_committed_bind, replay_nil]
  cases hp : d.purchases.find Purchase.id purchaseId with
  | none => rfl
  | some p =>
    simp only [if_pos (h p hp)]
    rfl

theorem verificationAttempt_committed_bind_pending (now attempt : Nat)
    (h : d.purchases.find Purchase.id purchaseId = some p) (hs : p.status = .pending)
    {f : Bool → Purchases.Coroutine β} (hf : ∀ d, (f true).committed d [] = []) :
    (verificationAttempt (auditedBroker now) verify now purchaseId attempt >>= f).committed d [] =
      match (verify p attempt).disposition with
      | .confirmed => confirmationWrites p ++ [.insertAuditLog (confirmedLog now p)]
      | .rejected => rejectionWrites p ++
          [.insertAuditLog (rejectedLog now (declineReason (verify p attempt).reason) p)]
      | .pending => (f false).committed d [] := by
  have hid := id_of_find h
  rw [verificationAttempt, bind_assoc, getById_committed_bind, replay_nil, h]
  simp only [hs, ne_eq, not_true_eq_false, if_false]
  cases hd : (verify p attempt).disposition with
  | confirmed =>
    rw [bind_assoc, confirmPurchase_committed_bind (by simpa [hid] using h) now hf]
    rfl
  | rejected =>
    rw [bind_assoc, rejectPurchase_committed_bind (by simpa [hid] using h) _ now hf]
    rfl
  | pending => rfl

/-- A runner leaves alone what is settled already, or what does not exist. -/
theorem verificationSessions_idle
    (h : ∀ p, d.purchases.find Purchase.id purchaseId = some p → p.status ≠ .pending)
    (attempts : List Nat) :
    (verificationSessions verify clock maxAttempts purchaseId attempts).committed d [] = [] := by
  cases attempts with
  | nil => exact forceReject_idle _ maxAttempts h
  | cons attempt attempts =>
    rw [verificationSessions, verificationAttempt_committed_bind_idle _ attempt h]
    rfl

theorem verificationSessions_pending (h : d.purchases.find Purchase.id purchaseId = some p)
    (hs : p.status = .pending) (attempts : List Nat) :
    (verificationSessions verify clock maxAttempts purchaseId attempts).committed d [] =
      (verdictOf verify maxAttempts p attempts).writes clock p := by
  induction attempts with
  | nil => exact forceReject_pending _ maxAttempts h hs
  | cons attempt attempts ih =>
    rw [verificationSessions, verdictOf_cons,
      verificationAttempt_committed_bind_pending _ attempt h hs fun _ => rfl]
    cases (verify p attempt).disposition with
    | confirmed | rejected => rfl
    | pending => exact ih

end

section

variable {verify : Purchase → Nat → VerificationResult} {clock : Nat → Nat} {maxAttempts : Int}
  {purchaseId : String} {d : Database}

/-- The last session that a runner may open, which is on the same rows as the others. -/
def lastSession (clock : Nat → Nat) (maxAttempts : Int) (purchaseId : String) : Operation :=
  .forceReject (clock (maxAttempts.toNat + 1)) purchaseId maxAttempts

theorem verificationSessions_apart {U : Set String} (hU : OwnerIn U d purchaseId)
    (attempts : List Nat) :
    (verificationSessions verify clock maxAttempts purchaseId attempts).Apart
      ((lastSession clock maxAttempts purchaseId).Foreign U) (WalletsOpen U) d [] := by
  induction attempts with
  | nil => exact forceReject_apart _ purchaseId maxAttempts hU
  | cons attempt attempts ih =>
    rw [verificationSessions, verificationAttempt, bind_assoc]
    apply getById_apart (o := lastSession clock maxAttempts purchaseId) purchaseId rfl
    rw [replay_nil]
    cases hp : d.purchases.find Purchase.id purchaseId with
    | none => exact trivial
    | some p =>
      by_cases hs : p.status ≠ .pending
      · simp only [if_pos hs]
        exact trivial
      · simp only [if_neg hs]
        cases (verify p attempt).disposition with
        | confirmed =>
          rw [bind_assoc]
          refine confirmPurchase_apart (o := lastSession clock maxAttempts purchaseId) ?_ (hU p hp)
            _ fun _ => trivial
          exact hp
        | rejected =>
          rw [bind_assoc]
          refine rejectPurchase_apart (o := lastSession clock maxAttempts purchaseId) ?_ (hU p hp)
            _ _ fun _ => trivial
          exact hp
        | pending => exact ih

theorem verificationSessions_ordered {reversed : Set String} [DecidablePred (· ∈ reversed)]
    (hid : purchaseId ∉ reversed) (attempts : List Nat) :
    Ordered reversed (verificationSessions verify clock maxAttempts purchaseId attempts) 0 := by
  induction attempts with
  | nil => exact forceReject_ordered hid _ maxAttempts
  | cons attempt attempts ih =>
    refine verificationAttempt_ordered hid verify _ attempt fun stop => ?_
    cases stop with
    | true => trivial
    | false => exact ih

end

section

variable {log : List Sql} {β : Type}

abbrev Smooth (p : Purchases.Coroutine β) (log : List Sql) : Prop :=
  p.RaisesOnly (fun _ => False) log

theorem execute_smooth {s : Sql} (hs : s.refusable = false) {f : Unit → Purchases.Coroutine β}
    (h : Smooth (f ()) (log ++ [s])) : Smooth (execute s >>= f) log := by
  refine raisesOnly_execute_bind (fun d e _ he => ?_) h
  rw [exec_eq_apply _ hs] at he
  cases he

theorem getById_smooth {id : String} {f : Option Purchase → Purchases.Coroutine β}
    (h : ∀ r, Smooth (f r) log) : Smooth (PurchaseRepository.getById id >>= f) log := by
  rw [getById_eq]
  exact raisesOnly_query_bind fun d _ => Or.inr (h _)

theorem updateStatus_smooth {id : String} {s : PurchaseStatus}
    {f : Option Purchase → Purchases.Coroutine β} (h : ∀ r log, Smooth (f r) log) :
    Smooth (PurchaseRepository.updateStatus id s >>= f) log := by
  rw [PurchaseRepository.updateStatus, bind_assoc]
  refine getById_smooth fun r => ?_
  cases r with
  | none => exact h none log
  | some p =>
    change Smooth ((execute _ >>= fun _ => PurchaseRepository.getById id) >>= f) log
    rw [bind_assoc]
    exact execute_smooth rfl (getById_smooth fun r => h r _)

theorem add_smooth {row : AuditLog} {f : Unit → Purchases.Coroutine β} (h : Smooth (f ()) []) :
    Smooth (AuditTrailRepository.add row >>= f) log := by
  rw [AuditTrailRepository.add, bind_assoc]
  exact execute_smooth rfl (raisesOnly_commitTx_bind h)

theorem confirmPurchase_smooth (now : Nat) (p : Purchase) {f : Unit → Purchases.Coroutine β}
    (h : Smooth (f ()) []) :
    Smooth (confirmPurchase (auditedBroker now) p now >>= f) log := by
  have hend : ∀ q : Purchase, ∀ log, Smooth (commitTx >>= fun _ => (auditedBroker now).publish
      (t := .purchaseConfirmed) ⟨q.id, q.userId, q.merchantId, q.amount, q.currency,
        q.cashbackAmount, now⟩ >>= f) log := by
    intro q log
    apply raisesOnly_commitTx_bind
    rw [Core.Broker.publish_of_singleton _ (auditedBroker_confirmed now)]
    exact add_smooth h
  rw [confirmPurchase, applyPurchaseConfirmation]
  simp only [bind_assoc]
  refine updateStatus_smooth fun r log => ?_
  by_cases hc : (r.getD p).cashbackAmount > 0
  · simp only [if_pos hc, CashbackClient.confirm, WalletsClient.confirmPending, bind_assoc]
    exact execute_smooth rfl (execute_smooth rfl (hend _ _))
  · simp only [if_neg hc]
    exact hend _ _

theorem rejectPurchase_smooth (now : Nat) (p : Purchase) (reason : String)
    {f : Unit → Purchases.Coroutine β} (h : Smooth (f ()) []) :
    Smooth (rejectPurchase (auditedBroker now) p reason now >>= f) log := by
  have hend : ∀ q : Purchase, ∀ log, Smooth (commitTx >>= fun _ => (auditedBroker now).publish
      (t := .purchaseRejected) ⟨q.id, q.userId, q.merchantId, q.amount, q.currency, now,
        reason⟩ >>= f) log := by
    intro q log
    apply raisesOnly_commitTx_bind
    rw [Core.Broker.publish_of_singleton _ (auditedBroker_rejected now)]
    exact add_smooth h
  rw [rejectPurchase, bind_assoc]
  refine updateStatus_smooth fun r log => ?_
  by_cases hc : (r.getD p).cashbackAmount > 0
  · simp only [if_pos hc, CashbackClient.reverse, WalletsClient.reversePending, bind_assoc]
    exact execute_smooth rfl (execute_smooth rfl (hend _ _))
  · simp only [if_neg hc, bind_assoc]
    exact hend _ _

theorem forceReject_smooth (now : Nat) (purchaseId : String) (maxAttempts : Int) :
    Smooth (forceReject (auditedBroker now) now purchaseId maxAttempts) log := by
  rw [forceReject]
  refine getById_smooth fun r => ?_
  cases r with
  | none => trivial
  | some p =>
    by_cases hs : p.status = .pending
    · simp only [if_pos hs]
      exact rejectPurchase_smooth now p _ trivial
    · simp only [if_neg hs]
      trivial

theorem verificationSessions_smooth (verify : Purchase → Nat → VerificationResult)
    (clock : Nat → Nat) (maxAttempts : Int) (purchaseId : String) (attempts : List Nat) :
    Smooth (verificationSessions verify clock maxAttempts purchaseId attempts) [] := by
  induction attempts with
  | nil => exact forceReject_smooth _ purchaseId maxAttempts
  | cons attempt attempts ih =>
    rw [verificationSessions, verificationAttempt, bind_assoc]
    refine getById_smooth fun r => ?_
    cases r with
    | none => trivial
    | some p =>
      by_cases hs : p.status ≠ .pending
      · simp only [if_pos hs]
        trivial
      · simp only [if_neg hs]
        cases (verify p attempt).disposition with
        | confirmed =>
          rw [bind_assoc]
          exact confirmPurchase_smooth _ p trivial
        | rejected =>
          rw [bind_assoc]
          exact rejectPurchase_smooth _ p _ trivial
        | pending => exact ih

end

/-- What runs side by side: an operation of a request, or a runner of the job. -/
inductive Worker
  | operation (o : Operation)
  | runner (verify : Purchase → Nat → VerificationResult) (clock : Nat → Nat) (maxAttempts : Int)
      (purchaseId : String)

namespace Worker

def prog : Worker → Purchases.Coroutine Unit
  | .operation o => o.prog
  | .runner verify clock maxAttempts purchaseId =>
    verificationSessions verify clock maxAttempts purchaseId (List.range' 1 maxAttempts.toNat)

def onRows : Worker → Operation
  | .operation o => o
  | .runner _ clock maxAttempts purchaseId => lastSession clock maxAttempts purchaseId

theorem apart (w : Worker) (d : Database) :
    w.prog.Apart (w.onRows.Foreign d.owners) (WalletsOpen d.owners) d [] := by
  cases w with
  | operation o => exact prog_apart o (ownerIn_owners d o.target)
  | runner verify clock maxAttempts purchaseId =>
    exact verificationSessions_apart (ownerIn_owners d purchaseId) _

theorem committed_own (w : Worker) (d : Database) :
    ∀ t ∈ w.prog.committed d [], w.onRows.Owns d.owners t := by
  cases w with
  | operation o => exact fun t ht => (Purchases.committed_own o d t ht).1
  | runner verify clock maxAttempts purchaseId =>
    intro t ht
    by_cases h : ∃ p, d.purchases.find Purchase.id purchaseId = some p ∧ p.status = .pending
    · obtain ⟨p, hp, hs⟩ := h
      rw [prog, verificationSessions_pending hp hs] at ht
      generalize verdictOf verify maxAttempts p _ = v at ht
      cases v with
      | confirmed attempt =>
        exact (audited_own _ (confirmationWrites_own (o := lastSession clock maxAttempts purchaseId)
          hp) t ht).1
      | rejected attempt reason =>
        exact (audited_own _ (rejectionWrites_own (o := lastSession clock maxAttempts purchaseId)
          hp) t ht).1
    · rw [prog, verificationSessions_idle fun p hp hs => h ⟨p, hp, hs⟩] at ht
      cases ht

theorem ordered {reversed : Set String} [DecidablePred (· ∈ reversed)] (w : Worker)
    (hfirst : ∀ id ∈ reversed, ¬ w.onRows.LocksFirst id)
    (hreverse : ∀ id, w.onRows.Reverses id → id ∈ reversed) : Ordered reversed w.prog 0 := by
  cases w with
  | operation o => exact o.ordered hfirst hreverse
  | runner verify clock maxAttempts purchaseId =>
    exact verificationSessions_ordered (fun h => hfirst purchaseId h rfl) _

end Worker

theorem target_of_reverses {o : Operation} {id : String} (h : o.Reverses id) :
    o.target = id ∧ ∀ id', ¬ o.LocksFirst id' := by
  cases o with
  | reverse now purchaseId adminId => exact ⟨h, fun _ h' => h'⟩
  | ingest | attempt | forceReject | confirmManually => exact h.elim

theorem target_of_locksFirst {o : Operation} {id : String}
    (h : o.LocksFirst id) : o.target = id := by
  cases o with
  | reverse => exact h.elim
  | ingest | attempt | forceReject | confirmManually => exact h

section

variable {clock : Nat → Nat} {id : String} {d : Database} {p : Purchase} (v : Verdict)

theorem Verdict.find_replay_writes (h : d.purchases.find Purchase.id id = some p) :
    (replay (v.writes clock p) d).purchases.find Purchase.id id =
      some { p with status := v.status } := by
  obtain rfl := id_of_find h
  have hpurchases : (replay (v.writes clock p) d).purchases =
      PurchaseTable.update d.purchases p.id (.status v.status) := by
    by_cases hc : p.cashbackAmount > 0 <;>
      cases v <;> simp [writes, status, confirmationWrites, rejectionWrites, hc]
  rw [hpurchases]
  exact find_update_self h (.status v.status)

theorem Verdict.log_mem_replay_writes :
    v.log clock p ∈ (replay (v.writes clock p) d).auditLogs := by
  cases v with
  | confirmed attempt | rejected attempt reason =>
    rw [writes, replay_audited]
    exact Multiset.mem_cons_self _ _

end

section

variable {ι : Type} [DecidableEq ι] [Fintype ι] {w : ι → Worker} {d₀ : Database}

theorem find_target_of_serial (hdistinct : ∀ i j, i ≠ j → (w i).onRows.Distinct (w j).onRows)
    (hwallets : WalletsOpen d₀.owners d₀) {d : Database}
    (hserial : ∀ order : List ι, order.Nodup → (∀ i, i ∈ order) →
      d = serial (fun i => (w i).prog) order d₀) (i : ι) :
    d.purchases.find Purchase.id (w i).onRows.target =
        (replay ((w i).prog.committed d₀ []) d₀).purchases.find Purchase.id (w i).onRows.target ∧
      (replay ((w i).prog.committed d₀ []) d₀).auditLogs ≤ d.auditLogs := by
  have hforeign : ∀ i j, i ≠ j → ∀ t ∈ (w j).prog.committed d₀ [],
      (w i).onRows.Foreign d₀.owners t := fun i j hij t ht =>
    ⟨_, hdistinct i j hij, (w j).committed_own d₀ t ht⟩
  have hnodup : (i :: (Finset.univ.erase i).toList).Nodup := by
    simp [Finset.nodup_toList]
  have hall : ∀ j, j ∈ i :: (Finset.univ.erase i).toList := by
    intro j
    by_cases hj : j = i <;> simp [hj]
  rw [hserial _ hnodup hall, serial_eq_replay (walletsOpen_apply d₀.owners) hforeign hnodup hwallets
    fun j _ => ⟨(w j).apart d₀, rfl⟩, List.flatMap_cons, replay_append]
  have hothers : ∀ t ∈ (Finset.univ.erase i).toList.flatMap fun j => (w j).prog.committed d₀ [],
      (w i).onRows.Foreign d₀.owners t := by
    intro t ht
    obtain ⟨j, hj, htj⟩ := List.mem_flatMap.mp ht
    exact hforeign i j (by simpa [eq_comm] using hj) t htj
  constructor
  · exact replay_congr (fun d => d.purchases.find Purchase.id (w i).onRows.target) _ _
      fun t ht d => (hothers t ht).find_target d
  · refine replay_invariant (P := fun d : Database =>
      (replay ((w i).prog.committed d₀ []) d₀).auditLogs ≤ d.auditLogs) _ _ (fun t _ d hd => ?_)
      le_rfl
    rw [apply_eq]
    exact hd.trans (t.le_onAuditLogs _)

open Classical in
/-- Runners settle a backlog, whatever runs beside them on other purchases: if nothing
fails, every schedule brings all of them to return, each purchase then stands as the bank has
decided and the audit trail says so, and everything is as after any serial execution. -/
theorem backlog_settled (hdistinct : ∀ i j, i ≠ j → (w i).onRows.Distinct (w j).onRows)
    (hwallets : WalletsOpen d₀.owners d₀) {f : ℕ → Sys ι Database Sql PurchaseException Unit}
    (hf : Sys.Faultless f) (h₀ : f 0 = Sys.start d₀ fun i => (w i).prog) :
    ∃ n, (∀ i, ((f n).session i).prog.Done) ∧
      (∀ order : List ι, order.Nodup → (∀ i, i ∈ order) →
        (f n).db = serial (fun i => (w i).prog) order d₀) ∧
      ∀ i verify clock maxAttempts id, w i = .runner verify clock maxAttempts id →
        ((f n).session i).prog = .ret () ∧
        ∀ p, d₀.purchases.find Purchase.id id = some p →
          (p.status ≠ .pending → (f n).db.purchases.find Purchase.id id = some p) ∧
          (p.status = .pending →
            (f n).db.purchases.find Purchase.id id =
              some { p with status := (verdict verify maxAttempts p).status } ∧
            (verdict verify maxAttempts p).log clock p ∈ (f n).db.auditLogs) := by
  have hordered : ∀ i, Ordered { id | ∃ j, (w j).onRows.Reverses id } (w i).prog 0 := by
    intro i
    apply (w i).ordered
    · rintro id ⟨j, hj⟩ hi
      obtain ⟨htarget, hfirst⟩ := target_of_reverses hj
      by_cases hij : i = j
      · exact hfirst id (hij ▸ hi)
      · exact (hdistinct i j hij).target
          ((target_of_locksFirst hi).trans htarget.symm)
    · exact fun id h => ⟨i, h⟩
  have hascending := Sys.ascending_start hordered d₀
  rw [← h₀] at hascending
  obtain ⟨n, hr, hdone⟩ := hascending.reach_done_of_faultless hf
  rw [h₀] at hr
  have hserial : ∀ order : List ι, order.Nodup → (∀ i, i ∈ order) →
      (f n).db = serial (fun i => (w i).prog) order d₀ := fun order hnodup hall =>
    Sys.eq_serial_of_apart (walletsOpen_apply d₀.owners) hwallets (fun i => (w i).apart d₀)
      (fun i j hij t ht => ⟨_, hdistinct i j hij, (w j).committed_own d₀ t ht⟩) hr hdone hnodup hall
  refine ⟨n, hdone, hserial, fun i verify clock maxAttempts id hi => ⟨?_, fun p hp => ?_⟩⟩
  · obtain ⟨⟨⟩, hret⟩ | ⟨e, hraise⟩ := hdone i
    · exact hret
    · refine absurd (Sys.reason_of_raise uniqueKeys (U := fun _ => False) (fun _ _ _ _ h => h) ?_
        hr hraise) not_false
      rw [hi]
      exact verificationSessions_smooth verify clock maxAttempts id _
  · obtain ⟨hfind, haudit⟩ := find_target_of_serial hdistinct hwallets hserial i
    rw [hi] at hfind haudit
    change (f n).db.purchases.find Purchase.id id =
      (replay ((verificationSessions verify clock maxAttempts id _).committed d₀ [])
        d₀).purchases.find Purchase.id id at hfind
    change (replay ((verificationSessions verify clock maxAttempts id _).committed d₀ [])
      d₀).auditLogs ≤ _ at haudit
    constructor
    · intro hs
      rw [hfind, verificationSessions_idle, replay_nil, hp]
      intro q hq
      rwa [← Option.some.inj (hp.symm.trans hq)]
    · intro hs
      rw [verificationSessions_pending hp hs] at hfind haudit
      exact ⟨hfind.trans ((verdict verify maxAttempts p).find_replay_writes hp),
        Multiset.mem_of_le haudit (verdict verify maxAttempts p).log_mem_replay_writes⟩

end

def twoPending : Database :=
  runSteps [.operation (.ingest "p" "t" 1 1
      (oneRequest "ext" 10000 hundredEuros_pos one_le_length_ext) "ana"),
    .operation (.ingest "q" "u" 1 1
      (oneRequest "other" 2000 twentyEuros_pos one_le_length_other) "ana")]
    (noPurchases oneOffer noWallets 0)

/-- The bank confirms the first purchase and never knows of the second one. -/
def twoRunners (i : Fin 2) : Worker :=
  if i = 0 then .runner (SimulatedPurchaseVerifier.verify "") id 3 "p"
  else .runner (SimulatedPurchaseVerifier.verify "shop") id 3 "q"

theorem twoRunners_distinct (i j : Fin 2) (hij : i ≠ j) :
    (twoRunners i).onRows.Distinct (twoRunners j).onRows := by
  fin_cases i <;> fin_cases j <;> first
    | exact absurd rfl hij
    | constructor <;> simp [twoRunners, Worker.onRows, lastSession, Operation.target,
        Operation.externalId, Operation.transactionId]

def statusOf (d : Database) (purchaseId : String) : Option PurchaseStatus :=
  (d.purchases.find Purchase.id purchaseId).map Purchase.status

theorem backlog_settled_twoRunners : ∃ n : ℕ,
    statusOf (firstThenSecond (Sys.start twoPending fun i => (twoRunners i).prog) n).db "p" =
      some .confirmed ∧
    statusOf (firstThenSecond (Sys.start twoPending fun i => (twoRunners i).prog) n).db "q" =
      some .rejected := by
  obtain ⟨n, -, -, h⟩ := backlog_settled twoRunners_distinct (walletsOpen_runSteps _ _ _ _)
    (faultless_firstThenSecond (Sys.start twoPending fun i => (twoRunners i).prog)) rfl
  obtain ⟨-, hp⟩ := h 0 _ _ _ _ rfl
  obtain ⟨-, hq⟩ := h 1 _ _ _ _ rfl
  refine ⟨n, ?_, ?_⟩
  · rw [statusOf, ((hp (newPurchase "p" 1
      (oneRequest "ext" 10000 hundredEuros_pos one_le_length_ext) "offer" 1000)
      (by decide +kernel)).2 rfl).1]
    rfl
  · rw [statusOf, ((hq (newPurchase "q" 1
      (oneRequest "other" 2000 twentyEuros_pos one_le_length_other) "offer" 200)
      (by decide +kernel)).2 rfl).1]
    rfl

end ClickNBack.VerifyPurchases
