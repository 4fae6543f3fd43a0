import ClickNBack.Purchases.Settlement
import ClickNBack.ReadCommitted.Progress
import Mathlib.Tactic.FinCases

namespace ClickNBack.Purchases

open Relational ReadCommitted Prog

/-- The order in which the rows of one purchase are locked. A reversal comes to the
purchase last, everything else comes to it first. -/
def lockLevel (reversed : Set String) [DecidablePred (· ∈ reversed)] : LockKey → Nat
  | .purchase id => if id ∈ reversed then 3 else 0
  | .externalId _ => 0
  | .transaction _ => 1
  | .transactionOf _ => 1
  | .wallet _ => 2

def Operation.LocksFirst (purchaseId : String) : Operation → Prop
  | .ingest id _ _ _ _ _ => id = purchaseId
  | .attempt _ _ id _ => id = purchaseId
  | .forceReject _ id _ => id = purchaseId
  | .confirmManually _ id _ => id = purchaseId
  | .reverse _ _ _ => False

def Operation.Reverses (purchaseId : String) : Operation → Prop
  | .reverse _ id _ => id = purchaseId
  | _ => False

section

variable {reversed : Set String} [DecidablePred (· ∈ reversed)] {id : String} {n : Nat}
  {α β : Type}

abbrev Ordered (reversed : Set String) [DecidablePred (· ∈ reversed)] (p : Coroutine α)
    (n : Nat) : Prop := p.Ascends (lockLevel reversed) n

theorem ordered_selectOne_bind {ρ : Type} {e : PurchaseException} {rows : Database → Multiset ρ}
    {f : Option ρ → Coroutine β} (h : ∀ r, Ordered reversed (f r) n) :
    Ordered reversed (selectOne e rows >>= f) n := by
  rw [selectOne, bind_assoc]
  exact ascends_query_bind fun d => ascends_lift_bind fun r _ => h r

theorem getById_ordered {f : Option Purchase → Coroutine β}
    (h : ∀ r, (∀ p, r = some p → p.id = id) → Ordered reversed (f r) n) :
    Ordered reversed (PurchaseRepository.getById id >>= f) n := by
  rw [getById_eq]
  refine ascends_query_bind fun d => h _ fun p hp => ?_
  exact ((Table.find_eq_some _ (by simp)).mp hp).2

theorem updatePurchase_locks {u : PurchaseUpdate} {d : Database} {x : LockKey}
    (hx : x ∈ Statement.locks (Sql.updatePurchase id u) d) : x = .purchase id := by
  simp only [Statement.locks, Sql.locks] at hx
  split_ifs at hx
  · exact List.mem_singleton.mp hx
  · cases hx

theorem updateTransaction_locks {s : CashbackTransactionStatus} {d : Database} {x : LockKey}
    (hx : x ∈ Statement.locks (Sql.updateTransaction id s) d) : x = .transactionOf id := by
  simp only [Statement.locks, Sql.locks] at hx
  split_ifs at hx
  · exact List.mem_singleton.mp hx
  · cases hx

theorem updateWallet_locks {userId : String} {pending available : Int} {d : Database}
    {x : LockKey} (hx : x ∈ Statement.locks (Sql.updateWallet userId pending available) d) :
    x = .wallet userId := by
  simp only [Statement.locks, Sql.locks] at hx
  split_ifs at hx
  · exact List.mem_singleton.mp hx
  · cases hx

theorem updateTransaction_ordered {s : CashbackTransactionStatus} {f : Unit → Coroutine β}
    (hn : n ≤ 1) (h : Ordered reversed (f ()) 2) :
    Ordered reversed (execute (.updateTransaction id s) >>= f) n := by
  refine ascends_execute_bind 2 (by omega) (fun d x hx => ?_) h
  rw [updateTransaction_locks hx]
  exact ⟨hn, Nat.lt_succ_self 1⟩

theorem updateWallet_ordered {userId : String} {pending available : Int}
    {f : Unit → Coroutine β} (hn : n ≤ 2) (h : Ordered reversed (f ()) 3) :
    Ordered reversed (execute (.updateWallet userId pending available) >>= f) n := by
  refine ascends_execute_bind 3 (by omega) (fun d x hx => ?_) h
  rw [updateWallet_locks hx]
  exact ⟨hn, Nat.lt_succ_self 2⟩

theorem updateReturning_ordered {u : PurchaseUpdate} {f : Option Purchase → Coroutine β} {m : Nat}
    (hnm : n ≤ m)
    (hm : n ≤ lockLevel reversed (.purchase id) ∧ lockLevel reversed (.purchase id) < m)
    (h : ∀ k r, k ≤ m → (∀ p, r = some p → p.id = id) → Ordered reversed (f r) k) :
    Ordered reversed (updateReturning id u >>= f) n := by
  rw [updateReturning, bind_assoc]
  refine getById_ordered fun r hr => ?_
  cases r with
  | none => exact h n none hnm hr
  | some p =>
    change Ordered reversed ((execute _ >>= fun _ => PurchaseRepository.getById id) >>= f) n
    rw [bind_assoc]
    refine ascends_execute_bind m hnm (fun d x hx => ?_) ?_
    · rw [updatePurchase_locks hx]
      exact hm
    · exact getById_ordered fun r' hr' => h m r' le_rfl hr'

theorem updateStatus_ordered {s : PurchaseStatus} (hid : id ∉ reversed)
    {f : Option Purchase → Coroutine β}
    (h : ∀ k r, k ≤ 1 → (∀ p, r = some p → p.id = id) → Ordered reversed (f r) k) :
    Ordered reversed (PurchaseRepository.updateStatus id s >>= f) 0 := by
  rw [updateStatus_eq]
  exact updateReturning_ordered (by omega) (by simp [lockLevel, hid]) h

theorem applyPurchaseConfirmation_ordered (hid : id ∉ reversed) {p : Purchase} (hp : p.id = id)
    {f : Purchase → Coroutine β} (h : ∀ k p', Ordered reversed (f p') k) :
    Ordered reversed (applyPurchaseConfirmation p >>= f) 0 := by
  rw [applyPurchaseConfirmation, hp, bind_assoc]
  refine updateStatus_ordered hid fun k r hk hr => ?_
  dsimp only
  by_cases hc : (r.getD p).cashbackAmount > 0
  · rw [if_pos hc]
    simp only [CashbackClient.confirm, WalletsClient.confirmPending, bind_assoc, pure_bind]
    exact updateTransaction_ordered hk (updateWallet_ordered le_rfl (h _ _))
  · rw [if_neg hc]
    exact h _ _

theorem add_ordered {row : AuditLog} {f : Unit → Coroutine β} (h : Ordered reversed (f ()) 0) :
    Ordered reversed (AuditTrailRepository.add row >>= f) n := by
  rw [AuditTrailRepository.add, bind_assoc]
  refine ascends_execute_bind n le_rfl (fun d x hx => ?_) (ascends_commitTx_bind h)
  cases hx

theorem confirmPurchase_ordered (hid : id ∉ reversed) {p : Purchase} (hp : p.id = id)
    {f : Unit → Coroutine β} (now verifiedAt : Nat) (h : Ordered reversed (f ()) 0) :
    Ordered reversed (confirmPurchase (auditedBroker now) p verifiedAt >>= f) 0 := by
  rw [confirmPurchase, bind_assoc]
  refine applyPurchaseConfirmation_ordered hid hp fun k p' => ?_
  rw [bind_assoc]
  apply ascends_commitTx_bind
  rw [Core.Broker.publish_of_singleton _ (auditedBroker_confirmed now)]
  exact add_ordered h

theorem rejectPurchase_ordered (hid : id ∉ reversed) {p : Purchase} (hp : p.id = id)
    {f : Unit → Coroutine β} (now failedAt : Nat) (reason : String)
    (h : Ordered reversed (f ()) 0) :
    Ordered reversed (rejectPurchase (auditedBroker now) p reason failedAt >>= f) 0 := by
  rw [rejectPurchase, hp, bind_assoc]
  refine updateStatus_ordered hid fun k r hk hr => ?_
  have hend : ∀ k, Ordered reversed (commitTx >>= fun _ =>
      (auditedBroker now).publish (t := .purchaseRejected) ⟨(r.getD p).id, (r.getD p).userId,
        (r.getD p).merchantId, (r.getD p).amount, (r.getD p).currency, failedAt, reason⟩ >>= f)
      k := by
    intro k
    apply ascends_commitTx_bind
    rw [Core.Broker.publish_of_singleton _ (auditedBroker_rejected now)]
    exact add_ordered h
  by_cases hc : (r.getD p).cashbackAmount > 0
  · simp only [if_pos hc, CashbackClient.reverse, WalletsClient.reversePending, bind_assoc]
    exact updateTransaction_ordered hk (updateWallet_ordered le_rfl (hend _))
  · simp only [if_neg hc, bind_assoc]
    exact hend _

theorem ingest_ordered (hid : id ∉ reversed) (transactionId : String) (today now : Nat)
    (data : PurchaseCreate) (currentUserId : String) :
    Ordered reversed (Operation.ingest id transactionId today now data currentUserId).prog 0 := by
  rw [Operation.prog, ingestPurchase, bind_assoc]
  refine ascends_lift_bind fun _ _ => ?_
  rw [bind_assoc, PurchaseRepository.getByExternalId]
  refine ordered_selectOne_bind fun existing => ?_
  rw [bind_assoc]
  refine ascends_lift_bind fun _ _ => ?_
  rw [bind_assoc]
  refine ascends_lift_bind fun _ _ => ?_
  rw [bind_assoc, UsersClient.getUserById]
  refine ordered_selectOne_bind fun user => ?_
  rw [bind_assoc]
  refine ascends_lift_bind fun _ _ => ?_
  rw [bind_assoc, MerchantsClient.getMerchantById]
  refine ordered_selectOne_bind fun merchant => ?_
  rw [bind_assoc]
  refine ascends_lift_bind fun _ _ => ?_
  rw [bind_assoc, OffersClient.getActiveOfferForMerchant, bind_assoc]
  refine ascends_query_bind fun d => ascends_lift_bind fun available _ => ?_
  rw [bind_assoc]
  refine ascends_lift_bind fun offer _ => ?_
  rw [bind_assoc]
  refine ascends_lift_bind fun cashback _ => ?_
  rw [bind_assoc, PurchaseRepository.addPurchase, bind_assoc]
  refine ascends_execute_bind 1 (by omega) (fun d x hx => ?_) ?_
  · have hpurchase : lockLevel reversed (.purchase id) = 0 := if_neg hid
    obtain rfl | rfl : x = .purchase id ∨ x = .externalId data.externalId := by
      simpa [Statement.locks, Sql.locks, newPurchase] using hx
    · omega
    · simp [lockLevel]
  · rw [bind_assoc]
    refine getById_ordered fun r hr => ?_
    simp only [pure_bind, CashbackClient.create, WalletsClient.creditPending, bind_assoc]
    refine ascends_execute_bind 2 (by omega) (fun d x hx => ?_) ?_
    · obtain rfl | rfl : x = .transaction transactionId ∨ x = .transactionOf (r.getD _).id := by
        simpa [Statement.locks, Sql.locks] using hx
      · simp [lockLevel]
      · simp [lockLevel]
    · refine ascends_execute_bind 3 (by omega) (fun d x hx => ?_) (ascends_commitTx_bind trivial)
      obtain rfl : x = .wallet data.userId := by
        simpa [Statement.locks, Sql.locks] using hx
      simp [lockLevel]

theorem verificationAttempt_ordered (hid : id ∉ reversed)
    (verify : Purchase → Nat → VerificationResult) (now number : Nat) {f : Bool → Coroutine β}
    (hf : ∀ stop, Ordered reversed (f stop) 0) :
    Ordered reversed (verificationAttempt (auditedBroker now) verify now id number >>= f) 0 := by
  rw [verificationAttempt, bind_assoc]
  refine getById_ordered fun r hr => ?_
  cases r with
  | none => exact hf true
  | some p =>
    by_cases hpending : p.status ≠ .pending
    · simp only [if_pos hpending]
      exact hf true
    · simp only [if_neg hpending]
      cases (verify p number).disposition with
      | confirmed =>
        rw [bind_assoc]
        exact confirmPurchase_ordered hid (hr p rfl) now now (hf true)
      | rejected =>
        rw [bind_assoc]
        exact rejectPurchase_ordered hid (hr p rfl) now now _ (hf true)
      | pending => exact hf false

theorem forceReject_ordered (hid : id ∉ reversed) (now : Nat) (maxAttempts : Int) :
    Ordered reversed (Operation.forceReject now id maxAttempts).prog 0 := by
  rw [Operation.prog, forceReject]
  refine getById_ordered fun r hr => ?_
  cases r with
  | none => trivial
  | some p =>
    by_cases hpending : p.status = .pending
    · simp only [if_pos hpending]
      exact rejectPurchase_ordered hid (hr p rfl) now now _ trivial
    · simp only [if_neg hpending]
      trivial

theorem confirmManually_ordered (hid : id ∉ reversed) (now : Nat) (adminId : String) :
    Ordered reversed (Operation.confirmManually now id adminId).prog 0 := by
  rw [Operation.prog, confirmPurchaseManually, bind_assoc]
  refine getById_ordered fun r hr => ?_
  cases r with
  | none => trivial
  | some p =>
    rw [bind_assoc]
    refine ascends_lift_bind fun _ _ => ?_
    rw [bind_assoc]
    refine applyPurchaseConfirmation_ordered hid (hr p rfl) fun k p' => ?_
    rw [bind_assoc]
    apply ascends_commitTx_bind
    rw [Core.Broker.publish_of_nil _ (auditedBroker_confirmedByAdmin now)]
    trivial

theorem reverse_ordered (hid : id ∈ reversed) (now : Nat) (adminId : String) :
    Ordered reversed (Operation.reverse now id adminId).prog 0 := by
  rw [Operation.prog, reversePurchase, bind_assoc]
  refine getById_ordered fun r hr => ?_
  cases r with
  | none => trivial
  | some p =>
    rw [bind_assoc]
    refine ascends_lift_bind fun _ _ => ?_
    simp only [CashbackClient.reverse, bind_assoc]
    refine updateTransaction_ordered (by omega) ?_
    have hend : Ordered reversed
        (PurchaseRepository.reversePurchase id >>= fun r => commitTx >>= fun _ =>
          (auditedBroker now).publish (t := .purchaseReversed) ⟨id, (r.getD p).userId, adminId,
            (r.getD p).merchantId, (r.getD p).amount, (r.getD p).currency, p.status⟩ >>= fun _ =>
          pure (r.getD p) >>= fun _ => pure ()) 3 := by
      rw [PurchaseRepository.reversePurchase_eq]
      refine updateReturning_ordered (m := 4) (by omega) (by simp [lockLevel, hid]) ?_
      intro k r _ _
      apply ascends_commitTx_bind
      rw [Core.Broker.publish_of_singleton _ (auditedBroker_reversed now)]
      exact add_ordered trivial
    by_cases hpending : p.status = .pending
    · simp only [if_pos hpending, WalletsClient.reversePending, bind_assoc]
      exact updateWallet_ordered le_rfl hend
    · simp only [if_neg hpending, WalletsClient.reverseAvailable, bind_assoc]
      exact updateWallet_ordered le_rfl hend

theorem Operation.ordered (o : Operation) (hfirst : ∀ id ∈ reversed, ¬ o.LocksFirst id)
    (hreverse : ∀ id, o.Reverses id → id ∈ reversed) : Ordered reversed o.prog 0 := by
  cases o with
  | ingest id => exact ingest_ordered (fun h => hfirst id h rfl) _ _ _ _ _
  | attempt verify now id =>
    exact verificationAttempt_ordered (fun h => hfirst id h rfl) _ _ _ fun _ => trivial
  | forceReject now id => exact forceReject_ordered (fun h => hfirst id h rfl) _ _
  | confirmManually now id => exact confirmManually_ordered (fun h => hfirst id h rfl) _ _
  | reverse now id => exact reverse_ordered (hreverse id rfl) _ _

end

open Classical in
/-- Where no purchase is reversed while it is ingested or settled, the sessions cannot wait
for one another in a circle: whatever fails on the way, every schedule answers them all. -/
theorem answers_all {ι : Type} [DecidableEq ι] [Fintype ι] {o : ι → Operation}
    (hapart : ∀ i j id, (o i).Reverses id → ¬ (o j).LocksFirst id) {d₀ : Database}
    {f : ℕ → Sys ι Database Sql PurchaseException Unit} (hf : Sys.Schedule f)
    (h₀ : f 0 = Sys.start d₀ fun i => (o i).prog) :
    ∃ n, ∀ i, ((f n).session i).prog.Done := by
  have hordered : ∀ i, Ordered { id | ∃ j, (o j).Reverses id } (o i).prog 0 := by
    intro i
    apply (o i).ordered
    · rintro id ⟨j, hj⟩
      exact hapart j i id hj
    · exact fun id h => ⟨i, h⟩
  have hascending := Sys.ascending_start hordered d₀
  rw [← h₀] at hascending
  exact hascending.eventually_done hf

def firstThenSecond {α : Type} (s : Sys (Fin 2) Database Sql PurchaseException α) :
    ℕ → Sys (Fin 2) Database Sql PurchaseException α
  | 0 => s
  | n + 1 =>
    let s := firstThenSecond s n
    ((s.next 0 .advance).or (s.next 1 .advance)).getD s

theorem faultless_firstThenSecond {α : Type} (s : Sys (Fin 2) Database Sql PurchaseException α) :
    Sys.Faultless (firstThenSecond s) := by
  intro n
  rw [firstThenSecond]
  generalize firstThenSecond s n = t
  cases h₀ : t.next 0 .advance with
  | some t' => exact Or.inl ⟨0, h₀⟩
  | none =>
    cases h₁ : t.next 1 .advance with
    | some t' => exact Or.inl ⟨1, h₁⟩
    | none =>
      refine Or.inr fun i => ?_
      fin_cases i
      · exact h₀
      · exact h₁

theorem one_le_length_other : 1 ≤ "other".length := by decide

def reversalAndIngestion (i : Fin 2) : Operation :=
  if i = 0 then .reverse 2 "p" "root"
  else .ingest "q" "u" 2 2 (oneRequest "other" 10000 hundredEuros_pos one_le_length_other) "ana"

theorem answers_all_reversalAndIngestion :
    ∃ n, ∀ i, ((firstThenSecond (Sys.start pendingPurchase fun i =>
      (reversalAndIngestion i).prog) n).session i).prog.Done := by
  refine answers_all (o := reversalAndIngestion) ?_ (faultless_firstThenSecond _).schedule rfl
  intro i j id hi hj
  fin_cases i
  · obtain rfl : "p" = id := hi
    fin_cases j
    · exact hj
    · have hpq : "q" = "p" := hj
      exact absurd hpq (by decide)
  · exact hi

/-- A reversal holds the transaction and the wallet of the purchase, whose own row a
confirmation holds: neither can go on. -/
example : ((Sys.play (fun _ _ => true) [0, 0, 1, 1, 1, 1, 0, 0] (Sys.start pendingPurchase
      fun i : Fin 2 => if i = 0 then (Operation.reverse 2 "p" "root").prog
        else (Operation.confirmManually 2 "p" "root").prog)).any fun s =>
    decide (∀ i, (s.next i .advance).isNone ∧ ¬ (s.session i).prog.Done)) = true := by
  decide +kernel

end ClickNBack.Purchases
