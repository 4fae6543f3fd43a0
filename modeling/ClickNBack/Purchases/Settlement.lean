import ClickNBack.Purchases.Accounting
import ClickNBack.ReadCommitted.Serializable

namespace ClickNBack.Purchases

open Relational ReadCommitted Prog Function

def Database.ledger (d : Database) :
    Catalog × PurchaseTable × TransactionTable × (String → Option Wallet) :=
  (d.catalog, d.purchases, d.transactions, d.wallets)

theorem ledger_eq {d d' : Database} (h : d.ledger = d'.ledger) :
    d' = { d with auditLogs := d'.auditLogs } := by
  obtain ⟨c, p, t, w, a⟩ := d
  obtain ⟨c', p', t', w', a'⟩ := d'
  simp only [Database.ledger, Prod.mk.injEq] at h
  obtain ⟨rfl, rfl, rfl, rfl⟩ := h
  rfl

theorem uniform_ledger (s : Sql) : Uniform Database.ledger s := by
  intro d d' h
  rw [ledger_eq h]
  cases s with
  | insertPurchase row =>
    simp only [Statement.exec, Sql.exec]
    cases d.purchases.insert row <;> rfl
  | insertTransaction row =>
    simp only [Statement.exec, Sql.exec]
    cases d.transactions.insert row <;> rfl
  | updatePurchase | updateTransaction | upsertWallet | updateWallet | insertAuditLog => rfl

theorem quiet_insertAuditLog (row : AuditLog) : Quiet Database.ledger (Sql.insertAuditLog row) :=
  fun _ => rfl

section

variable {β : Type} {o : Operation} {p : Purchase}

theorem getById_opening (purchaseId : String) {f : Option Purchase → Coroutine β}
    (h : ∀ r, (f r).Opening Database.ledger) :
    (PurchaseRepository.getById purchaseId >>= f).Opening Database.ledger := by
  rw [getById_eq]
  refine opening_query_bind (fun d d' hd => ?_) h
  rw [ledger_eq hd]

theorem write_opening (s : Sql) {f : Unit → Coroutine β} (h : (f ()).Opening Database.ledger) :
    (execute s >>= f).Opening Database.ledger :=
  opening_execute_bind (uniform_ledger s) h

theorem updateReturning_opening (purchaseId : String) (u : PurchaseUpdate)
    {f : Option Purchase → Coroutine β} (h : ∀ r, (f r).Opening Database.ledger) :
    (updateReturning purchaseId u >>= f).Opening Database.ledger := by
  rw [updateReturning]
  rw [bind_assoc]
  refine getById_opening _ fun r => ?_
  cases r with
  | none => exact h none
  | some q =>
    change ((execute _ >>= fun _ => PurchaseRepository.getById purchaseId) >>= f).Opening _
    rw [bind_assoc]
    exact write_opening _ (getById_opening _ h)

theorem updateStatus_opening (purchaseId : String) (s : PurchaseStatus)
    {f : Option Purchase → Coroutine β} (h : ∀ r, (f r).Opening Database.ledger) :
    (PurchaseRepository.updateStatus purchaseId s >>= f).Opening Database.ledger := by
  rw [updateStatus_eq]
  exact updateReturning_opening purchaseId (.status s) h

theorem reversePurchase_opening (purchaseId : String) {f : Option Purchase → Coroutine β}
    (h : ∀ r, (f r).Opening Database.ledger) :
    (PurchaseRepository.reversePurchase purchaseId >>= f).Opening Database.ledger := by
  rw [PurchaseRepository.reversePurchase_eq]
  exact updateReturning_opening purchaseId .reversed h

theorem add_trailing (row : AuditLog) {f : Unit → Coroutine β}
    (h : (f ()).Trailing Database.ledger) :
    (AuditTrailRepository.add row >>= f).Trailing Database.ledger := by
  rw [AuditTrailRepository.add]
  rw [bind_assoc]
  exact trailing_execute_bind (uniform_ledger _) (quiet_insertAuditLog row)
    (trailing_commitTx_bind h)

theorem applyPurchaseConfirmation_opening (p : Purchase) {f : Purchase → Coroutine β}
    (h : ∀ q, (f q).Opening Database.ledger) :
    (applyPurchaseConfirmation p >>= f).Opening Database.ledger := by
  rw [applyPurchaseConfirmation]
  rw [bind_assoc]
  refine updateStatus_opening _ _ fun r => ?_
  by_cases hc : (r.getD p).cashbackAmount > 0
  · simp only [if_pos hc, bind_assoc, pure_bind]
    exact write_opening _ (write_opening _ (h _))
  · simp only [if_neg hc, pure_bind]
    exact h _

theorem confirmPurchase_opening (p : Purchase) (now : Nat) {f : Unit → Coroutine β}
    (h : (f ()).Trailing Database.ledger) :
    (confirmPurchase (auditedBroker now) p now >>= f).Opening Database.ledger := by
  rw [confirmPurchase]
  rw [bind_assoc]
  refine applyPurchaseConfirmation_opening p fun q => ?_
  rw [bind_assoc, Core.Broker.publish_of_singleton _ (auditedBroker_confirmed now)]
  exact opening_commitTx_bind (add_trailing _ h)

theorem rejectPurchase_opening (p : Purchase) (reason : String) (now : Nat)
    {f : Unit → Coroutine β} (h : (f ()).Trailing Database.ledger) :
    (rejectPurchase (auditedBroker now) p reason now >>= f).Opening Database.ledger := by
  rw [rejectPurchase]
  rw [bind_assoc]
  refine updateStatus_opening _ _ fun r => ?_
  simp only [Core.Broker.publish_of_singleton _ (auditedBroker_rejected now)]
  by_cases hc : (r.getD p).cashbackAmount > 0
  · simp only [if_pos hc, bind_assoc]
    exact write_opening _ (write_opening _ (opening_commitTx_bind (add_trailing _ h)))
  · simp only [if_neg hc, bind_assoc]
    exact opening_commitTx_bind (add_trailing _ h)

end

theorem done_trailing {α : Type} (a : α) :
    (pure a : Coroutine α).Trailing Database.ledger := ⟨trivial, trivial⟩

theorem attempt_opening (verify : Purchase → Nat → VerificationResult) (now : Nat)
    (purchaseId : String) (number : Nat) :
    (Operation.attempt verify now purchaseId number).prog.Opening Database.ledger := by
  simp only [Operation.prog, verificationAttempt, bind_assoc]
  refine getById_opening _ fun r => ?_
  cases r with
  | none => exact done_trailing ()
  | some p =>
    by_cases hs : p.status = .pending
    · simp only [hs, ne_eq, not_true_eq_false, if_false]
      cases (verify p number).disposition with
      | confirmed =>
        simp only [bind_assoc]
        exact confirmPurchase_opening p now (done_trailing ())
      | rejected =>
        simp only [bind_assoc]
        exact rejectPurchase_opening p _ now (done_trailing ())
      | pending => exact done_trailing ()
    · simp only [if_pos hs]
      exact done_trailing ()

theorem forceReject_opening (now : Nat) (purchaseId : String) (maxAttempts : Int) :
    (Operation.forceReject now purchaseId maxAttempts).prog.Opening Database.ledger := by
  simp only [Operation.prog, forceReject]
  refine getById_opening _ fun r => ?_
  cases r with
  | none => exact done_trailing ()
  | some p =>
    by_cases hs : p.status = .pending
    · simp only [if_pos hs]
      exact rejectPurchase_opening p _ now (done_trailing ())
    · simp only [if_neg hs]
      exact done_trailing ()

theorem confirmManually_opening (now : Nat) (purchaseId adminId : String) :
    (Operation.confirmManually now purchaseId adminId).prog.Opening Database.ledger := by
  simp only [Operation.prog, confirmPurchaseManually, bind_assoc]
  refine getById_opening _ fun r => ?_
  cases r with
  | none => exact ⟨trivial, trivial⟩
  | some p =>
    simp only [bind_assoc]
    refine opening_lift_bind fun _ _ => applyPurchaseConfirmation_opening p fun q => ?_
    rw [Core.Broker.publish_of_nil _ (auditedBroker_confirmedByAdmin now)]
    exact done_trailing ()

theorem reverse_opening (now : Nat) (purchaseId adminId : String) :
    (Operation.reverse now purchaseId adminId).prog.Opening Database.ledger := by
  simp only [Operation.prog, reversePurchase, bind_assoc]
  refine getById_opening _ fun r => ?_
  cases r with
  | none => exact ⟨trivial, trivial⟩
  | some p =>
    simp only [bind_assoc, Core.Broker.publish_of_singleton _ (auditedBroker_reversed now)]
    refine opening_lift_bind fun _ _ => write_opening _ ?_
    by_cases hs : p.status = .pending
    · simp only [if_pos hs, bind_assoc]
      refine write_opening _ (reversePurchase_opening _ fun r => ?_)
      exact opening_commitTx_bind (add_trailing _ (done_trailing ()))
    · simp only [if_neg hs, bind_assoc]
      refine write_opening _ (reversePurchase_opening _ fun r => ?_)
      exact opening_commitTx_bind (add_trailing _ (done_trailing ()))

def Operation.Settles (purchaseId : String) : Operation → Prop
  | .ingest .. => False
  | .attempt _ _ id _ => id = purchaseId
  | .forceReject _ id _ => id = purchaseId
  | .confirmManually _ id _ => id = purchaseId
  | .reverse _ id _ => id = purchaseId

variable {purchaseId : String} {o : Operation} {d : Database} {p : Purchase} {b : Int}

theorem Operation.Settles.opening (h : o.Settles purchaseId) : o.prog.Opening Database.ledger := by
  cases o with
  | ingest => exact h.elim
  | attempt => exact attempt_opening _ _ _ _
  | forceReject => exact forceReject_opening _ _ _
  | confirmManually => exact confirmManually_opening _ _ _
  | reverse => exact reverse_opening _ _ _

theorem Operation.Settles.readsFirst (h : o.Settles purchaseId) : o.prog.ReadsFirst := by
  cases o with
  | ingest => exact h.elim
  | attempt | forceReject | confirmManually | reverse => exact Or.inr ⟨_, rfl⟩

theorem pendingBalance_update_cases (d : Database) (userId : String) (x y : Int) :
    { d with wallets := update d.wallets userId ((d.wallets userId).map (·.add x y)) :
      Database }.pendingBalance userId = d.pendingBalance userId ∨
    { d with wallets := update d.wallets userId ((d.wallets userId).map (·.add x y)) :
      Database }.pendingBalance userId = d.pendingBalance userId + x := by
  cases hw : d.wallets userId with
  | none => exact Or.inl (by simp [Database.pendingBalance, hw])
  | some w =>
    apply Or.inr
    have h := pendingBalance_update userId (hw ▸ rfl : (d.wallets userId).isSome) x y
    rw [hw, if_pos rfl] at h
    exact h

/-- The cashback of `p` has left the pending balance `b` of its owner at most
once, and not at all as long as `p` is pending. -/
structure MovedOnce (p : Purchase) (b : Int) (d : Database) : Prop where
  row : ∃ q, d.purchases.find Purchase.id p.id = some q ∧ q.userId = p.userId ∧
    (q.status = .pending → q.cashbackAmount = p.cashbackAmount ∧ d.pendingBalance p.userId = b)
  balance : d.pendingBalance p.userId = b ∨ d.pendingBalance p.userId = b - p.cashbackAmount

theorem MovedOnce.settled {d' : Database} {q : Purchase} {u : PurchaseUpdate}
    (h : MovedOnce p b d) (hq : d.purchases.find Purchase.id p.id = some q)
    (hrow : d'.purchases = PurchaseTable.update d.purchases q.id u)
    (hu : (u.on q).status ≠ .pending)
    (hbalance : d'.pendingBalance q.userId = d.pendingBalance q.userId ∨
      q.status = .pending ∧
        d'.pendingBalance q.userId = d.pendingBalance q.userId - q.cashbackAmount) :
    MovedOnce p b d' := by
  obtain ⟨q', hq', huser, hpending⟩ := h.row
  obtain rfl : q = q' := Option.some.inj (hq.symm.trans hq')
  rw [huser] at hbalance
  constructor
  · refine ⟨u.on q, ?_, ?_, fun hs => absurd hs hu⟩
    · rw [hrow, id_of_find hq]
      exact find_update_self hq u
    · rw [← huser]
      cases u <;> rfl
  · obtain he | ⟨hs, he⟩ := hbalance
    · rw [he]
      exact h.balance
    · obtain ⟨hc, hb⟩ := hpending hs
      exact Or.inr (by rw [he, hc, hb])

theorem MovedOnce.confirmed {q : Purchase} (h : MovedOnce p b d)
    (hq : d.purchases.find Purchase.id p.id = some q) (hs : q.status = .pending) :
    MovedOnce p b (replay (confirmationWrites q) d) := by
  by_cases hc : q.cashbackAmount > 0
  · refine h.settled hq (u := .status .confirmed) ?_ (by simp [PurchaseUpdate.on]) ?_
    · simp [confirmationWrites, hc]
    · have hcases := pendingBalance_update_cases d q.userId (-q.cashbackAmount) q.cashbackAmount
      simp only [confirmationWrites, hc, if_true, replay_cons, replay_nil, apply_updatePurchase,
        apply_updateTransaction, apply_updateWallet]
      exact hcases.imp id fun he => ⟨hs, he⟩
  · refine h.settled hq (u := .status .confirmed) ?_ (by simp [PurchaseUpdate.on]) (Or.inl ?_)
    · simp [confirmationWrites, hc]
    · simp [confirmationWrites, hc, Database.pendingBalance]

theorem MovedOnce.rejected {q : Purchase} (h : MovedOnce p b d)
    (hq : d.purchases.find Purchase.id p.id = some q) (hs : q.status = .pending) :
    MovedOnce p b (replay (rejectionWrites q) d) := by
  by_cases hc : q.cashbackAmount > 0
  · refine h.settled hq (u := .status .rejected) ?_ (by simp [PurchaseUpdate.on]) ?_
    · simp [rejectionWrites, hc]
    · have hcases := pendingBalance_update_cases d q.userId (-q.cashbackAmount) 0
      simp only [rejectionWrites, hc, if_true, replay_cons, replay_nil, apply_updatePurchase,
        apply_updateTransaction, apply_updateWallet]
      exact hcases.imp id fun he => ⟨hs, he⟩
  · refine h.settled hq (u := .status .rejected) ?_ (by simp [PurchaseUpdate.on]) (Or.inl ?_)
    · simp [rejectionWrites, hc]
    · simp [rejectionWrites, hc, Database.pendingBalance]

theorem MovedOnce.reversed {q : Purchase} (h : MovedOnce p b d)
    (hq : d.purchases.find Purchase.id p.id = some q) :
    MovedOnce p b (replay (reversalWrites q) d) := by
  rw [replay_reversalWrites]
  apply h.settled hq (u := .reversed) rfl (by simp [PurchaseUpdate.on])
  by_cases hs : q.status = .pending
  · simp only [hs, if_true]
    exact (pendingBalance_update_cases d q.userId (-q.cashbackAmount) 0).imp id
      fun he => ⟨trivial, he⟩
  · simp only [hs, if_false]
    obtain he | he := pendingBalance_update_cases d q.userId 0 (-q.cashbackAmount)
    · exact Or.inl he
    · exact Or.inl (he.trans (Int.add_zero _))

theorem MovedOnce.audited {writes : List Sql} (h : MovedOnce p b (replay writes d))
    (row : AuditLog) : MovedOnce p b (replay (writes ++ [.insertAuditLog row]) d) := by
  rw [replay_audited]
  exact ⟨h.row, h.balance⟩

theorem MovedOnce.exec (h : MovedOnce p b d) (ho : o.Settles p.id) : MovedOnce p b (o.exec d) := by
  have heffect := o.effect d
  rw [o.exec_eq_replay]
  generalize o.prog.committed d [] = writes at heffect
  cases heffect with
  | idle => exact h
  | ingested => exact ho.elim
  | confirmed hq hs => exact (h.confirmed (ho ▸ hq) hs).audited _
  | rejected reason hq hs => exact (h.rejected (ho ▸ hq) hs).audited _
  | exhausted hq hs => exact (h.rejected (ho ▸ hq) hs).audited _
  | confirmedManually hq hs => exact h.confirmed (ho ▸ hq) hs
  | reversed hq hs => exact (h.reversed (ho ▸ hq)).audited _

section

variable {ι : Type} {settlements : ι → Operation}

theorem movedOnce_serial (hsettles : ∀ i, (settlements i).Settles purchaseId) {d₀ : Database}
    (hp : d₀.purchases.find Purchase.id purchaseId = some p) (order : List ι) :
    MovedOnce p (d₀.pendingBalance p.userId)
      (serial (fun i => (settlements i).prog) order d₀) := by
  have hid := id_of_find hp
  refine serial_invariant (fun i d h => h.exec (o := settlements i) (hid ▸ hsettles i)) order ?_
  exact ⟨⟨p, hid ▸ hp, rfl, fun _ => ⟨rfl, rfl⟩⟩, Or.inl rfl⟩

variable [DecidableEq ι] [Fintype ι]

/-- As long as no settlement commits while another one that has read the purchase
is still to commit, the database is that of executing them one at a time, and the
cashback leaves the pending balance once at most. -/
theorem settlement_serializable (hsettles : ∀ i, (settlements i).Settles purchaseId)
    (d₀ : Database) {s : Sys ι Database Sql PurchaseException Unit}
    (hr : Sys.Reach (Sys.NotOvertaken Database.ledger)
      (Sys.start d₀ fun i => (settlements i).prog) s) :
    (∃ order : List ι, order.Nodup ∧ (∀ i, (s.session i).prog.Done → i ∈ order) ∧
      s.db.ledger = (serial (fun i => (settlements i).prog) order d₀).ledger) ∧
    ∀ p, d₀.purchases.find Purchase.id purchaseId = some p →
      s.db.pendingBalance p.userId = d₀.pendingBalance p.userId ∨
      s.db.pendingBalance p.userId = d₀.pendingBalance p.userId - p.cashbackAmount := by
  obtain ⟨order, hnodup, hall, hledger⟩ := Sys.serializable_of_not_overtaken
    (fun i => (hsettles i).opening) (fun i => (hsettles i).readsFirst) hr
  refine ⟨⟨order, hnodup, hall, hledger⟩, fun p hp => ?_⟩
  have hmoved := (movedOnce_serial hsettles hp order).balance
  have hwallets := congrArg (fun x => (x.2.2.2 p.userId).elim 0 Wallet.pendingBalance) hledger
  change s.db.pendingBalance p.userId = (serial _ order d₀).pendingBalance p.userId at hwallets
  rw [hwallets]
  exact hmoved

end

def pendingPurchase : Database :=
  runSteps [.operation (.ingest "p" "t" 1 1
      (oneRequest "ext" 10000 hundredEuros_pos one_le_length_ext) "ana")]
    (noPurchases oneOffer noWallets 0)

def twoConfirmations (i : Fin 2) : Operation :=
  if i = 0 then .attempt (fun _ _ => ⟨.confirmed, none⟩) 2 "p" 1
  else .confirmManually 2 "p" "root"

def twoConfirmationsStart : Sys (Fin 2) Database Sql PurchaseException Unit :=
  Sys.start pendingPurchase fun i => (twoConfirmations i).prog

theorem twoConfirmations_settle (i : Fin 2) : (twoConfirmations i).Settles "p" := by
  rw [twoConfirmations]
  split <;> rfl

/-- The admin's session reads after the runner's has committed, and is refused. -/
def oneAfterTheOther : Sys (Fin 2) Database Sql PurchaseException Unit :=
  (Sys.play Sys.undisturbed [0, 0, 0, 0, 0, 0, 0, 1, 0, 0, 0] twoConfirmationsStart).get
    (by decide +kernel)

theorem settlement_serializable_oneAfterTheOther :
    oneAfterTheOther.db.pendingBalance "ana" = 0 ∧
    (∃ order : List (Fin 2), order.Nodup ∧
      (∀ i, (oneAfterTheOther.session i).prog.Done → i ∈ order) ∧
      oneAfterTheOther.db.ledger =
        (serial (fun i => (twoConfirmations i).prog) order pendingPurchase).ledger) ∧
    ∀ p, pendingPurchase.purchases.find Purchase.id "p" = some p →
      oneAfterTheOther.db.pendingBalance p.userId = pendingPurchase.pendingBalance p.userId ∨
      oneAfterTheOther.db.pendingBalance p.userId =
        pendingPurchase.pendingBalance p.userId - p.cashbackAmount :=
  ⟨by decide +kernel, settlement_serializable twoConfirmations_settle pendingPurchase
    (Sys.reach_of_play (fun _ _ => Sys.notOvertaken_of_undisturbed _) Sys.Reach.refl
      (Option.some_get _).symm)⟩

/-- The two sessions read one after the other, and only then does either write. -/
def bothHaveRead : Sys (Fin 2) Database Sql PurchaseException Unit :=
  (Sys.play (fun _ _ => true) [0, 1, 0, 0, 0, 0, 0, 0, 0, 0, 0, 1, 1, 1, 1, 1, 1]
    twoConfirmationsStart).get (by decide +kernel)

theorem bothHaveRead_not_serializable :
    ¬ ∀ s, Sys.Reach (fun _ _ a => a = .advance) twoConfirmationsStart s →
      (∀ i, (s.session i).prog.Done) →
      ∃ order : List (Fin 2), order.Nodup ∧ (∀ i, i ∈ order) ∧ s.db.ledger =
        (serial (fun i => (twoConfirmations i).prog) order pendingPurchase).ledger := by
  intro h
  obtain ⟨order, -, -, hledger⟩ := h bothHaveRead
    (Sys.reach_of_play (C := fun _ _ a => a = .advance) (fun _ _ _ => rfl) Sys.Reach.refl
      (Option.some_get _).symm) (by decide +kernel)
  have hp : pendingPurchase.purchases.find Purchase.id "p" =
      some (newPurchase "p" 1 (oneRequest "ext" 10000 (by decide)) "offer" 1000) := by
    decide +kernel
  have hmoved := (movedOnce_serial twoConfirmations_settle hp order).balance
  have hwallets := congrArg (fun x => (x.2.2.2 "ana").elim 0 Wallet.pendingBalance) hledger
  have hend : bothHaveRead.db.pendingBalance "ana" = -1000 := by decide +kernel
  have hstart : pendingPurchase.pendingBalance "ana" = 1000 := by decide +kernel
  change bothHaveRead.db.pendingBalance "ana" =
    (serial _ order pendingPurchase).pendingBalance "ana" at hwallets
  change (serial _ order pendingPurchase).pendingBalance "ana" =
      pendingPurchase.pendingBalance "ana" ∨ (serial _ order pendingPurchase).pendingBalance "ana"
        = pendingPurchase.pendingBalance "ana" - 1000 at hmoved
  omega

end ClickNBack.Purchases
