import ClickNBack.Purchases.Runs
import ClickNBack.ReadCommitted.Faults

namespace ClickNBack.Purchases

open Relational ReadCommitted Prog

/-- The operations that settle a purchase and publish what they did; `clock` is
what the audit handler reads. -/
inductive Settlement
  | reverse (clock : Nat) (purchaseId adminId : String)
  | confirm (clock : Nat) (purchase : Purchase) (verifiedAt : Nat)
  | reject (clock : Nat) (purchase : Purchase) (reason : String) (failedAt : Nat)

namespace Settlement

def prog : Settlement → Coroutine Unit
  | .reverse clock purchaseId adminId => do
    let _ ← reversePurchase (auditedBroker clock) purchaseId adminId
  | .confirm clock purchase verifiedAt => confirmPurchase (auditedBroker clock) purchase verifiedAt
  | .reject clock purchase reason failedAt =>
    rejectPurchase (auditedBroker clock) purchase reason failedAt

/-- The outcome when the `n`-th awaited step of the operation fails with `e`. -/
def failing (o : Settlement) (n : Nat) (e : PurchaseException) (d : Database) :
    Except PurchaseException Unit × Database := (o.prog.failAt n e).run d []

/-- The session's object for the purchase, once the row is flushed. -/
def refreshed (d : Database) (p : Purchase) : Purchase :=
  (d.purchases.find Purchase.id p.id).getD p

def issued (d : Database) (p : Purchase) (writes : Purchase → List Sql) : List Sql :=
  if (d.purchases.find Purchase.id p.id).isSome then writes (refreshed d p)
  else (writes (refreshed d p)).tail

/-- The changes that the operation issues and its audit row, unless a policy
refuses it. -/
def changes (d : Database) : Settlement → Option (List Sql × AuditLog)
  | .reverse clock purchaseId adminId =>
    (d.purchases.find Purchase.id purchaseId).bind fun p =>
      if p.status = .reversed then none
      else some (reversalWrites p, reversedLog clock adminId p)
  | .confirm clock p _ => some (issued d p confirmationWrites, confirmedLog clock (refreshed d p))
  | .reject clock p reason _ =>
    some (issued d p rejectionWrites, rejectedLog clock reason (refreshed d p))

/-- An operation that raises changes no table, and one that returns has
persisted everything that it issued, with one audit row. -/
def AllOrNothing (o : Settlement) (d : Database) (n : Nat) (e : PurchaseException) : Prop :=
  (∀ e', (o.failing n e d).1 = .error e' → (o.failing n e d).2 = d) ∧
    ((o.failing n e d).1 = .ok () → ∃ writes row, o.changes d = some (writes, row) ∧
      (o.failing n e d).2 = { replay writes d with auditLogs := row ::ₘ d.auditLogs })

section

variable {d : Database} {p : Purchase} {log : List Sql}

theorem getById_flushes (id : String) (log : List Sql) :
    Flushes d (PurchaseRepository.getById id) log
      ((replay log d).purchases.find Purchase.id id) log 1 := by
  rw [getById_eq]
  exact Flushes.query _ log

theorem updateReturning_flushes {id : String}
    (h : (replay log d).purchases.find Purchase.id id = some p) (u : PurchaseUpdate) :
    Flushes d (updateReturning id u) log (some (u.on p)) (log ++ [.updatePurchase id u])
      (1 + (1 + 1)) := by
  apply Flushes.bind (getById_flushes id log)
  rw [h]
  have hview : (replay (log ++ [Sql.updatePurchase id u]) d).purchases.find Purchase.id id =
      some (u.on p) := by
    rw [replay_append]
    exact find_update_self h u
  rw [← hview]
  exact Flushes.bind (Flushes.execute rfl) (getById_flushes id _)

theorem updateStatus_flushes {id : String} (log : List Sql)
    (h : (replay log d).purchases.find Purchase.id id = some p) (s : PurchaseStatus) :
    Flushes d (PurchaseRepository.updateStatus id s) log (some { p with status := s })
      (log ++ [.updatePurchase id (.status s)]) (1 + (1 + 1)) := by
  rw [updateStatus_eq]
  exact updateReturning_flushes h (.status s)

theorem updateStatus_flushes_none {id : String} (log : List Sql)
    (h : (replay log d).purchases.find Purchase.id id = none) (s : PurchaseStatus) :
    Flushes d (PurchaseRepository.updateStatus id s) log none log (1 + 0) := by
  apply Flushes.bind (getById_flushes id log)
  rw [h]
  exact Flushes.pure none log

theorem reversePurchase_flushes {id : String}
    (h : (replay log d).purchases.find Purchase.id id = some p) :
    Flushes d (PurchaseRepository.reversePurchase id) log
      (some { p with status := .reversed, cashbackAmount := 0 })
      (log ++ [.updatePurchase id .reversed]) (1 + (1 + 1)) := by
  rw [PurchaseRepository.reversePurchase_eq]
  exact updateReturning_flushes h .reversed

def settle (p : Purchase) (s : PurchaseStatus) (t w : Purchase → Sql) : Coroutine Purchase := do
  let settled ← PurchaseRepository.updateStatus p.id s
  let purchase := settled.getD p
  if purchase.cashbackAmount > 0 then
    execute (t purchase)
    execute (w purchase)
  return purchase

theorem rejectPurchase_eq (broker : MessageBroker) (p : Purchase) (reason : String)
    (failedAt : Nat) :
    rejectPurchase broker p reason failedAt = (do
      let purchase ← settle p .rejected (fun q => .updateTransaction q.id .reversed)
        fun q => .updateWallet q.userId (-q.cashbackAmount) 0
      commitTx
      broker.publish (t := .purchaseRejected) {
        purchaseId := purchase.id
        userId := purchase.userId
        merchantId := purchase.merchantId
        amount := purchase.amount
        currency := purchase.currency
        failedAt
        reason : PurchaseRejected }) := by
  rw [rejectPurchase, settle]
  rw [bind_assoc]
  congr 1
  funext rejected
  by_cases hc : (rejected.getD p).cashbackAmount > 0
  · simp only [if_pos hc, bind_assoc, pure_bind]
    rfl
  · simp only [if_neg hc, pure_bind]

section

variable {t w : Purchase → Sql} (ht : ∀ q d, ∃ d', Statement.exec (t q) d = .ok d')
  (hw : ∀ q d, ∃ d', Statement.exec (w q) d = .ok d')

include ht hw

theorem moves_flushes (q : Purchase) (log : List Sql) :
    ∃ m, Flushes d
      (if q.cashbackAmount > 0 then do
        execute (t q)
        execute (w q)
        return q
      else return q : Coroutine Purchase)
      log q (log ++ if q.cashbackAmount > 0 then [t q, w q] else []) m := by
  by_cases hc : q.cashbackAmount > 0
  · obtain ⟨d₁, ht⟩ := ht q (replay log d)
    obtain ⟨d₂, hw⟩ := hw q (replay (log ++ [t q]) d)
    rw [if_pos hc, if_pos hc, List.append_cons]
    exact ⟨_, Flushes.bind (Flushes.execute ht)
      (Flushes.bind (Flushes.execute hw) (Flushes.pure q _))⟩
  · rw [if_neg hc, if_neg hc, List.append_nil]
    exact ⟨_, Flushes.pure q log⟩

theorem settle_flushes (hs : ∀ q s, t { q with status := s } = t q ∧ w { q with status := s } = w q)
    (p : Purchase) (s : PurchaseStatus) :
    ∃ s' m, Flushes d (settle p s t w) [] { refreshed d p with status := s' }
      (issued d p fun q => .updatePurchase q.id (.status s) ::
        if q.cashbackAmount > 0 then [t q, w q] else []) m := by
  rw [settle, issued, refreshed]
  cases h : d.purchases.find Purchase.id p.id with
  | none =>
    obtain ⟨m, hm⟩ := moves_flushes ht hw p []
    have hu : Flushes d (PurchaseRepository.updateStatus p.id s) [] none [] (1 + 0) :=
      updateStatus_flushes_none [] h s
    exact ⟨p.status, _, Flushes.bind hu hm⟩
  | some row =>
    obtain ⟨m, hm⟩ := moves_flushes (d := d) ht hw { row with status := s }
      [.updatePurchase p.id (.status s)]
    have hu : Flushes d (PurchaseRepository.updateStatus p.id s) []
        (some { row with status := s }) [.updatePurchase p.id (.status s)] (1 + (1 + 1)) :=
      updateStatus_flushes [] h s
    have hlog : [Sql.updatePurchase p.id (.status s)] ++
        (if row.cashbackAmount > 0 then [t { row with status := s }, w { row with status := s }]
          else []) =
        .updatePurchase row.id (.status s) ::
          if row.cashbackAmount > 0 then [t row, w row] else [] := by
      rw [(hs row s).1, (hs row s).2, id_of_find h, List.singleton_append]
    simp only [Option.isSome_some, if_true, Option.getD_some]
    rw [← hlog]
    exact ⟨s, _, Flushes.bind hu hm⟩

end

theorem add_failAt (row : AuditLog) {β : Type} (b : β) (d : Database) (n : Nat)
    (e : PurchaseException) :
    ((AuditTrailRepository.add row >>= fun _ => pure b).failAt n e).run d [] =
      if n ≤ 1 then (.error e, d) else (.ok b, { d with auditLogs := row ::ₘ d.auditLogs }) := by
  cases n with
  | zero => rfl
  | succ n =>
    cases n with
    | zero => rfl
    | succ n => simp only [Nat.reduceLeDiff, if_false]; rfl

theorem audited_failAt {α β : Type} {body : Coroutine α} {a : α} {writes : List Sql} {m : Nat}
    (h : Flushes d body [] a writes m) {publish : α → Coroutine β} {b : β} {row : AuditLog}
    (hpublish : publish a = AuditTrailRepository.add row >>= fun _ => pure b) (n : Nat)
    (e : PurchaseException) :
    ((body >>= fun a => commitTx >>= fun _ => publish a).failAt n e).run d [] =
      if n ≤ m then (.error e, d)
      else if n ≤ m + 2 then (.error e, replay writes d)
      else (.ok b, { replay writes d with auditLogs := row ::ₘ (replay writes d).auditLogs }) := by
  rw [h.failAt_bind, failAt_commitTx_bind, hpublish, add_failAt]
  obtain h | h | h | h : n < m ∨ n = m ∨ (m < n ∧ n ≤ m + 2) ∨ m + 2 < n := by omega
  · rw [if_pos h, if_pos h.le]
  · have h₁ : ¬ n < m := by omega
    have h₂ : n - m = 0 := by omega
    have h₃ : n ≤ m := by omega
    rw [if_neg h₁, if_pos h₂, if_pos h₃]
  · have h₁ : ¬ n < m := by omega
    have h₂ : n - m ≠ 0 := by omega
    have h₃ : n - m - 1 ≤ 1 := by omega
    have h₄ : ¬ n ≤ m := by omega
    rw [if_neg h₁, if_neg h₂, if_pos h₃, if_neg h₄, if_pos h.2]
  · have h₁ : ¬ n < m := by omega
    have h₂ : n - m ≠ 0 := by omega
    have h₃ : ¬ n - m - 1 ≤ 1 := by omega
    have h₄ : ¬ n ≤ m := by omega
    have h₅ : ¬ n ≤ m + 2 := by omega
    rw [if_neg h₁, if_neg h₂, if_neg h₃, if_neg h₄, if_neg h₅]

theorem audited_firstCommit {α β : Type} {body : Coroutine α} {a : α} {writes : List Sql} {m : Nat}
    (h : Flushes d body [] a writes m) (publish : α → Coroutine β) :
    (body >>= fun a => commitTx >>= fun _ => publish a).firstCommit d [] = some m := by
  rw [h.firstCommit_bind, firstCommit_commitTx_bind, Option.map_some, Nat.zero_add]

end

/-- What the operation does when its `n`-th step fails: nothing up to its own
commit, all but the audit row during the publication, and everything afterwards. -/
def Settles (o : Settlement) (d : Database) (n : Nat) (e : PurchaseException) : Prop :=
  match o.changes d with
  | none => o.prog.firstCommit d [] = none ∧ ∃ e', o.failing n e d = (.error e', d)
  | some (writes, row) => (replay writes d).auditLogs = d.auditLogs ∧
    ∃ m, o.prog.firstCommit d [] = some m ∧ o.failing n e d =
      if n ≤ m then (.error e, d)
      else if n ≤ m + 2 then (.error e, replay writes d)
      else (.ok (), { replay writes d with auditLogs := row ::ₘ d.auditLogs })

theorem settles_of_flushes {o : Settlement} {d : Database} {α : Type} {body : Coroutine α} {a : α}
    {writes : List Sql} {m : Nat} (h : Flushes d body [] a writes m)
    {publish : α → Coroutine Unit} {row : AuditLog}
    (hpublish : publish a = AuditTrailRepository.add row >>= fun _ => pure ())
    (hprog : o.prog = body >>= fun a => commitTx >>= fun _ => publish a)
    (hchanges : o.changes d = some (writes, row))
    (hlogs : (replay writes d).auditLogs = d.auditLogs) (n : Nat) (e : PurchaseException) :
    o.Settles d n e := by
  rw [Settles]
  rw [hchanges]
  refine ⟨hlogs, m, ?_, ?_⟩
  · rw [hprog, audited_firstCommit h]
  · rw [failing]
    rw [hprog, audited_failAt h hpublish, hlogs]

theorem settles_of_refused {o : Settlement} {d : Database} {α : Type} {first : Coroutine α} {a : α}
    (h : Flushes d first [] a [] 1) {f : α → Coroutine Unit} (hf : ∃ e', f a = raise e')
    (hprog : o.prog = first >>= f) (hchanges : o.changes d = none) (n : Nat)
    (e : PurchaseException) : o.Settles d n e := by
  obtain ⟨e', hf⟩ := hf
  rw [Settles, failing]
  rw [hchanges, hprog]
  refine ⟨by rw [h.firstCommit_bind, hf]; rfl, ?_⟩
  rw [h.failAt_bind, hf]
  by_cases hn : n < 1
  · exact ⟨e, by rw [if_pos hn]⟩
  · exact ⟨e', by rw [if_neg hn]; rfl⟩

def reversal (purchaseId : String) : Coroutine (Purchase × PurchaseStatus) := do
  match ← PurchaseRepository.getById purchaseId with
  | none => raise (.purchaseNotFound purchaseId)
  | some purchase =>
    lift (enforcePurchaseReversible purchaseId purchase.status)
    CashbackClient.reverse purchaseId
    if purchase.status = .pending then
      WalletsClient.reversePending purchase.userId purchase.cashbackAmount
    else
      WalletsClient.reverseAvailable purchase.userId purchase.cashbackAmount
    let reversed ← PurchaseRepository.reversePurchase purchaseId
    return (reversed.getD purchase, purchase.status)

theorem reversePurchase_eq (broker : MessageBroker) (purchaseId adminId : String) :
    reversePurchase broker purchaseId adminId = (do
      let (purchase, priorStatus) ← reversal purchaseId
      commitTx
      broker.publish (t := .purchaseReversed) {
        purchaseId
        userId := purchase.userId
        adminId
        merchantId := purchase.merchantId
        amount := purchase.amount
        currency := purchase.currency
        priorStatus : PurchaseReversed }
      return purchase) := by
  rw [reversePurchase, reversal]
  rw [bind_assoc]
  congr 1
  funext r
  cases r with
  | none => rfl
  | some p =>
    by_cases hp : p.status = .pending
    · simp only [if_pos hp, bind_assoc, pure_bind]
    · simp only [if_neg hp, bind_assoc, pure_bind]

theorem reversal_flushes {d : Database} {p : Purchase} {purchaseId : String}
    (h : d.purchases.find Purchase.id purchaseId = some p) (hs : p.status ≠ .reversed) :
    ∃ m, Flushes d (reversal purchaseId) []
      ({ p with status := .reversed, cashbackAmount := 0 }, p.status) (reversalWrites p) m := by
  obtain rfl := id_of_find h
  have hr : Flushes d (PurchaseRepository.getById p.id) [] (some p) [] 1 := by
    rw [← h]
    exact getById_flushes p.id []
  have hw : ∀ w : Sql, w.onPurchases d.purchases = d.purchases →
      (replay [.updateTransaction p.id .reversed, w] d).purchases.find Purchase.id p.id =
        some p := by
    intro w hw
    rw [replay_cons, replay_cons, replay_nil, apply_eq _ w]
    exact (congrArg (fun t : PurchaseTable => t.find Purchase.id p.id) hw).trans h
  rw [reversalWrites]
  by_cases hp : p.status = .pending
  · refine ⟨1 + (1 + (1 + (1 + (1 + 1) + 0))), Flushes.bind hr ?_⟩
    simp only [enforcePurchaseReversible, if_neg hs, lift_ok, pure_bind, if_pos hp]
    exact Flushes.bind (Flushes.execute rfl) (Flushes.bind (Flushes.execute rfl)
      (Flushes.bind (reversePurchase_flushes (hw _ rfl)) (Flushes.pure _ _)))
  · refine ⟨1 + (1 + (1 + (1 + (1 + 1) + 0))), Flushes.bind hr ?_⟩
    simp only [enforcePurchaseReversible, if_neg hs, lift_ok, pure_bind, if_neg hp]
    exact Flushes.bind (Flushes.execute rfl) (Flushes.bind (Flushes.execute rfl)
      (Flushes.bind (reversePurchase_flushes (hw _ rfl)) (Flushes.pure _ _)))

theorem replay_auditLogs {log : List Sql} (h : ∀ s ∈ log, ∀ rows, s.onAuditLogs rows = rows)
    (d : Database) : (replay log d).auditLogs = d.auditLogs :=
  replay_congr Database.auditLogs log d fun s hs d' => by
    rw [apply_eq]
    exact h s hs d'.auditLogs

theorem mem_issued {d : Database} {p : Purchase} {writes : Purchase → List Sql} {s : Sql}
    (h : s ∈ issued d p writes) : s ∈ writes (refreshed d p) := by
  rw [issued] at h
  by_cases hp : (d.purchases.find Purchase.id p.id).isSome
  · rwa [if_pos hp] at h
  · rw [if_neg hp] at h
    exact List.mem_of_mem_tail h

theorem confirmationWrites_unaudited (p : Purchase) :
    ∀ s ∈ confirmationWrites p, ∀ rows, s.onAuditLogs rows = rows := by
  rw [confirmationWrites]
  by_cases hc : p.cashbackAmount > 0 <;> simp [hc, Sql.onAuditLogs]

theorem rejectionWrites_unaudited (p : Purchase) :
    ∀ s ∈ rejectionWrites p, ∀ rows, s.onAuditLogs rows = rows := by
  rw [rejectionWrites]
  by_cases hc : p.cashbackAmount > 0 <;> simp [hc, Sql.onAuditLogs]

theorem reversalWrites_unaudited (p : Purchase) :
    ∀ s ∈ reversalWrites p, ∀ rows, s.onAuditLogs rows = rows := by
  rw [reversalWrites]
  by_cases hp : p.status = .pending <;> simp [hp, Sql.onAuditLogs]

theorem settles_with_failing_step (o : Settlement) (d : Database) (n : Nat)
    (e : PurchaseException) : o.Settles d n e := by
  cases o with
  | reverse clock purchaseId adminId =>
    have hr := getById_flushes (d := d) purchaseId []
    rw [replay_nil] at hr
    cases h : d.purchases.find Purchase.id purchaseId with
    | none =>
      rw [h] at hr
      exact settles_of_refused hr ⟨_, rfl⟩ (bind_assoc _ _ _) (by simp [changes, h]) n e
    | some p =>
      rw [h] at hr
      by_cases hs : p.status = .reversed
      · refine settles_of_refused (o := .reverse clock purchaseId adminId) hr
          ⟨.purchaseAlreadyReversed purchaseId .reversed reversibleFromStatuses, ?_⟩
          (bind_assoc _ _ _) (by simp [changes, h, hs]) n e
        simp only [enforcePurchaseReversible, if_pos hs]
        rfl
      · obtain ⟨m, hm⟩ := reversal_flushes h hs
        have hlogs := replay_auditLogs (reversalWrites_unaudited p) d
        have hprog : (reverse clock purchaseId adminId).prog = reversal purchaseId >>= fun a =>
            commitTx >>= fun _ => (auditedBroker clock).publish (t := .purchaseReversed)
              ⟨purchaseId, a.1.userId, adminId, a.1.merchantId, a.1.amount, a.1.currency, a.2⟩ >>=
              fun _ => pure () := by
          change (reversePurchase (auditedBroker clock) purchaseId adminId >>= fun _ => pure ()) = _
          simp only [reversePurchase_eq, bind_assoc, pure_bind]
        have hchanges : (reverse clock purchaseId adminId).changes d =
            some (reversalWrites p, reversedLog clock adminId p) := by
          simp only [changes, h, Option.bind_some, if_neg hs]
        refine settles_of_flushes hm ?_ hprog hchanges hlogs n e
        rw [Core.Broker.publish_of_singleton _ (auditedBroker_reversed clock), reversedLog,
          id_of_find h]
        rfl
  | confirm clock p verifiedAt =>
    obtain ⟨s', m, h⟩ := settle_flushes (d := d)
      (t := fun q => .updateTransaction q.id .available)
      (w := fun q => .updateWallet q.userId (-q.cashbackAmount) q.cashbackAmount)
      (fun _ _ => ⟨_, rfl⟩) (fun _ _ => ⟨_, rfl⟩) (fun _ _ => ⟨rfl, rfl⟩) p .confirmed
    have hlogs := replay_auditLogs
      (fun s hs => confirmationWrites_unaudited (refreshed d p) s (mem_issued hs)) d
    refine settles_of_flushes h ?_ rfl rfl hlogs n e
    rw [Core.Broker.publish_of_singleton _ (auditedBroker_confirmed clock)]
    exact bind_pure_unit.symm
  | reject clock p reason failedAt =>
    obtain ⟨s', m, h⟩ := settle_flushes (d := d)
      (t := fun q => .updateTransaction q.id .reversed)
      (w := fun q => .updateWallet q.userId (-q.cashbackAmount) 0)
      (fun _ _ => ⟨_, rfl⟩) (fun _ _ => ⟨_, rfl⟩) (fun _ _ => ⟨rfl, rfl⟩) p .rejected
    have hlogs := replay_auditLogs
      (fun s hs => rejectionWrites_unaudited (refreshed d p) s (mem_issued hs)) d
    refine settles_of_flushes (o := .reject clock p reason failedAt) h ?_
      (rejectPurchase_eq (auditedBroker clock) p reason failedAt) rfl hlogs n e
    rw [Core.Broker.publish_of_singleton _ (auditedBroker_rejected clock)]
    exact bind_pure_unit.symm

/-- The audit row of a reversal that is refused leaves the reversal in place. -/
theorem unaudited_reversal_not_allOrNothing :
    ¬ AllOrNothing (.reverse 0 "p" "admin")
      (runSteps [.operation (.ingest "p" "t" 0 0 (oneRequest "x" 1000 (by decide)) "ana")]
        (noPurchases oneOffer noWallets 0)) 7 .operationalError := by
  intro h
  have hd := congrArg (fun d : Database =>
    (d.purchases.find Purchase.id "p").map Purchase.status) (h.1 .operationalError rfl)
  revert hd
  decide +kernel

end Settlement

end ClickNBack.Purchases
