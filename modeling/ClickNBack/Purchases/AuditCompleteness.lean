import ClickNBack.Purchases.Runs

namespace ClickNBack.Purchases

open Relational ReadCommitted Function

/-- What an audit row says happened: which purchase, what, and by whom. -/
structure AuditKey where
  resourceId : String
  action : Option AuditAction
  actorType : AuditActorType
  actorId : Option String
deriving DecidableEq

def AuditLog.key (row : AuditLog) : AuditKey :=
  ⟨row.resourceId, some row.action, row.actorType, row.actorId⟩

def recorded (d : Database) : Multiset AuditKey :=
  (d.auditLogs.filter fun row => row.resourceType = "purchase").map AuditLog.key

/-- The purchases whose status differs between two states of the database. -/
def changed (d d' : Database) : Multiset Purchase :=
  d.purchases.rows.filter fun p =>
    (d'.purchases.find Purchase.id p.id).map Purchase.status ≠ some p.status

def auditAction : Option PurchaseStatus → Option AuditAction
  | some .confirmed => some .purchaseConfirmed
  | some .rejected => some .purchaseRejected
  | some .reversed => some .purchaseReversed
  | some .pending | none => none

/-- Who acts: the admin of the request, or the system. -/
def Operation.actor : Operation → AuditActorType × Option String
  | .confirmManually _ _ adminId | .reverse _ _ adminId => (.admin, some adminId)
  | .ingest .. | .attempt .. | .forceReject .. => (.system, none)

def Operation.auditKey (o : Operation) (d' : Database) (p : Purchase) : AuditKey :=
  ⟨p.id, auditAction ((d'.purchases.find Purchase.id p.id).map Purchase.status), o.actor.1,
    o.actor.2⟩

def Step.calledFor (s : Step) (d : Database) : Multiset AuditKey :=
  match s with
  | .operation o => (changed d (o.exec d)).map (o.auditKey (o.exec d))
  | .administer _ => 0

/-- The rows that the committed changes of a run call for. -/
def calledFor : List Step → Database → Multiset AuditKey
  | [], _ => 0
  | s :: steps, d => s.calledFor d + calledFor steps (s.exec d)

def Step.ConfirmsManually (s : Step) (d : Database) : Prop :=
  ∃ now purchaseId adminId, s = .operation (.confirmManually now purchaseId adminId) ∧
    ∃ p, d.purchases.find Purchase.id purchaseId = some p ∧ p.status = .pending

theorem find_of_mem {t : PurchaseTable} {p : Purchase} (h : p ∈ t.rows) :
    t.find Purchase.id p.id = some p :=
  (t.find_eq_some (by simp)).mpr ⟨h, rfl⟩

theorem changed_eq_zero {d d' : Database}
    (h : ∀ p ∈ d.purchases.rows, p ∈ d'.purchases.rows) : changed d d' = 0 := by
  refine Multiset.filter_eq_nil.mpr fun p hp => ?_
  simp [find_of_mem (h p hp)]

theorem changed_update {d d' : Database} {p : Purchase} {u : PurchaseUpdate}
    (hp : p ∈ d.purchases.rows) (hd' : d'.purchases = PurchaseTable.update d.purchases p.id u)
    (hs : (u.on p).status ≠ p.status) : changed d d' = {p} := by
  obtain ⟨rest, hrows⟩ := Multiset.exists_cons_of_mem hp
  have hself : d'.purchases.find Purchase.id p.id = some (u.on p) := by
    rw [hd']
    exact find_update_self (find_of_mem hp) u
  have hrest : ∀ q ∈ rest, d'.purchases.find Purchase.id q.id = some q := by
    intro q hq
    have hne := d.purchases.key_ne (f := Purchase.id) (by simp) hrows q hq
    rw [hd', find_update, find_of_mem (hrows ▸ Multiset.mem_cons_of_mem hq), Option.map_some,
      if_neg hne]
  rw [changed]
  rw [hrows, Multiset.filter_cons_of_pos _ (by simp [hself, hs]), Multiset.filter_eq_nil.mpr]
  · rfl
  · intro q hq
    simp [hrest q hq]

theorem recorded_audited (writes : List Sql) (row : AuditLog) (d : Database)
    (hrow : row.resourceType = "purchase") :
    recorded (replay (writes ++ [.insertAuditLog row]) d) =
      row.key ::ₘ recorded (replay writes d) := by
  rw [replay_audited]
  simp [recorded, hrow]

theorem recorded_settled {d : Database} {o : Operation} {writes : List Sql} {p : Purchase}
    {u : PurchaseUpdate} {row : AuditLog}
    (hexec : o.exec d = replay (writes ++ [.insertAuditLog row]) d)
    (hp : p ∈ d.purchases.rows)
    (hwrites : (replay writes d).purchases = PurchaseTable.update d.purchases p.id u ∧
      (replay writes d).auditLogs = d.auditLogs)
    (hs : (u.on p).status ≠ p.status) (hresource : row.resourceType = "purchase")
    (hkey : row.key = ⟨p.id, auditAction (some (u.on p).status), o.actor.1, o.actor.2⟩) :
    recorded (o.exec d) = recorded d + (Step.operation o).calledFor d := by
  have hpurchases : (o.exec d).purchases = PurchaseTable.update d.purchases p.id u := by
    rw [hexec, replay_audited]
    exact hwrites.1
  have hfind : (o.exec d).purchases.find Purchase.id p.id = some (u.on p) := by
    rw [hpurchases]
    exact find_update_self (find_of_mem hp) u
  have hrecorded : recorded (replay writes d) = recorded d := by
    unfold recorded
    rw [hwrites.2]
  have hcalled : (Step.operation o).calledFor d = {row.key} := by
    simp only [Step.calledFor, changed_update hp hpurchases hs, Multiset.map_singleton,
      Operation.auditKey, hfind, Option.map_some, hkey]
  rw [hcalled, hexec, recorded_audited _ _ _ hresource, hrecorded, Multiset.add_comm,
    Multiset.singleton_add]

theorem confirmationWrites_purchases (p : Purchase) (d : Database) :
    (replay (confirmationWrites p) d).purchases =
        PurchaseTable.update d.purchases p.id (.status .confirmed) ∧
      (replay (confirmationWrites p) d).auditLogs = d.auditLogs := by
  rw [confirmationWrites]
  split <;> exact ⟨rfl, rfl⟩

theorem rejectionWrites_purchases (p : Purchase) (d : Database) :
    (replay (rejectionWrites p) d).purchases =
        PurchaseTable.update d.purchases p.id (.status .rejected) ∧
      (replay (rejectionWrites p) d).auditLogs = d.auditLogs := by
  rw [rejectionWrites]
  split <;> exact ⟨rfl, rfl⟩

theorem not_confirmsManually {o : Operation}
    (h : ∀ now purchaseId adminId, o ≠ .confirmManually now purchaseId adminId) (d : Database) :
    ¬ (Step.operation o).ConfirmsManually d := by
  rintro ⟨now, purchaseId, adminId, ho, -⟩
  cases ho
  exact h now purchaseId adminId rfl

/-- Every operation writes the rows that its change calls for, except a manual
confirmation, which writes none. -/
theorem recorded_exec (o : Operation) (d : Database) :
    (recorded (o.exec d) = recorded d + (Step.operation o).calledFor d ∧
      ¬ (Step.operation o).ConfirmsManually d) ∨
    (recorded (o.exec d) = recorded d ∧ (Step.operation o).calledFor d ≠ 0 ∧
      (Step.operation o).ConfirmsManually d) := by
  have heffect := o.effect d
  have hexec := o.exec_eq_replay d
  generalize hw : o.prog.committed d [] = writes at heffect hexec
  cases heffect with
  | idle =>
    have hcalled : (Step.operation o).calledFor d = 0 := by
      simp only [Step.calledFor, hexec, replay_nil, changed_eq_zero fun p hp => hp,
        Multiset.map_zero]
    refine Or.inl ⟨by rw [hcalled, hexec, replay_nil, Multiset.add_zero], ?_⟩
    rintro ⟨now, purchaseId, adminId, ho, p, hp, hs⟩
    cases ho
    rw [Operation.prog, Operation.committed_discard,
      confirmPurchaseManually_pending now adminId hp hs] at hw
    cases hw
  | @ingested _ transactionId _ _ _ _ row hrow =>
    have hcalled : changed d (replay (ingestionWrites transactionId row) d) = 0 := by
      refine changed_eq_zero fun p hp => ?_
      rw [replay_ingestionWrites]
      simp only [Table.put_rows_of_free _ hrow.purchase]
      exact Multiset.mem_cons_of_mem hp
    refine Or.inl ⟨?_, not_confirmsManually (by simp) d⟩
    simp only [Step.calledFor, hexec, hcalled, Multiset.map_zero, Multiset.add_zero]
    rw [replay_ingestionWrites]
    rfl
  | @confirmed verify now purchaseId number p hp hs =>
    refine Or.inl ⟨recorded_settled hexec (mem_of_find hp) (confirmationWrites_purchases p d)
      (by simp [PurchaseUpdate.on, hs]) rfl rfl, not_confirmsManually (by simp) d⟩
  | rejected reason hp hs =>
    refine Or.inl ⟨recorded_settled hexec (mem_of_find hp) (rejectionWrites_purchases _ d)
      (by simp [PurchaseUpdate.on, hs]) rfl rfl, not_confirmsManually (by simp) d⟩
  | exhausted hp hs =>
    refine Or.inl ⟨recorded_settled hexec (mem_of_find hp) (rejectionWrites_purchases _ d)
      (by simp [PurchaseUpdate.on, hs]) rfl rfl, not_confirmsManually (by simp) d⟩
  | confirmedManually hp hs =>
    have hmem := mem_of_find hp
    obtain ⟨hpurchases, hlogs⟩ := confirmationWrites_purchases _ d
    refine Or.inr ⟨?_, ?_, ⟨_, _, _, rfl, _, hp, hs⟩⟩
    · unfold recorded
      rw [hexec, hlogs]
    · rw [← hexec] at hpurchases
      simp only [Step.calledFor, changed_update hmem hpurchases (by simp [PurchaseUpdate.on, hs]),
        Multiset.map_singleton]
      exact Multiset.singleton_ne_zero _
  | reversed hp hs =>
    refine Or.inl ⟨recorded_settled (u := .reversed) hexec (mem_of_find hp)
      (by rw [replay_reversalWrites]; exact ⟨rfl, rfl⟩) (Ne.symm hs) rfl rfl,
      not_confirmsManually (by simp) d⟩

/-- What a run should have recorded, and the part of it that is missing. -/
theorem recorded_runSteps (steps : List Step) (d : Database) :
    ∃ missing, recorded (runSteps steps d) + missing = recorded d + calledFor steps d ∧
      (missing = 0 ↔ ∀ pre s, pre ++ [s] <+: steps → ¬ s.ConfirmsManually (runSteps pre d)) := by
  induction steps generalizing d with
  | nil =>
    refine ⟨0, rfl, fun _ pre s h => absurd (List.prefix_nil.mp h) (by simp), fun _ => rfl⟩
  | cons s steps ih =>
    obtain ⟨missing, hsum, hiff⟩ := ih (s.exec d)
    have hsplit : (∀ pre t, pre ++ [t] <+: s :: steps → ¬ t.ConfirmsManually (runSteps pre d)) ↔
        ¬ s.ConfirmsManually d ∧ ∀ pre t, pre ++ [t] <+: steps →
          ¬ t.ConfirmsManually (runSteps pre (s.exec d)) :=
      Transition.forall_prefix_cons (C := fun (t : Step) d => ¬ t.ConfirmsManually d)
    have hstep : ∃ m, recorded (s.exec d) + m = recorded d + s.calledFor d ∧
        (m = 0 ↔ ¬ s.ConfirmsManually d) := by
      cases s with
      | administer catalog =>
        exact ⟨0, rfl, fun _ ⟨_, _, _, h, _⟩ => (by cases h), fun _ => rfl⟩
      | operation o =>
        obtain ⟨h, hno⟩ | ⟨h, hne, hyes⟩ := recorded_exec o d
        · exact ⟨0, (Multiset.add_zero _).trans h, fun _ => hno, fun _ => rfl⟩
        · refine ⟨(Step.operation o).calledFor d, ?_, fun h0 => absurd h0 hne,
            fun hno => absurd hyes hno⟩
          change recorded (o.exec d) + _ = _
          rw [h]
    obtain ⟨m, hm, hmiff⟩ := hstep
    refine ⟨missing + m, ?_, ?_⟩
    · calc recorded (runSteps steps (s.exec d)) + (missing + m)
          = recorded (s.exec d) + calledFor steps (s.exec d) + m := by
            rw [← Multiset.add_assoc, hsum]
        _ = recorded (s.exec d) + m + calledFor steps (s.exec d) := by
            rw [add_right_comm]
        _ = recorded d + calledFor (s :: steps) d := by
            rw [hm, Multiset.add_assoc]
            rfl
    · rw [hsplit, ← hiff, ← hmiff, ← Multiset.card_eq_zero, Multiset.card_add,
        Nat.add_eq_zero_iff, Multiset.card_eq_zero, Multiset.card_eq_zero, and_comm]

/-- The audit trail of a run is complete exactly when no manual confirmation in
it goes through. -/
theorem audit_complete_iff (steps : List Step) (d : Database) :
    recorded (runSteps steps d) = recorded d + calledFor steps d ↔
      ∀ pre s, pre ++ [s] <+: steps → ¬ s.ConfirmsManually (runSteps pre d) := by
  obtain ⟨missing, hsum, hiff⟩ := recorded_runSteps steps d
  rw [← hiff]
  constructor
  · intro h
    rw [h] at hsum
    simpa using hsum
  · intro h
    simpa [h] using hsum

def manualConfirmation : List Step :=
  [.operation (.ingest "p" "t" 1 1
      (oneRequest "ext" 10000 hundredEuros_pos one_le_length_ext) "ana"),
    .operation (.confirmManually 2 "p" "root")]

theorem manualConfirmation_not_recorded :
    recorded (runSteps manualConfirmation (noPurchases oneOffer noWallets 0)) = 0 ∧
      calledFor manualConfirmation (noPurchases oneOffer noWallets 0) =
        {⟨"p", some .purchaseConfirmed, .admin, some "root"⟩} := by
  decide +kernel

end ClickNBack.Purchases
