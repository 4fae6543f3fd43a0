import ClickNBack.Purchases.Services

namespace ClickNBack.Purchases

open Relational ReadCommitted Prog Function

def confirmationWrites (p : Purchase) : List Sql :=
  .updatePurchase p.id (.status .confirmed) ::
    if p.cashbackAmount > 0 then
      [.updateTransaction p.id .available,
        .updateWallet p.userId (-p.cashbackAmount) p.cashbackAmount]
    else []

def rejectionWrites (p : Purchase) : List Sql :=
  .updatePurchase p.id (.status .rejected) ::
    if p.cashbackAmount > 0 then
      [.updateTransaction p.id .reversed, .updateWallet p.userId (-p.cashbackAmount) 0]
    else []

def reversalWrites (p : Purchase) : List Sql :=
  [.updateTransaction p.id .reversed,
    if p.status = .pending then .updateWallet p.userId (-p.cashbackAmount) 0
    else .updateWallet p.userId 0 (-p.cashbackAmount),
    .updatePurchase p.id .reversed]

def newTransaction (transactionId : String) (p : Purchase) : CashbackTransaction :=
  ⟨transactionId, p.userId, p.id, p.cashbackAmount, .pending, p.createdAt⟩

def ingestionWrites (transactionId : String) (p : Purchase) : List Sql :=
  [.insertPurchase p, .insertTransaction (newTransaction transactionId p),
    .upsertWallet p.userId p.cashbackAmount]

section

variable {p : Purchase} (d : Database)

theorem replay_confirmationWrites (hc : 0 ≤ p.cashbackAmount) :
    replay (confirmationWrites p) d = { d with
      purchases := PurchaseTable.update d.purchases p.id (.status .confirmed)
      transactions := if p.cashbackAmount > 0 then
        TransactionTable.update d.transactions p.id .available else d.transactions
      wallets := update d.wallets p.userId
        ((d.wallets p.userId).map (·.add (-p.cashbackAmount) p.cashbackAmount)) } := by
  by_cases h : p.cashbackAmount > 0
  · simp [confirmationWrites, h]
  · have h0 : p.cashbackAmount = 0 := by omega
    simp [confirmationWrites, h0, update_add_zero]

theorem replay_rejectionWrites (hc : 0 ≤ p.cashbackAmount) :
    replay (rejectionWrites p) d = { d with
      purchases := PurchaseTable.update d.purchases p.id (.status .rejected)
      transactions := if p.cashbackAmount > 0 then
        TransactionTable.update d.transactions p.id .reversed else d.transactions
      wallets := update d.wallets p.userId
        ((d.wallets p.userId).map (·.add (-p.cashbackAmount) 0)) } := by
  by_cases h : p.cashbackAmount > 0
  · simp [rejectionWrites, h]
  · have h0 : p.cashbackAmount = 0 := by omega
    simp [rejectionWrites, h0, update_add_zero]

theorem replay_reversalWrites :
    replay (reversalWrites p) d = { d with
      purchases := PurchaseTable.update d.purchases p.id .reversed
      transactions := TransactionTable.update d.transactions p.id .reversed
      wallets := update d.wallets p.userId ((d.wallets p.userId).map
        (·.add (if p.status = .pending then -p.cashbackAmount else 0)
          (if p.status = .pending then 0 else -p.cashbackAmount))) } := by
  by_cases h : p.status = .pending <;> simp [reversalWrites, h]

theorem replay_ingestionWrites (transactionId : String) :
    replay (ingestionWrites transactionId p) d = { d with
      purchases := d.purchases.put p
      transactions := d.transactions.put (newTransaction transactionId p)
      wallets := update d.wallets p.userId
        (some (credit p.cashbackAmount (d.wallets p.userId))) } := by
  simp [ingestionWrites]

theorem replay_audited (writes : List Sql) (row : AuditLog) :
    replay (writes ++ [.insertAuditLog row]) d =
      { replay writes d with auditLogs := row ::ₘ (replay writes d).auditLogs } := by
  rw [replay_append, replay_cons, replay_nil, apply_insertAuditLog]

end

def confirmedLog (now : Nat) (p : Purchase) : AuditLog :=
  ⟨now, .system, none, .purchaseConfirmed, "purchase", p.id, .success,
    [("merchant_id", .text p.merchantId), ("amount", .decimal p.amount),
      ("currency", .text p.currency), ("cashback_amount", .decimal p.cashbackAmount)]⟩

def rejectedLog (now : Nat) (reason : String) (p : Purchase) : AuditLog :=
  ⟨now, .system, none, .purchaseRejected, "purchase", p.id, .success,
    [("merchant_id", .text p.merchantId), ("amount", .decimal p.amount),
      ("currency", .text p.currency), ("reason", .text reason)]⟩

def reversedLog (now : Nat) (adminId : String) (p : Purchase) : AuditLog :=
  ⟨now, .admin, some adminId, .purchaseReversed, "purchase", p.id, .success,
    [("prior_status", .status p.status)]⟩

theorem getById_eq (purchaseId : String) :
    PurchaseRepository.getById purchaseId =
      query fun d => d.purchases.find Purchase.id purchaseId :=
  selectOne_eq_query _ Database.purchases (by simp) purchaseId

/-- What `update_status` and `reverse_purchase` of the repository have in common: the
row is read, updated and refreshed. -/
def updateReturning (id : String) (u : PurchaseUpdate) : Coroutine (Option Purchase) := do
  match ← PurchaseRepository.getById id with
  | none => return none
  | some _ =>
    execute (.updatePurchase id u)
    PurchaseRepository.getById id

theorem updateStatus_eq (id : String) (s : PurchaseStatus) :
    PurchaseRepository.updateStatus id s = updateReturning id (.status s) := rfl

theorem PurchaseRepository.reversePurchase_eq (id : String) :
    PurchaseRepository.reversePurchase id = updateReturning id .reversed := rfl

theorem getByExternalId_eq (externalId : String) :
    PurchaseRepository.getByExternalId externalId =
      query fun d => d.purchases.find Purchase.externalId externalId :=
  selectOne_eq_query _ Database.purchases (by simp) externalId

theorem getUserById_eq (userId : String) :
    UsersClient.getUserById userId = query fun d => d.catalog.users.find User.id userId :=
  selectOne_eq_query _ (fun d : Database => d.catalog.users) (by simp) userId

theorem getMerchantById_eq (merchantId : String) :
    MerchantsClient.getMerchantById merchantId =
      query fun d => d.catalog.merchants.find Offers.Merchant.id merchantId :=
  selectOne_eq_query _ (fun d : Database => d.catalog.merchants) (by simp) merchantId

theorem find_update (t : PurchaseTable) (id id' : String) (u : PurchaseUpdate) :
    (PurchaseTable.update t id u).find Purchase.id id' =
      (t.find Purchase.id id').map fun p => if p.id = id then u.on p else p :=
  t.find_modify u.keeps (by simp) id'

theorem id_of_find {t : PurchaseTable} {id : String} {p : Purchase}
    (h : t.find Purchase.id id = some p) : p.id = id :=
  ((t.find_eq_some (by simp)).mp h).2

theorem mem_of_find {t : PurchaseTable} {id : String} {p : Purchase}
    (h : t.find Purchase.id id = some p) : p ∈ t.rows :=
  ((t.find_eq_some (by simp)).mp h).1

theorem find_update_self {t : PurchaseTable} {id : String} {p : Purchase}
    (h : t.find Purchase.id id = some p) (u : PurchaseUpdate) :
    (PurchaseTable.update t id u).find Purchase.id id = some (u.on p) := by
  rw [find_update, h, Option.map_some, if_pos (id_of_find h)]

section

variable {β : Type} {d : Database} {log : List Sql} {p : Purchase}

theorem getById_committed_bind (id : String) (f : Option Purchase → Coroutine β) :
    (PurchaseRepository.getById id >>= f).committed d log =
      (f ((replay log d).purchases.find Purchase.id id)).committed d log := by
  rw [getById_eq, committed_query_bind]

theorem updateReturning_committed_bind {id : String}
    (h : (replay log d).purchases.find Purchase.id id = some p) (u : PurchaseUpdate)
    (f : Option Purchase → Coroutine β) :
    (updateReturning id u >>= f).committed d log =
      (f (some (u.on p))).committed d (log ++ [.updatePurchase id u]) := by
  have hview : (replay (log ++ [Sql.updatePurchase id u]) d).purchases.find Purchase.id id =
      some (u.on p) := by
    rw [replay_append]
    exact find_update_self h u
  rw [updateReturning]
  rw [bind_assoc, getById_committed_bind, h]
  change ((execute _ >>= fun _ => PurchaseRepository.getById id) >>= f).committed d log = _
  rw [bind_assoc, committed_write_bind d rfl, getById_committed_bind, hview]

theorem updateStatus_committed_bind {id : String}
    (h : (replay log d).purchases.find Purchase.id id = some p) (s : PurchaseStatus)
    (f : Option Purchase → Coroutine β) :
    (PurchaseRepository.updateStatus id s >>= f).committed d log =
      (f (some { p with status := s })).committed d
        (log ++ [.updatePurchase id (.status s)]) := by
  rw [updateStatus_eq]
  exact updateReturning_committed_bind h (.status s) f

theorem reversePurchase_committed_bind {id : String}
    (h : (replay log d).purchases.find Purchase.id id = some p)
    (f : Option Purchase → Coroutine β) :
    (PurchaseRepository.reversePurchase id >>= f).committed d log =
      (f (some { p with status := .reversed, cashbackAmount := 0 })).committed d
        (log ++ [.updatePurchase id .reversed]) := by
  rw [PurchaseRepository.reversePurchase_eq]
  exact updateReturning_committed_bind h .reversed f

theorem applyPurchaseConfirmation_committed_bind
    (h : (replay log d).purchases.find Purchase.id p.id = some p) (f : Purchase → Coroutine β) :
    (applyPurchaseConfirmation p >>= f).committed d log =
      (f { p with status := .confirmed }).committed d (log ++ confirmationWrites p) := by
  rw [applyPurchaseConfirmation, confirmationWrites]
  rw [bind_assoc, updateStatus_committed_bind h]
  simp only [Option.getD_some]
  by_cases hc : p.cashbackAmount > 0
  · simp only [if_pos hc, bind_assoc, pure_bind, CashbackClient.confirm,
      WalletsClient.confirmPending]
    rw [committed_write_bind d rfl, committed_write_bind d rfl]
    simp
  · simp [if_neg hc]

theorem add_committed_bind (auditLog : AuditLog) {f : Unit → Coroutine β}
    (hf : ∀ d, (f ()).committed d [] = []) :
    (AuditTrailRepository.add auditLog >>= f).committed d [] = [.insertAuditLog auditLog] := by
  rw [AuditTrailRepository.add]
  rw [bind_assoc, committed_write_bind d rfl, committed_commitTx_bind, hf]
  rfl

theorem publish_confirmed_committed_bind (now : Nat) (event : PurchaseConfirmed)
    {f : Unit → Coroutine β} (hf : ∀ d, (f ()).committed d [] = []) :
    ((auditedBroker now).publish (t := .purchaseConfirmed) event >>= f).committed d [] =
      [.insertAuditLog ⟨now, .system, none, .purchaseConfirmed, "purchase", event.purchaseId,
        .success, [("merchant_id", .text event.merchantId), ("amount", .decimal event.amount),
          ("currency", .text event.currency),
          ("cashback_amount", .decimal event.cashbackAmount)]⟩] := by
  rw [Core.Broker.publish_of_singleton _ (auditedBroker_confirmed now)]
  exact add_committed_bind _ hf

theorem publish_rejected_committed_bind (now : Nat) (event : PurchaseRejected)
    {f : Unit → Coroutine β} (hf : ∀ d, (f ()).committed d [] = []) :
    ((auditedBroker now).publish (t := .purchaseRejected) event >>= f).committed d [] =
      [.insertAuditLog ⟨now, .system, none, .purchaseRejected, "purchase", event.purchaseId,
        .success, [("merchant_id", .text event.merchantId), ("amount", .decimal event.amount),
          ("currency", .text event.currency), ("reason", .text event.reason)]⟩] := by
  rw [Core.Broker.publish_of_singleton _ (auditedBroker_rejected now)]
  exact add_committed_bind _ hf

theorem publish_reversed_committed_bind (now : Nat) (event : PurchaseReversed)
    {f : Unit → Coroutine β} (hf : ∀ d, (f ()).committed d [] = []) :
    ((auditedBroker now).publish (t := .purchaseReversed) event >>= f).committed d [] =
      [.insertAuditLog ⟨now, .admin, some event.adminId, .purchaseReversed, "purchase",
        event.purchaseId, .success, [("prior_status", .status event.priorStatus)]⟩] := by
  rw [Core.Broker.publish_of_singleton _ (auditedBroker_reversed now)]
  exact add_committed_bind _ hf

theorem confirmPurchase_committed_bind
    (h : (replay log d).purchases.find Purchase.id p.id = some p) (now : Nat)
    {f : Unit → Coroutine β} (hf : ∀ d, (f ()).committed d [] = []) :
    (confirmPurchase (auditedBroker now) p now >>= f).committed d log =
      log ++ confirmationWrites p ++ [.insertAuditLog (confirmedLog now p)] := by
  rw [confirmPurchase]
  rw [bind_assoc, applyPurchaseConfirmation_committed_bind h, bind_assoc, committed_commitTx_bind,
    publish_confirmed_committed_bind now _ hf]
  rfl

theorem rejectPurchase_committed_bind
    (h : (replay log d).purchases.find Purchase.id p.id = some p) (reason : String) (now : Nat)
    {f : Unit → Coroutine β} (hf : ∀ d, (f ()).committed d [] = []) :
    (rejectPurchase (auditedBroker now) p reason now >>= f).committed d log =
      log ++ rejectionWrites p ++ [.insertAuditLog (rejectedLog now reason p)] := by
  rw [rejectPurchase, rejectionWrites]
  rw [bind_assoc, updateStatus_committed_bind h]
  simp only [Option.getD_some]
  by_cases hc : p.cashbackAmount > 0
  · simp only [if_pos hc, bind_assoc, CashbackClient.reverse, WalletsClient.reversePending]
    rw [committed_write_bind d rfl, committed_write_bind d rfl, committed_commitTx_bind,
      publish_rejected_committed_bind now _ hf]
    simp [rejectedLog]
  · simp only [if_neg hc, bind_assoc]
    rw [committed_commitTx_bind, publish_rejected_committed_bind now _ hf]
    simp [rejectedLog]

end

section

variable {d : Database} {p : Purchase} {purchaseId : String}

theorem verificationAttempt_idle (verify : Purchase → Nat → VerificationResult) (now attempt : Nat)
    (h : ∀ p, d.purchases.find Purchase.id purchaseId = some p → p.status ≠ .pending) :
    (verificationAttempt (auditedBroker now) verify now purchaseId attempt).committed d [] =
      [] := by
  rw [verificationAttempt]
  rw [getById_committed_bind, replay_nil]
  cases hp : d.purchases.find Purchase.id purchaseId with
  | none => rfl
  | some p =>
    simp only [if_pos (h p hp)]
    rfl

theorem verificationAttempt_pending (verify : Purchase → Nat → VerificationResult)
    (now attempt : Nat) (h : d.purchases.find Purchase.id purchaseId = some p)
    (hs : p.status = .pending) :
    (verificationAttempt (auditedBroker now) verify now purchaseId attempt).committed d [] =
      match (verify p attempt).disposition with
      | .confirmed => confirmationWrites p ++ [.insertAuditLog (confirmedLog now p)]
      | .rejected => rejectionWrites p ++
          [.insertAuditLog (rejectedLog now (declineReason (verify p attempt).reason) p)]
      | .pending => [] := by
  have hid := id_of_find h
  rw [verificationAttempt]
  rw [getById_committed_bind, replay_nil, h]
  simp only [hs, ne_eq, not_true_eq_false, if_false]
  cases hd : (verify p attempt).disposition with
  | confirmed =>
    rw [confirmPurchase_committed_bind (by simpa [hid] using h) now fun _ => rfl]
    rfl
  | rejected =>
    rw [rejectPurchase_committed_bind (by simpa [hid] using h) _ now fun _ => rfl]
    rfl
  | pending => rfl

theorem forceReject_idle (now : Nat) (maxAttempts : Int)
    (h : ∀ p, d.purchases.find Purchase.id purchaseId = some p → p.status ≠ .pending) :
    (forceReject (auditedBroker now) now purchaseId maxAttempts).committed d [] = [] := by
  rw [forceReject]
  rw [getById_committed_bind, replay_nil]
  cases hp : d.purchases.find Purchase.id purchaseId with
  | none => rfl
  | some p =>
    simp only [if_neg (h p hp)]
    rfl

theorem forceReject_pending (now : Nat) (maxAttempts : Int)
    (h : d.purchases.find Purchase.id purchaseId = some p) (hs : p.status = .pending) :
    (forceReject (auditedBroker now) now purchaseId maxAttempts).committed d [] =
      rejectionWrites p ++
        [.insertAuditLog (rejectedLog now (exhaustedReason maxAttempts) p)] := by
  have hid := id_of_find h
  rw [forceReject]
  rw [getById_committed_bind, replay_nil, h]
  simp only [if_pos hs]
  rw [← bind_pure closeSession, rejectPurchase_committed_bind (by simpa [hid] using h) _ now
    fun _ => rfl]
  rfl

theorem confirmPurchaseManually_idle (now : Nat) (adminId : String)
    (h : ∀ p, d.purchases.find Purchase.id purchaseId = some p → p.status ≠ .pending) :
    (confirmPurchaseManually (auditedBroker now) now purchaseId adminId).committed d [] = [] := by
  rw [confirmPurchaseManually]
  rw [getById_committed_bind, replay_nil]
  cases hp : d.purchases.find Purchase.id purchaseId with
  | none => rfl
  | some p =>
    simp only [enforcePurchasePending, if_pos (h p hp)]
    rfl

theorem confirmPurchaseManually_pending (now : Nat) (adminId : String)
    (h : d.purchases.find Purchase.id purchaseId = some p) (hs : p.status = .pending) :
    (confirmPurchaseManually (auditedBroker now) now purchaseId adminId).committed d [] =
      confirmationWrites p := by
  have hid := id_of_find h
  rw [confirmPurchaseManually]
  rw [getById_committed_bind, replay_nil, h]
  simp only [enforcePurchasePending, hs, ne_eq, not_true_eq_false, if_false, lift_ok, pure_bind]
  rw [applyPurchaseConfirmation_committed_bind (by simpa [hid] using h), committed_commitTx_bind,
    Core.Broker.publish_of_nil _ (auditedBroker_confirmedByAdmin now), pure_bind]
  simp

theorem reversePurchase_idle (now : Nat) (adminId : String)
    (h : ∀ p, d.purchases.find Purchase.id purchaseId = some p → p.status = .reversed) :
    (reversePurchase (auditedBroker now) purchaseId adminId).committed d [] = [] := by
  rw [reversePurchase]
  rw [getById_committed_bind, replay_nil]
  cases hp : d.purchases.find Purchase.id purchaseId with
  | none => rfl
  | some p =>
    simp only [enforcePurchaseReversible, if_pos (h p hp)]
    rfl

/-- A reversal goes through from every status but 'reversed', a rejection included. -/
theorem reversePurchase_settled (now : Nat) (adminId : String)
    (h : d.purchases.find Purchase.id purchaseId = some p) (hs : p.status ≠ .reversed) :
    (reversePurchase (auditedBroker now) purchaseId adminId).committed d [] =
      reversalWrites p ++ [.insertAuditLog (reversedLog now adminId p)] := by
  have hid := id_of_find h
  rw [reversePurchase]
  rw [getById_committed_bind, replay_nil, h]
  simp only [enforcePurchaseReversible, if_neg hs, lift_ok, pure_bind, CashbackClient.reverse]
  rw [committed_write_bind d rfl]
  by_cases hp : p.status = .pending
  · simp only [if_pos hp, WalletsClient.reversePending]
    rw [committed_write_bind d rfl, reversePurchase_committed_bind (p := p) (by simpa using h),
      committed_commitTx_bind,
      publish_reversed_committed_bind now _ fun _ => rfl]
    simp [reversalWrites, reversedLog, hp, hid]
  · simp only [if_neg hp, WalletsClient.reverseAvailable]
    rw [committed_write_bind d rfl, reversePurchase_committed_bind (p := p) (by simpa using h),
      committed_commitTx_bind,
      publish_reversed_committed_bind now _ fun _ => rfl]
    simp [reversalWrites, reversedLog, hp, hid]

/-- The row that a request adds to the database `d`: the cashback is that of an
available offer, and the keys of its rows are new. -/
structure Ingests (d : Database) (purchaseId transactionId : String) (today now : Nat)
    (data : PurchaseCreate) (row : Purchase) : Prop where
  offer : ∃ o ∈ d.catalog.offers.rows, o.isAvailable data.merchantId today ∧
    ∃ c, calculate o.id o.percentage o.fixedAmount data.amount = .ok c ∧
      row = newPurchase purchaseId now data o.id c.cashbackAmount
  purchase : d.purchases.Free row
  transaction : d.transactions.Free (newTransaction transactionId row)

/-- A request commits nothing, or the writes of one new row. -/
def IngestionOutcome (d : Database) (purchaseId transactionId : String) (today now : Nat)
    (data : PurchaseCreate) (writes : List Sql) : Prop :=
  writes = [] ∨ ∃ row, Ingests d purchaseId transactionId today now data row ∧
    writes = ingestionWrites transactionId row

theorem addPurchase_committed_bind {β : Type} {P : List Sql → Prop} {d : Database} {log : List Sql}
    {row : Purchase} {f : Purchase → Coroutine β} (hnil : P [])
    (hok : (replay log d).purchases.Free row →
      P ((f row).committed d (log ++ [.insertPurchase row]))) :
    P ((PurchaseRepository.addPurchase row >>= f).committed d log) := by
  rw [PurchaseRepository.addPurchase]
  rw [bind_assoc]
  refine committed_execute_bind hnil fun d' hd => ?_
  have hfree := (exec_insertPurchase_iff _ row).mp ⟨d', hd⟩
  have hview : (replay (log ++ [Sql.insertPurchase row]) d).purchases.find Purchase.id row.id =
      some row := by
    rw [replay_append, replay_cons, replay_nil, apply_insertPurchase]
    exact Table.find_put_self _ hfree (by simp)
  rw [bind_assoc, getById_committed_bind, hview]
  exact hok hfree

theorem ingestPurchase_committed (d : Database) (purchaseId transactionId : String)
    (today now : Nat) (data : PurchaseCreate) (currentUserId : String) :
    IngestionOutcome d purchaseId transactionId today now data
      ((ingestPurchase purchaseId transactionId today now data currentUserId).committed d []) := by
  have hnil : IngestionOutcome d purchaseId transactionId today now data [] := Or.inl rfl
  rw [ingestPurchase]
  refine committed_lift_bind hnil fun _ _ => ?_
  refine committed_selectOne_bind hnil fun _ => ?_
  refine committed_lift_bind hnil fun _ _ => ?_
  refine committed_lift_bind hnil fun _ _ => ?_
  refine committed_selectOne_bind hnil fun _ => ?_
  refine committed_lift_bind hnil fun _ _ => ?_
  refine committed_selectOne_bind hnil fun _ => ?_
  refine committed_lift_bind hnil fun _ _ => ?_
  rw [OffersClient.getActiveOfferForMerchant]
  rw [bind_assoc, committed_query_bind]
  refine committed_lift_bind hnil fun available havailable => ?_
  refine committed_lift_bind hnil fun offer hoffer => ?_
  refine committed_lift_bind hnil fun cashback hcashback => ?_
  refine addPurchase_committed_bind hnil fun hpurchase => ?_
  rw [CashbackClient.create]
  refine committed_execute_bind hnil fun d' hd => ?_
  have htransaction := (exec_insertTransaction_iff _ _).mp ⟨d', hd⟩
  rw [List.nil_append, replay_cons, replay_nil, apply_insertPurchase] at htransaction
  rw [WalletsClient.creditPending]
  rw [committed_write_bind d rfl, committed_commitTx_bind]
  cases available with
  | none => cases hoffer
  | some o =>
    cases hoffer
    obtain ⟨ho, ha⟩ := Offers.getActiveOfferForMerchant_some havailable
    exact Or.inr ⟨_, ⟨⟨offer, ho, ha, cashback, hcashback, rfl⟩, hpurchase, htransaction⟩, rfl⟩

end

end ClickNBack.Purchases
