import ClickNBack.Purchases.Runs

namespace ClickNBack.Purchases

open Relational ReadCommitted Function

/-- The status of the cashback transaction of a purchase: settling a purchase
whose cashback is zero leaves its transaction alone, reversing it does not. -/
def transactionStatus (s : PurchaseStatus) (amount : Int) : CashbackTransactionStatus :=
  match s with
  | .pending => .pending
  | .confirmed => if amount = 0 then .pending else .available
  | .rejected => if amount = 0 then .pending else .reversed
  | .reversed => .reversed

structure Paired (d : Database) (p : Purchase) (t : CashbackTransaction) : Prop where
  mem : t ∈ d.transactions.rows
  purchase : t.purchaseId = p.id
  user : t.userId = p.userId
  amount : p.status ≠ .reversed → p.cashbackAmount = t.amount
  nonneg : 0 ≤ t.amount
  status : t.status = transactionStatus p.status t.amount

/-- Every purchase has its transaction, whose amount meets `A`. -/
def InLockStep (A : String → Int → Prop) (d : Database) : Prop :=
  ∀ p ∈ d.purchases.rows, ∃ t, Paired d p t ∧ A p.id t.amount

variable {A : String → Int → Prop} {d d' : Database}

theorem InLockStep.mono {A' : String → Int → Prop} (h : InLockStep A d)
    (hA : ∀ id amount, A id amount → A' id amount) : InLockStep A' d := by
  intro p hp
  obtain ⟨t, ht, hAt⟩ := h p hp
  exact ⟨t, ht, hA _ _ hAt⟩

theorem InLockStep.congr (h : InLockStep A d) (hp : d'.purchases = d.purchases)
    (ht : d'.transactions = d.transactions) : InLockStep A d' := by
  intro p hmem
  rw [hp] at hmem
  obtain ⟨t, hpair, hA⟩ := h p hmem
  exact ⟨t, ⟨ht ▸ hpair.mem, hpair.purchase, hpair.user, hpair.amount, hpair.nonneg,
    hpair.status⟩, hA⟩

/-- One purchase changes, and its transaction changes with it or stays. -/
theorem InLockStep.settle (h : InLockStep A d) {p : Purchase} {u : PurchaseUpdate}
    {s : CashbackTransactionStatus} (moves : Bool) (hp : p ∈ d.purchases.rows)
    (hpurchases : d'.purchases = PurchaseTable.update d.purchases p.id u)
    (htransactions : d'.transactions =
      if moves then TransactionTable.update d.transactions p.id s else d.transactions)
    (hamount : (u.on p).status ≠ .reversed →
      p.status ≠ .reversed ∧ (u.on p).cashbackAmount = p.cashbackAmount)
    (hstatus : ∀ t, Paired d p t → transactionStatus (u.on p).status t.amount =
      if moves then s else transactionStatus p.status t.amount) :
    InLockStep A d' := by
  obtain ⟨rest, hrows⟩ := Multiset.exists_cons_of_mem hp
  have hrows' : d'.purchases.rows = u.on p ::ₘ rest := by
    rw [hpurchases]
    exact Table.modify_rows_of_cons _ u.keeps (by simp) hrows rfl
  have hon : (u.on p).id = p.id ∧ (u.on p).userId = p.userId := by
    cases u <;> exact ⟨rfl, rfl⟩
  have hmem : ∀ t ∈ d.transactions.rows,
      (if moves ∧ t.purchaseId = p.id then t.withStatus s else t) ∈ d'.transactions.rows := by
    intro t ht
    rw [htransactions]
    cases moves with
    | false => simpa using ht
    | true =>
      simp only [true_and, if_true]
      exact Multiset.mem_map_of_mem _ ht
  intro q hq
  rw [hrows', Multiset.mem_cons] at hq
  obtain rfl | hq := hq
  · obtain ⟨t, ht, hA⟩ := h p hp
    have htmem := hmem t ht.mem
    have hst := hstatus t ht
    simp only [ht.purchase, and_true] at htmem
    refine ⟨_, ⟨htmem, ?_, ?_, ?_, ?_, ?_⟩, ?_⟩
    · rw [hon.1]
      split <;> exact ht.purchase
    · rw [hon.2]
      split <;> exact ht.user
    · intro hne
      rw [(hamount hne).2, ht.amount (hamount hne).1]
      split <;> rfl
    · split <;> exact ht.nonneg
    · cases moves with
      | false => simpa [hst] using ht.status
      | true => simpa [CashbackTransaction.withStatus] using hst.symm
    · rw [hon.1]
      split <;> exact hA
  · have hqmem : q ∈ d.purchases.rows := hrows ▸ Multiset.mem_cons_of_mem hq
    have hne := d.purchases.key_ne (f := Purchase.id) (by simp) hrows q hq
    obtain ⟨t, ht, hA⟩ := h q hqmem
    have htmem := hmem t ht.mem
    rw [if_neg fun hc => hne (ht.purchase.symm.trans hc.2)] at htmem
    exact ⟨t, ⟨htmem, ht.purchase, ht.user, ht.amount, ht.nonneg, ht.status⟩, hA⟩

theorem InLockStep.nonneg (h : InLockStep A d) {p : Purchase} (hp : p ∈ d.purchases.rows)
    (hs : p.status ≠ .reversed) : 0 ≤ p.cashbackAmount := by
  obtain ⟨t, ht, -⟩ := h p hp
  exact ht.amount hs ▸ ht.nonneg

theorem InLockStep.decided (h : InLockStep A d) {p : Purchase} {status : PurchaseStatus}
    {s : CashbackTransactionStatus} (hp : p ∈ d.purchases.rows) (hs : p.status = .pending)
    (hpurchases : d'.purchases = PurchaseTable.update d.purchases p.id (.status status))
    (htransactions : d'.transactions = if p.cashbackAmount > 0 then
      TransactionTable.update d.transactions p.id s else d.transactions)
    (hstatus : ∀ amount, transactionStatus status amount =
      if amount = 0 then .pending else s) : InLockStep A d' := by
  have hne : p.status ≠ .reversed := by simp [hs]
  refine h.settle (u := .status status) (s := s) (decide (p.cashbackAmount > 0)) hp hpurchases
    (by simp [htransactions]) (fun _ => ⟨hne, rfl⟩) ?_
  intro t ht
  have hamount := ht.amount hne
  have hbefore : transactionStatus p.status t.amount = .pending := by rw [hs]; rfl
  have hafter : transactionStatus ((PurchaseUpdate.status status).on p).status t.amount = _ :=
    hstatus t.amount
  rw [hbefore, hafter, hamount]
  by_cases h0 : t.amount = 0
  · simp [h0]
  · have hpos : 0 < t.amount := lt_of_le_of_ne ht.nonneg (Ne.symm h0)
    simp [h0, hpos]

theorem InLockStep.confirmed (h : InLockStep A d) {p : Purchase} (hp : p ∈ d.purchases.rows)
    (hs : p.status = .pending) : InLockStep A (replay (confirmationWrites p) d) := by
  have hc := h.nonneg hp (by simp [hs])
  rw [replay_confirmationWrites d hc]
  exact h.decided hp hs rfl rfl fun _ => rfl

theorem InLockStep.rejected (h : InLockStep A d) {p : Purchase} (hp : p ∈ d.purchases.rows)
    (hs : p.status = .pending) : InLockStep A (replay (rejectionWrites p) d) := by
  have hc := h.nonneg hp (by simp [hs])
  rw [replay_rejectionWrites d hc]
  exact h.decided hp hs rfl rfl fun _ => rfl

theorem InLockStep.reversed (h : InLockStep A d) {p : Purchase} (hp : p ∈ d.purchases.rows) :
    InLockStep A (replay (reversalWrites p) d) := by
  rw [replay_reversalWrites]
  exact h.settle (u := .reversed) (s := .reversed) true hp rfl rfl
    (fun hne => absurd rfl hne) fun t _ => rfl

theorem InLockStep.ingested (h : InLockStep A d) {transactionId : String} {p : Purchase}
    (hfree : d.purchases.Free p)
    (htransaction : d.transactions.Free (newTransaction transactionId p))
    (hs : p.status = .pending) (hc : 0 ≤ p.cashbackAmount) (hA : A p.id p.cashbackAmount) :
    InLockStep A (replay (ingestionWrites transactionId p) d) := by
  rw [replay_ingestionWrites]
  intro q hq
  have hrows := Table.put_rows_of_free _ hfree
  have htrows := Table.put_rows_of_free _ htransaction
  rw [hrows, Multiset.mem_cons] at hq
  obtain rfl | hq := hq
  · refine ⟨newTransaction transactionId q, ⟨?_, rfl, rfl, fun _ => rfl, hc, ?_⟩, hA⟩
    · rw [htrows]
      exact Multiset.mem_cons_self _ _
    · rw [hs]
      rfl
  · obtain ⟨t, ht, hAt⟩ := h q hq
    refine ⟨t, ⟨?_, ht.purchase, ht.user, ht.amount, ht.nonneg, ht.status⟩, hAt⟩
    rw [htrows]
    exact Multiset.mem_cons_of_mem ht.mem

theorem InLockStep.audited {writes : List Sql} (h : InLockStep A (replay writes d))
    (row : AuditLog) : InLockStep A (replay (writes ++ [.insertAuditLog row]) d) := by
  rw [replay_audited]
  exact h.congr rfl rfl

/-- The amount that was computed when a step of the run ingested the purchase. -/
def ComputedAtIngestion (d₀ : Database) (steps : List Step) (purchaseId : String) (amount : Int) :
    Prop :=
  ∃ pre transactionId today now data currentUserId row,
    pre ++ [.operation (.ingest purchaseId transactionId today now data currentUserId)] <+: steps ∧
    Ingests (runSteps pre d₀) purchaseId transactionId today now data row ∧
    row ∈ (runSteps (pre ++ [.operation
      (.ingest purchaseId transactionId today now data currentUserId)]) d₀).purchases.rows ∧
    row.cashbackAmount = amount

theorem ComputedAtIngestion.mono {d₀ : Database} {steps steps' : List Step} {purchaseId : String}
    {amount : Int} (h : ComputedAtIngestion d₀ steps purchaseId amount) (hs : steps <+: steps') :
    ComputedAtIngestion d₀ steps' purchaseId amount := by
  obtain ⟨pre, transactionId, today, now, data, currentUserId, row, hpre, hrest⟩ := h
  exact ⟨pre, transactionId, today, now, data, currentUserId, row, hpre.trans hs, hrest⟩

theorem inLockStep_runSteps (catalog : Catalog) (wallets : String → Option Wallet)
    (auditLogs : Multiset AuditLog) (steps : List Step) :
    InLockStep (ComputedAtIngestion (noPurchases catalog wallets auditLogs) steps)
      (runSteps steps (noPurchases catalog wallets auditLogs)) := by
  induction steps using List.reverseRecOn with
  | nil => exact fun p hp => absurd hp (Multiset.notMem_zero p)
  | append_singleton steps s ih =>
    generalize hd₀ : noPurchases catalog wallets auditLogs = d₀ at ih ⊢
    have h := ih.mono fun id amount hA => hA.mono (List.prefix_append steps [s])
    rw [runSteps_append, runSteps_singleton]
    cases s with
    | administer catalog => exact h.congr rfl rfl
    | operation o =>
      have heffect := o.effect (runSteps steps d₀)
      change InLockStep _ (o.exec (runSteps steps d₀))
      have hexec := o.exec_eq_replay (runSteps steps d₀)
      generalize o.prog.committed (runSteps steps d₀) [] = writes at heffect hexec
      cases heffect with
      | idle => exact hexec ▸ h
      | @ingested purchaseId transactionId today now data currentUserId row hrow =>
        obtain ⟨offer, hmem, -, cashback, hcash, hnew⟩ := hrow.offer
        have hmem' : row ∈ (runSteps (steps ++ [Step.operation (.ingest purchaseId transactionId
            today now data currentUserId)]) d₀).purchases.rows := by
          rw [runSteps_append, runSteps_singleton]
          change row ∈ (Operation.exec _ _).purchases.rows
          rw [hexec, replay_ingestionWrites]
          simp only [Table.put_rows_of_free _ hrow.purchase]
          exact Multiset.mem_cons_self _ _
        have hid : row.id = purchaseId := by
          rw [hnew]
          rfl
        rw [hexec]
        refine h.ingested hrow.purchase hrow.transaction (by rw [hnew]; rfl) ?_ ?_
        · rw [hnew]
          exact calculate_nonneg ((runSteps steps d₀).catalog.accepted offer hmem)
            data.amount_pos.le hcash
        · rw [hid]
          exact ⟨steps, transactionId, today, now, data, currentUserId, row,
            List.prefix_refl _, hrow, hmem', rfl⟩
      | confirmed hp hs => exact hexec ▸ (h.confirmed (mem_of_find hp) hs).audited _
      | rejected reason hp hs => exact hexec ▸ (h.rejected (mem_of_find hp) hs).audited _
      | exhausted hp hs => exact hexec ▸ (h.rejected (mem_of_find hp) hs).audited _
      | confirmedManually hp hs => exact hexec ▸ h.confirmed (mem_of_find hp) hs
      | reversed hp hs => exact hexec ▸ (h.reversed (mem_of_find hp)).audited _

/-- After every run, each purchase has exactly one cashback transaction, for its
user, with the amount of its ingestion and the status that goes with its own. -/
theorem one_transaction_in_lockStep (catalog : Catalog) (wallets : String → Option Wallet)
    (auditLogs : Multiset AuditLog) (steps : List Step) :
    ∀ p ∈ (runSteps steps (noPurchases catalog wallets auditLogs)).purchases.rows, ∃ t,
      (runSteps steps (noPurchases catalog wallets auditLogs)).transactions.rows.filter
        (fun t => t.purchaseId = p.id) = {t} ∧
      t.userId = p.userId ∧
      ComputedAtIngestion (noPurchases catalog wallets auditLogs) steps p.id t.amount ∧
      t.status = transactionStatus p.status t.amount := by
  intro p hp
  obtain ⟨t, ht, hA⟩ := inLockStep_runSteps catalog wallets auditLogs steps p hp
  refine ⟨t, ?_, ht.user, hA, ht.status⟩
  rw [← ht.purchase]
  exact Table.filter_of_mem _ (by simp) ht.mem

def confirmationOfNothing : List Step :=
  [.operation (.ingest "p" "t" 1 1 (oneRequest "ext" 1 (by decide) one_le_length_ext) "ana"),
    .operation (.attempt (fun _ _ => ⟨.confirmed, none⟩) 2 "p" 1)]

theorem one_transaction_in_lockStep_confirmationOfNothing :
    ∃ p ∈ (runSteps confirmationOfNothing (noPurchases oneOffer noWallets 0)).purchases.rows,
      ∃ t, (runSteps confirmationOfNothing
          (noPurchases oneOffer noWallets 0)).transactions.rows.filter
            (fun t => t.purchaseId = p.id) = {t} ∧
        t.userId = p.userId ∧
        ComputedAtIngestion (noPurchases oneOffer noWallets 0) confirmationOfNothing p.id t.amount ∧
        t.status = transactionStatus p.status t.amount := by
  have hsome : ((runSteps confirmationOfNothing
      (noPurchases oneOffer noWallets 0)).purchases.find Purchase.id "p").isSome := by
    decide +kernel
  obtain ⟨p, hp⟩ := Option.isSome_iff_exists.mp hsome
  exact ⟨p, mem_of_find hp,
    one_transaction_in_lockStep oneOffer noWallets 0 confirmationOfNothing p (mem_of_find hp)⟩

/-- The statuses in lock-step whatever the cashback is. -/
def plainTransactionStatus : PurchaseStatus → CashbackTransactionStatus
  | .pending => .pending
  | .confirmed => .available
  | .rejected | .reversed => .reversed

theorem confirmationOfNothing_out_of_step :
    ¬ ∀ p ∈ (runSteps confirmationOfNothing (noPurchases oneOffer noWallets 0)).purchases.rows,
      ∀ t ∈ (runSteps confirmationOfNothing (noPurchases oneOffer noWallets 0)).transactions.rows,
        t.purchaseId = p.id → t.status = plainTransactionStatus p.status := by
  decide +kernel

end ClickNBack.Purchases
