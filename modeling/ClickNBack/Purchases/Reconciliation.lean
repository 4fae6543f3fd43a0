import ClickNBack.Purchases.Accounting
import ClickNBack.Purchases.AuditCompleteness
import ClickNBack.Purchases.LockStep

namespace ClickNBack.Purchases

open Relational ReadCommitted Function

/-- What the audit trail records of the reversal of a purchase that had been rejected. -/
def AuditLog.ReversesRejected (row : AuditLog) (purchaseId : String) : Prop :=
  row.action = .purchaseReversed ∧ row.resourceId = purchaseId ∧
    row.details = [("prior_status", .status .rejected)]

instance (row : AuditLog) (purchaseId : String) : Decidable (row.ReversesRejected purchaseId) :=
  inferInstanceAs (Decidable (_ ∧ _ ∧ _))

namespace Database

def ReversedAfterRejection (d : Database) (purchaseId : String) : Prop :=
  ∃ row ∈ d.auditLogs, row.ReversesRejected purchaseId

instance (d : Database) (purchaseId : String) : Decidable (d.ReversedAfterRejection purchaseId) :=
  Multiset.decidableExistsMultiset

/-- What such a reversal has taken out of the available balance of a user. -/
def excess (d : Database) (userId : String) (t : CashbackTransaction) : Int :=
  if t.userId = userId ∧ d.ReversedAfterRejection t.purchaseId then t.amount else 0

def overdrawn (d : Database) (userId : String) : Int :=
  (d.transactions.rows.map (d.excess userId)).sum

/-- The database with what has been overdrawn put back. -/
def repaired (d : Database) : Database :=
  { d with wallets := fun userId => (d.wallets userId).map (·.add 0 (d.overdrawn userId)) }

end Database

section

variable {d d' : Database}

theorem overdrawn_congr (htransactions : d'.transactions = d.transactions)
    (htrail : ∀ id, d'.ReversedAfterRejection id ↔ d.ReversedAfterRejection id) (userId : String) :
    d'.overdrawn userId = d.overdrawn userId := by
  rw [Database.overdrawn, Database.overdrawn, htransactions]
  congr 2
  funext t
  simp only [Database.excess, htrail]

/-- The statements that settle purchases and do not touch what is overdrawn. -/
def Sql.Settling : Sql → Prop
  | .updatePurchase _ _ | .updateTransaction _ _ | .updateWallet _ _ _ => True
  | .insertAuditLog row => ∀ id, ¬ row.ReversesRejected id
  | .insertPurchase _ | .insertTransaction _ | .upsertWallet _ _ => False

theorem overdrawn_apply {s : Sql} (hs : s.Settling) (userId : String) :
    (apply s d).overdrawn userId = d.overdrawn userId := by
  cases s with
  | insertPurchase | insertTransaction | upsertWallet => exact hs.elim
  | updatePurchase | updateWallet => rfl
  | updateTransaction purchaseId status =>
    exact congrArg Multiset.sum (Table.map_modify _
      (CashbackTransaction.withStatus_keeps status) fun _ => rfl)
  | insertAuditLog row =>
    rw [apply_insertAuditLog]
    refine overdrawn_congr ?_ (fun id => ?_) userId
    · rfl
    · simp [Database.ReversedAfterRejection, hs id]

/-- A settling statement does to the repaired database what it does to the other one. -/
theorem repaired_apply {s : Sql} (hs : s.Settling) :
    (apply s d).repaired = apply s d.repaired := by
  have hoverdrawn := overdrawn_apply (d := d) hs
  rw [Database.repaired, funext hoverdrawn, apply_eq, apply_eq]
  congr 1
  cases s with
  | insertPurchase | insertTransaction | upsertWallet => exact hs.elim
  | updatePurchase | updateTransaction | insertAuditLog => rfl
  | updateWallet userId pending available =>
    funext v
    by_cases hv : v = userId
    · subst hv
      simp only [Sql.onWallets, Database.repaired, update_self, Option.map_map]
      congr 1
      funext w
      simp only [Wallet.add, comp_apply]
      congr 1
      · omega
      · omega
    · simp [Sql.onWallets, Database.repaired, hv]

theorem repaired_replay {writes : List Sql} (h : ∀ s ∈ writes, s.Settling) :
    (replay writes d).repaired = replay writes d.repaired := by
  induction writes generalizing d with
  | nil => rfl
  | cons s writes ih =>
    rw [replay_cons, replay_cons, ih fun t ht => h t (List.mem_cons_of_mem s ht),
      repaired_apply (h s List.mem_cons_self)]

theorem confirmationWrites_settling (p : Purchase) : ∀ s ∈ confirmationWrites p, s.Settling := by
  rw [confirmationWrites]
  split_ifs <;> simp [Sql.Settling]

theorem rejectionWrites_settling (p : Purchase) : ∀ s ∈ rejectionWrites p, s.Settling := by
  rw [rejectionWrites]
  split_ifs <;> simp [Sql.Settling]

theorem reversalWrites_settling (p : Purchase) : ∀ s ∈ reversalWrites p, s.Settling := by
  rw [reversalWrites]
  split_ifs <;> simp [Sql.Settling]

end

/-- Whatever the trail says was reversed is reversed. -/
def Trail (d : Database) : Prop :=
  ∀ row ∈ d.auditLogs, row.action = .purchaseReversed →
    ∃ p, d.purchases.find Purchase.id row.resourceId = some p ∧ p.status = .reversed

section

variable {d d' : Database} {p : Purchase}

theorem Trail.settle (h : Trail d) (hp : d.purchases.find Purchase.id p.id = some p)
    (hs : p.status ≠ .reversed) {u : PurchaseUpdate}
    (hpurchases : d'.purchases = PurchaseTable.update d.purchases p.id u)
    (hauditLogs : ∀ r ∈ d'.auditLogs, r ∈ d.auditLogs ∨
      (r.action = .purchaseReversed → r.resourceId = p.id ∧ u = .reversed)) : Trail d' := by
  intro r hr haction
  rw [hpurchases, find_update]
  obtain hr | hrow := hauditLogs r hr
  rotate_left
  · obtain ⟨hid, rfl⟩ := hrow haction
    refine ⟨PurchaseUpdate.reversed.on p, ?_, rfl⟩
    rw [hid, hp, Option.map_some, if_pos rfl]
  · obtain ⟨q, hq, hreversed⟩ := h r hr haction
    refine ⟨q, ?_, hreversed⟩
    rw [hq, Option.map_some, if_neg]
    intro hid
    rw [id_of_find hq] at hid
    rw [hid, hp] at hq
    cases hq
    exact hs hreversed

theorem Trail.not_reversedAfterRejection (h : Trail d)
    (hp : d.purchases.find Purchase.id p.id = some p) (hs : p.status ≠ .reversed) :
    ¬ d.ReversedAfterRejection p.id := by
  rintro ⟨row, hrow, haction, hid, -⟩
  obtain ⟨q, hq, hreversed⟩ := h row hrow haction
  rw [hid, hp] at hq
  cases hq
  exact hs hreversed

end

structure Repairable (d : Database) : Prop where
  books : Books d.repaired
  trail : Trail d

section

variable {d : Database} {p : Purchase}

theorem Trail.audited {writes : List Sql} (h : Trail (replay writes d)) {row : AuditLog}
    (hrow : row.action ≠ .purchaseReversed) :
    Trail (replay (writes ++ [.insertAuditLog row]) d) := by
  rw [replay_audited]
  intro r hr haction
  obtain rfl | hr := Multiset.mem_cons.mp hr
  · exact absurd haction hrow
  · exact h r hr haction

theorem Repairable.audited {writes : List Sql} (h : Repairable (replay writes d))
    {row : AuditLog} (hrow : row.action ≠ .purchaseReversed) :
    Repairable (replay (writes ++ [.insertAuditLog row]) d) where
  books := by
    have hsettling : (Sql.insertAuditLog row).Settling := fun id hid => hrow hid.1
    rw [replay_append, replay_cons, replay_nil, repaired_apply hsettling]
    exact ⟨h.books.pending, h.books.available, h.books.nonneg, h.books.wallet⟩
  trail := h.trail.audited hrow

theorem Repairable.confirmed (h : Repairable d)
    (hp : d.purchases.find Purchase.id p.id = some p) (hs : p.status = .pending) :
    Repairable (replay (confirmationWrites p) d) where
  books := by
    rw [repaired_replay (confirmationWrites_settling p)]
    exact h.books.confirmed (mem_of_find hp) hs
  trail := by
    obtain ⟨hpurchases, hauditLogs⟩ := confirmationWrites_purchases p d
    refine h.trail.settle hp (by simp [hs]) hpurchases fun r hr => Or.inl ?_
    rwa [hauditLogs] at hr

theorem Repairable.rejected (h : Repairable d)
    (hp : d.purchases.find Purchase.id p.id = some p) (hs : p.status = .pending) :
    Repairable (replay (rejectionWrites p) d) where
  books := by
    rw [repaired_replay (rejectionWrites_settling p)]
    exact h.books.rejected (mem_of_find hp) hs
  trail := by
    obtain ⟨hpurchases, hauditLogs⟩ := rejectionWrites_purchases p d
    refine h.trail.settle hp (by simp [hs]) hpurchases fun r hr => Or.inl ?_
    rwa [hauditLogs] at hr

theorem reversal_trail (h : Trail d) (hp : d.purchases.find Purchase.id p.id = some p)
    (hs : p.status ≠ .reversed) (now : Nat) (adminId : String) :
    Trail (replay (reversalWrites p ++ [.insertAuditLog (reversedLog now adminId p)]) d) := by
  rw [replay_audited, replay_reversalWrites]
  refine h.settle hp hs rfl fun r hr => ?_
  obtain rfl | hr := Multiset.mem_cons.mp hr
  · exact Or.inr fun _ => ⟨rfl, rfl⟩
  · exact Or.inl hr

theorem Repairable.reversed (h : Repairable d)
    (hp : d.purchases.find Purchase.id p.id = some p) (hs : p.status ≠ .reversed)
    (hr : p.status ≠ .rejected) (now : Nat) (adminId : String) :
    Repairable
      (replay (reversalWrites p ++ [.insertAuditLog (reversedLog now adminId p)]) d) where
  books := by
    rw [replay_append, replay_cons, replay_nil, repaired_apply, repaired_replay]
    · have hbooks := h.books.reversed (mem_of_find hp) hs fun h => absurd h hr
      exact ⟨hbooks.pending, hbooks.available, hbooks.nonneg, hbooks.wallet⟩
    · exact reversalWrites_settling p
    · rintro id ⟨-, -, hdetails⟩
      simp [reversedLog, hr] at hdetails
  trail := reversal_trail h.trail hp hs now adminId

/-- A reversal of a rejected purchase overdraws its owner by its cashback. -/
theorem overdrawn_reversed {d' : Database} {t : CashbackTransaction} (ht : t ∈ d.transactions.rows)
    (hpurchase : t.purchaseId = p.id)
    (htransactions : d'.transactions = TransactionTable.update d.transactions p.id .reversed)
    (hbefore : ¬ d.ReversedAfterRejection p.id)
    (hafter : ∀ id, d'.ReversedAfterRejection id ↔ id = p.id ∨ d.ReversedAfterRejection id)
    (userId : String) :
    d'.overdrawn userId = d.overdrawn userId + if t.userId = userId then t.amount else 0 := by
  obtain ⟨rest, hrows⟩ := Multiset.exists_cons_of_mem ht
  have hne := d.transactions.key_ne (f := CashbackTransaction.purchaseId) (by simp) hrows
  have hsum : d'.overdrawn userId = (d.transactions.rows.map (d'.excess userId)).sum := by
    rw [Database.overdrawn, htransactions]
    exact congrArg Multiset.sum (Table.map_modify _
      (CashbackTransaction.withStatus_keeps .reversed) fun _ => rfl)
  have hrest : rest.map (d'.excess userId) = rest.map (d.excess userId) := by
    refine Multiset.map_congr rfl fun r hr => ?_
    have hid : r.purchaseId ≠ p.id := hpurchase ▸ hne r hr
    simp [Database.excess, hafter, hid]
  have hself : d.excess userId t = 0 := by simp [Database.excess, hpurchase, hbefore]
  have hself' : d'.excess userId t = if t.userId = userId then t.amount else 0 := by
    simp [Database.excess, hafter, hpurchase]
  rw [hsum, Database.overdrawn, hrows, Multiset.map_cons, Multiset.map_cons, Multiset.sum_cons,
    Multiset.sum_cons, hrest, hself, hself']
  omega

theorem Repairable.reversed_rejected {A : String → Int → Prop} (h : Repairable d)
    (hlock : InLockStep A d) (hp : d.purchases.find Purchase.id p.id = some p)
    (hs : p.status = .rejected) (now : Nat) (adminId : String) :
    Repairable
      (replay (reversalWrites p ++ [.insertAuditLog (reversedLog now adminId p)]) d) where
  books := by
    have hmem := mem_of_find hp
    obtain ⟨t, ht, -⟩ := hlock p hmem
    have hamount := ht.amount (by simp [hs])
    obtain ⟨rest, hrows⟩ := Multiset.exists_cons_of_mem hmem
    rw [replay_audited, replay_reversalWrites]
    generalize hd' : ({ d with
      purchases := PurchaseTable.update d.purchases p.id .reversed
      transactions := TransactionTable.update d.transactions p.id .reversed
      wallets := _
      auditLogs := reversedLog now adminId p ::ₘ d.auditLogs } : Database) = d'
    have hoverdrawn : ∀ v, d'.overdrawn v =
        d.overdrawn v + if t.userId = v then t.amount else 0 := by
      refine overdrawn_reversed ht.mem ht.purchase ?_
        (h.trail.not_reversedAfterRejection hp (by simp [hs])) fun id => ?_
      · rw [← hd']
      · rw [← hd']
        simp [Database.ReversedAfterRejection, AuditLog.ReversesRejected, reversedLog, hs, eq_comm]
    have hwallets : d'.repaired.wallets = d.repaired.wallets := by
      funext v
      rw [Database.repaired, Database.repaired]
      dsimp only
      rw [hoverdrawn, ht.user, ← hamount, ← hd']
      by_cases hv : v = p.userId
      · subst hv
        cases d.wallets p.userId with
        | none => simp
        | some w =>
          simp only [hs, reduceCtorEq, if_false, if_true, update_self, Option.map_some, Wallet.add,
            Option.some.injEq, Wallet.mk.injEq, and_true]
          omega
      · simp [hv, Ne.symm hv]
    have hrows' : d'.repaired.purchases.rows = PurchaseUpdate.reversed.on p ::ₘ rest := by
      rw [← hd']
      exact Table.modify_rows_of_cons _ (PurchaseUpdate.keeps .reversed) (by simp) hrows rfl
    refine h.books.settle hrows hrows' rfl le_rfl (fun v => ?_) (fun v => ?_) fun v hv => ?_
    · simp [Database.pendingBalance, hwallets, Purchase.share, PurchaseUpdate.on, hs]
    · simp [Database.availableBalance, hwallets, Purchase.share, PurchaseUpdate.on, hs]
    · rwa [hwallets]
  trail := reversal_trail h.trail hp (by simp [hs]) now adminId

theorem Repairable.overdrawn_eq_zero {A : String → Int → Prop} (h : Repairable d)
    (hlock : InLockStep A d) {userId : String} (hw : d.wallets userId = none) :
    d.overdrawn userId = 0 := by
  refine Multiset.sum_eq_zero fun x hx => ?_
  obtain ⟨t, ht, rfl⟩ := Multiset.mem_map.mp hx
  refine if_neg ?_
  rintro ⟨rfl, row, hrow, haction, hid, -⟩
  obtain ⟨q, hq, -⟩ := h.trail row hrow haction
  obtain ⟨t', ht', -⟩ := hlock q (mem_of_find hq)
  have htt' : t' = t := d.transactions.eq_of_key (f := CashbackTransaction.purchaseId) (by simp)
    ht'.mem ht (ht'.purchase.trans ((id_of_find hq).trans hid))
  have hwallet := h.books.wallet q (mem_of_find hq)
  rw [← ht'.user, htt'] at hwallet
  simp [Database.repaired, hw] at hwallet

theorem Repairable.ingested {A : String → Int → Prop} (h : Repairable d) (hlock : InLockStep A d)
    {transactionId : String} (hfree : d.purchases.Free p)
    (htransaction : d.transactions.Free (newTransaction transactionId p))
    (hs : p.status = .pending) (hc : 0 ≤ p.cashbackAmount) :
    Repairable (replay (ingestionWrites transactionId p) d) where
  books := by
    have hnew : ∀ q ∈ d.purchases.rows, q.id ≠ p.id := by
      intro q hq hid
      exact hfree Purchase.id (by simp) (hid ▸ Multiset.mem_map_of_mem _ hq)
    have hoverdrawn : (replay (ingestionWrites transactionId p) d).overdrawn = d.overdrawn := by
      funext v
      rw [replay_ingestionWrites, Database.overdrawn]
      dsimp only
      rw [Table.put_rows_of_free _ htransaction, Multiset.map_cons, Multiset.sum_cons]
      refine (congrArg (· + d.overdrawn v) (if_neg ?_)).trans (Int.zero_add _)
      rintro ⟨-, row, hrow, haction, hid, -⟩
      obtain ⟨q, hq, -⟩ := h.trail row hrow haction
      exact hnew q (mem_of_find hq) ((id_of_find hq).trans hid)
    have hrepaired : (replay (ingestionWrites transactionId p) d).repaired =
        replay (ingestionWrites transactionId p) d.repaired := by
      rw [Database.repaired, hoverdrawn, replay_ingestionWrites, replay_ingestionWrites]
      congr 1
      funext v
      by_cases hv : v = p.userId
      · subst hv
        simp only [update_self, Option.map_some, Database.repaired]
        cases hw : d.wallets p.userId with
        | none => simp [credit, Wallet.add, h.overdrawn_eq_zero hlock hw]
        | some w =>
          simp only [Option.map_some, credit, Wallet.add, Option.some.injEq, Wallet.mk.injEq,
            and_true]
          omega
      · simp [Database.repaired, hv]
    rw [hrepaired]
    exact h.books.ingested transactionId hfree hs hc
  trail := by
    rw [replay_ingestionWrites]
    intro row hrow haction
    obtain ⟨q, hq, hreversed⟩ := h.trail row hrow haction
    refine ⟨q, ?_, hreversed⟩
    refine (Table.find_put_of_ne _ fun hid => ?_).trans hq
    refine hfree Purchase.id (by simp) (Multiset.mem_map.mpr ⟨q, mem_of_find hq, ?_⟩)
    exact (id_of_find hq).trans hid.symm

theorem Repairable.exec {A : String → Int → Prop} (h : Repairable d) (hlock : InLockStep A d)
    (s : Step) : Repairable (s.exec d) := by
  cases s with
  | administer catalog =>
    exact ⟨⟨h.books.pending, h.books.available, h.books.nonneg, h.books.wallet⟩, h.trail⟩
  | operation o =>
    have heffect := o.effect d
    change Repairable (o.exec d)
    rw [o.exec_eq_replay]
    generalize o.prog.committed d [] = writes at heffect
    cases heffect with
    | idle => exact h
    | ingested hrow =>
      obtain ⟨⟨offer, hmem, -, cashback, hcash, hnew⟩, hfree, htransaction⟩ := hrow
      refine h.ingested hlock hfree htransaction (by rw [hnew]; rfl) ?_
      rw [hnew]
      exact calculate_nonneg (d.catalog.accepted offer hmem) (PurchaseCreate.amount_pos _).le hcash
    | confirmed hp hs =>
      obtain rfl := id_of_find hp
      exact (h.confirmed hp hs).audited (by simp [confirmedLog])
    | rejected reason hp hs =>
      obtain rfl := id_of_find hp
      exact (h.rejected hp hs).audited (by simp [rejectedLog])
    | exhausted hp hs =>
      obtain rfl := id_of_find hp
      exact (h.rejected hp hs).audited (by simp [rejectedLog])
    | confirmedManually hp hs =>
      obtain rfl := id_of_find hp
      exact h.confirmed hp hs
    | @reversed now purchaseId adminId p hp hs =>
      obtain rfl := id_of_find hp
      by_cases hr : p.status = .rejected
      · exact h.reversed_rejected hlock hp hr now adminId
      · exact h.reversed hp hs hr now adminId

end

theorem repairable_runSteps (catalog : Catalog) (steps : List Step) :
    Repairable (runSteps steps (noPurchases catalog noWallets 0)) := by
  induction steps using List.reverseRecOn with
  | nil =>
    have hbooks := books_noPurchases catalog 0
    refine ⟨⟨fun _ => rfl, fun _ => rfl, hbooks.nonneg, fun p hp => ?_⟩, fun row hrow => ?_⟩
    · cases Multiset.notMem_zero p hp
    · cases Multiset.notMem_zero row hrow
  | append_singleton steps s ih =>
    rw [runSteps_append, runSteps_singleton]
    exact ih.exec (inLockStep_runSteps catalog noWallets 0 steps) s

/-- After every run, whatever it has reversed, the database tells how to repair the wallets:
once what the audit trail shows to be overdrawn is put back, the accounting holds. -/
theorem accounted_repaired (catalog : Catalog) (steps : List Step) :
    Accounted (runSteps steps (noPurchases catalog noWallets 0)).repaired :=
  (repairable_runSteps catalog steps).books.accounted

/-- A purchase is declined by the bank and then reversed: its owner is overdrawn by ten euros. -/
example : (runSteps
    [.operation (.ingest "p" "t" 1 1
      (oneRequest "ext" 10000 hundredEuros_pos one_le_length_ext) "ana"),
    .operation (.attempt (fun _ _ => ⟨.rejected, none⟩) 2 "p" 1),
    .operation (.reverse 3 "p" "root")] (noPurchases oneOffer noWallets 0)).overdrawn "ana" =
      1000 := by
  decide +kernel

end ClickNBack.Purchases
