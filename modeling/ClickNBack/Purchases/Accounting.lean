import ClickNBack.Purchases.Runs
import Mathlib.Algebra.Order.BigOperators.Group.Multiset

namespace ClickNBack.Purchases

open Relational ReadCommitted Function

/-- The cashback that a user's purchases in a given status are worth. -/
def owed (rows : Multiset Purchase) (userId : String) (s : PurchaseStatus) : Int :=
  ((rows.filter fun p => p.userId = userId ∧ p.status = s).map Purchase.cashbackAmount).sum

namespace Database

/-- The balances of a user; a missing wallet row counts as zeros. -/
def pendingBalance (d : Database) (userId : String) : Int :=
  (d.wallets userId).elim 0 Wallet.pendingBalance

def availableBalance (d : Database) (userId : String) : Int :=
  (d.wallets userId).elim 0 Wallet.availableBalance

end Database

/-- The balances are the sums that the purchases of the user add up to. -/
def Accounted (d : Database) : Prop :=
  ∀ userId, d.pendingBalance userId = owed d.purchases.rows userId .pending ∧
    d.availableBalance userId = owed d.purchases.rows userId .confirmed ∧
    0 ≤ d.pendingBalance userId ∧ 0 ≤ d.availableBalance userId

def Purchase.share (p : Purchase) (s : PurchaseStatus) : Int :=
  if p.status = s then p.cashbackAmount else 0

@[simp] theorem owed_zero (userId : String) (s : PurchaseStatus) : owed 0 userId s = 0 := rfl

theorem owed_cons (p : Purchase) (rows : Multiset Purchase) (userId : String)
    (s : PurchaseStatus) :
    owed (p ::ₘ rows) userId s = (if p.userId = userId then p.share s else 0) +
      owed rows userId s := by
  unfold owed Purchase.share
  rw [Multiset.filter_cons]
  by_cases hu : p.userId = userId <;> by_cases hs : p.status = s <;> simp [hu, hs]

theorem owed_nonneg {rows : Multiset Purchase} (h : ∀ p ∈ rows, 0 ≤ p.cashbackAmount)
    (userId : String) (s : PurchaseStatus) : 0 ≤ owed rows userId s := by
  refine Multiset.sum_nonneg fun c hc => ?_
  obtain ⟨p, hp, rfl⟩ := Multiset.mem_map.mp hc
  exact h p (Multiset.mem_filter.mp hp).1

section

variable (d : Database) (userId v : String)

theorem pendingBalance_credit (amount : Int) :
    { d with wallets := update d.wallets userId (some (credit amount (d.wallets userId))) :
      Database }.pendingBalance v = d.pendingBalance v + if userId = v then amount else 0 := by
  unfold Database.pendingBalance
  by_cases h : userId = v
  · subst h
    cases d.wallets userId <;> simp [credit, Wallet.add]
  · simp [h, Ne.symm h]

theorem availableBalance_credit (amount : Int) :
    { d with wallets := update d.wallets userId (some (credit amount (d.wallets userId))) :
      Database }.availableBalance v = d.availableBalance v := by
  unfold Database.availableBalance
  by_cases h : userId = v
  · subst h
    cases d.wallets userId <;> simp [credit, Wallet.add]
  · simp [Ne.symm h]

variable {d userId}

theorem pendingBalance_update (hw : (d.wallets userId).isSome) (a b : Int) :
    { d with wallets := update d.wallets userId ((d.wallets userId).map (·.add a b)) :
      Database }.pendingBalance v = d.pendingBalance v + if userId = v then a else 0 := by
  obtain ⟨w, hw⟩ := Option.isSome_iff_exists.mp hw
  unfold Database.pendingBalance
  by_cases h : userId = v
  · subst h
    simp [hw, Wallet.add]
  · simp [h, Ne.symm h]

theorem availableBalance_update (hw : (d.wallets userId).isSome) (a b : Int) :
    { d with wallets := update d.wallets userId ((d.wallets userId).map (·.add a b)) :
      Database }.availableBalance v = d.availableBalance v + if userId = v then b else 0 := by
  obtain ⟨w, hw⟩ := Option.isSome_iff_exists.mp hw
  unfold Database.availableBalance
  by_cases h : userId = v
  · subst h
    simp [hw, Wallet.add]
  · simp [h, Ne.symm h]

end

/-- The invariant behind the accounting: every purchase has a non-negative
cashback and an owner with a wallet row. -/
structure Books (d : Database) : Prop where
  pending : ∀ u, d.pendingBalance u = owed d.purchases.rows u .pending
  available : ∀ u, d.availableBalance u = owed d.purchases.rows u .confirmed
  nonneg : ∀ p ∈ d.purchases.rows, 0 ≤ p.cashbackAmount
  wallet : ∀ p ∈ d.purchases.rows, (d.wallets p.userId).isSome

theorem Books.accounted {d : Database} (h : Books d) : Accounted d := fun u =>
  ⟨h.pending u, h.available u, h.pending u ▸ owed_nonneg h.nonneg u _,
    h.available u ▸ owed_nonneg h.nonneg u _⟩

/-- One row changes, and its owner's balances move with its shares. -/
theorem Books.settle {d d' : Database} (h : Books d) {p p' : Purchase} {rest : Multiset Purchase}
    (hrows : d.purchases.rows = p ::ₘ rest) (hrows' : d'.purchases.rows = p' ::ₘ rest)
    (huser : p'.userId = p.userId) (hc : 0 ≤ p'.cashbackAmount)
    (hpending : ∀ v, d'.pendingBalance v =
      d.pendingBalance v + if p.userId = v then p'.share .pending - p.share .pending else 0)
    (havailable : ∀ v, d'.availableBalance v =
      d.availableBalance v + if p.userId = v then p'.share .confirmed - p.share .confirmed else 0)
    (hwallet : ∀ v, (d.wallets v).isSome → (d'.wallets v).isSome) : Books d' := by
  have hrest : ∀ q ∈ rest, q ∈ d.purchases.rows := fun q hq =>
    hrows ▸ Multiset.mem_cons_of_mem hq
  refine ⟨fun u => ?_, fun u => ?_, fun q hq => ?_, fun q hq => ?_⟩
  · rw [hpending, h.pending, hrows, hrows', owed_cons, owed_cons, huser]
    split <;> omega
  · rw [havailable, h.available, hrows, hrows', owed_cons, owed_cons, huser]
    split <;> omega
  · rw [hrows', Multiset.mem_cons] at hq
    obtain rfl | hq := hq
    · exact hc
    · exact h.nonneg q (hrest q hq)
  · rw [hrows', Multiset.mem_cons] at hq
    obtain rfl | hq := hq
    · exact hwallet _ (huser ▸ h.wallet p (hrows ▸ Multiset.mem_cons_self p rest))
    · exact hwallet _ (h.wallet q (hrest q hq))

theorem Books.settle_wallet {d d' : Database} (h : Books d) {p : Purchase} {u : PurchaseUpdate}
    (hp : p ∈ d.purchases.rows)
    (hpurchases : d'.purchases = PurchaseTable.update d.purchases p.id u)
    {a b : Int} (hwallets : d'.wallets =
      update d.wallets p.userId ((d.wallets p.userId).map (·.add a b)))
    (hc : 0 ≤ (u.on p).cashbackAmount) (ha : a = (u.on p).share .pending - p.share .pending)
    (hb : b = (u.on p).share .confirmed - p.share .confirmed) : Books d' := by
  obtain ⟨rest, hrows⟩ := Multiset.exists_cons_of_mem hp
  have hw := h.wallet p hp
  have hd' : ∀ v, d'.pendingBalance v = d.pendingBalance v + (if p.userId = v then a else 0) ∧
      d'.availableBalance v = d.availableBalance v + (if p.userId = v then b else 0) := by
    intro v
    rw [← pendingBalance_update v hw a b, ← availableBalance_update v hw a b]
    simp only [Database.pendingBalance, Database.availableBalance, hwallets, and_self]
  have hrows' : d'.purchases.rows = u.on p ::ₘ rest := by
    rw [hpurchases]
    exact Table.modify_rows_of_cons _ u.keeps (by simp) hrows rfl
  refine h.settle hrows hrows' ?_ hc ?_ ?_ ?_
  · cases u <;> rfl
  · exact fun v => ha ▸ (hd' v).1
  · exact fun v => hb ▸ (hd' v).2
  · intro v hv
    rw [hwallets]
    by_cases hvu : v = p.userId
    · subst hvu
      simpa using hv
    · simpa [hvu] using hv

theorem Books.confirmed {d : Database} (h : Books d) {p : Purchase} (hp : p ∈ d.purchases.rows)
    (hs : p.status = .pending) : Books (replay (confirmationWrites p) d) := by
  have hc := h.nonneg p hp
  rw [replay_confirmationWrites d hc]
  refine h.settle_wallet hp rfl rfl hc ?_ ?_ <;> simp [PurchaseUpdate.on, Purchase.share, hs]

theorem Books.rejected {d : Database} (h : Books d) {p : Purchase} (hp : p ∈ d.purchases.rows)
    (hs : p.status = .pending) : Books (replay (rejectionWrites p) d) := by
  have hc := h.nonneg p hp
  rw [replay_rejectionWrites d hc]
  refine h.settle_wallet hp rfl rfl hc ?_ ?_ <;> simp [PurchaseUpdate.on, Purchase.share, hs]

theorem Books.reversed {d : Database} (h : Books d) {p : Purchase} (hp : p ∈ d.purchases.rows)
    (hs : p.status ≠ .reversed) (hr : p.status = .rejected → p.cashbackAmount = 0) :
    Books (replay (reversalWrites p) d) := by
  rw [replay_reversalWrites]
  refine h.settle_wallet hp rfl rfl (by simp [PurchaseUpdate.on]) ?_ ?_
  all_goals
    cases hstatus : p.status <;> simp_all [PurchaseUpdate.on, Purchase.share]

theorem Books.ingested {d : Database} (h : Books d) (transactionId : String) {p : Purchase}
    (hfree : d.purchases.Free p) (hs : p.status = .pending) (hc : 0 ≤ p.cashbackAmount) :
    Books (replay (ingestionWrites transactionId p) d) := by
  rw [replay_ingestionWrites]
  have hrows := Table.put_rows_of_free _ hfree
  have hwallet : ∀ v, v = p.userId ∨ (d.wallets v).isSome →
      (update d.wallets p.userId (some (credit p.cashbackAmount (d.wallets p.userId)))
        v).isSome := by
    intro v hv
    by_cases hvu : v = p.userId
    · simp [hvu]
    · simpa [hvu] using hv
  refine ⟨fun u => ?_, fun u => ?_, fun q hq => ?_, fun q hq => ?_⟩
  · apply (pendingBalance_credit d p.userId u p.cashbackAmount).trans
    rw [h.pending, hrows, owed_cons, Purchase.share, if_pos hs, Int.add_comm]
  · apply (availableBalance_credit d p.userId u p.cashbackAmount).trans
    rw [h.available, hrows, owed_cons]
    simp [Purchase.share, hs]
  · rw [hrows, Multiset.mem_cons] at hq
    obtain rfl | hq := hq
    · exact hc
    · exact h.nonneg q hq
  · rw [hrows, Multiset.mem_cons] at hq
    obtain rfl | hq := hq
    · exact hwallet _ (Or.inl rfl)
    · exact hwallet _ (Or.inr (h.wallet q hq))

theorem Books.audited {d : Database} {writes : List Sql} (h : Books (replay writes d))
    (row : AuditLog) : Books (replay (writes ++ [.insertAuditLog row]) d) := by
  rw [replay_audited]
  exact ⟨h.pending, h.available, h.nonneg, h.wallet⟩

/-- The step does not reverse a rejected purchase that still has a cashback. -/
def SparesRejected (s : Step) (d : Database) : Prop :=
  ∀ now purchaseId adminId, s = .operation (.reverse now purchaseId adminId) →
    ∀ p, d.purchases.find Purchase.id purchaseId = some p → p.status = .rejected →
      p.cashbackAmount = 0

theorem Books.exec {d : Database} (h : Books d) {s : Step} (hs : SparesRejected s d) :
    Books (s.exec d) := by
  cases s with
  | administer catalog => exact ⟨h.pending, h.available, h.nonneg, h.wallet⟩
  | operation o =>
    have heffect := o.effect d
    change Books (o.exec d)
    rw [o.exec_eq_replay]
    generalize o.prog.committed d [] = writes at heffect
    cases heffect with
    | idle => exact h
    | ingested hrow =>
      obtain ⟨⟨offer, hmem, -, cashback, hcash, hnew⟩, hfree, -⟩ := hrow
      apply h.ingested _ hfree (by rw [hnew]; rfl)
      rw [hnew]
      exact calculate_nonneg (d.catalog.accepted offer hmem) (PurchaseCreate.amount_pos _).le hcash
    | confirmed hp hpending => exact (h.confirmed (mem_of_find hp) hpending).audited _
    | rejected reason hp hpending => exact (h.rejected (mem_of_find hp) hpending).audited _
    | exhausted hp hpending => exact (h.rejected (mem_of_find hp) hpending).audited _
    | confirmedManually hp hpending => exact h.confirmed (mem_of_find hp) hpending
    | reversed hp hreversed =>
      exact (h.reversed (mem_of_find hp) hreversed (hs _ _ _ rfl _ hp)).audited _

/-- Reversing a rejected purchase takes its cashback from the available balance
for a second time. -/
theorem Books.reversed_rejected {d : Database} (h : Books d) (now : Nat) (adminId : String)
    {purchaseId : String} {p : Purchase}
    (hp : d.purchases.find Purchase.id purchaseId = some p) (hs : p.status = .rejected)
    (hc : p.cashbackAmount ≠ 0) :
    ¬ Accounted ((Operation.reverse now purchaseId adminId).exec d) := by
  have hmem := mem_of_find hp
  obtain ⟨rest, hrows⟩ := Multiset.exists_cons_of_mem hmem
  have hrows' : (PurchaseTable.update d.purchases p.id .reversed).rows =
      PurchaseUpdate.reversed.on p ::ₘ rest :=
    Table.modify_rows_of_cons _ (PurchaseUpdate.keeps .reversed) (by simp) hrows rfl
  have hbefore := h.available p.userId
  have hbalance := availableBalance_update p.userId (h.wallet p hmem) 0 (-p.cashbackAmount)
  intro hacc
  have hafter := (hacc p.userId).2.1
  rw [Operation.exec_eq_replay, Operation.prog, Operation.committed_discard,
    reversePurchase_settled now adminId hp (by simp [hs]), replay_audited,
    replay_reversalWrites] at hafter
  simp only [hs, reduceCtorEq, if_false, hrows', owed_cons] at hafter
  rw [hrows, owed_cons] at hbefore
  simp only [Purchase.share, PurchaseUpdate.on, hs, reduceCtorEq, if_false, if_true]
    at hafter hbefore
  simp only [Database.availableBalance, if_true] at hafter hbefore hbalance
  omega

theorem books_noPurchases (catalog : Catalog) (auditLogs : Multiset AuditLog) :
    Books (noPurchases catalog noWallets auditLogs) :=
  ⟨fun _ => rfl, fun _ => rfl, fun _ h => absurd h (Multiset.notMem_zero _),
    fun _ h => absurd h (Multiset.notMem_zero _)⟩

/-- The accounting holds throughout a run exactly when the run never reverses a
rejected purchase that still has a cashback. -/
theorem accounted_iff_sparesRejected (catalog : Catalog) (auditLogs : Multiset AuditLog)
    (steps : List Step) :
    (∀ pre, pre <+: steps → Accounted (runSteps pre (noPurchases catalog noWallets auditLogs))) ↔
      ∀ pre s, pre ++ [s] <+: steps →
        SparesRejected s (runSteps pre (noPurchases catalog noWallets auditLogs)) := by
  refine Transition.run_holds_iff (books_noPurchases catalog auditLogs)
    (fun _ hd => hd.accounted) (fun _ _ hd hs => hd.exec hs) ?_ steps
  intro s d hd hbreaks hacc
  apply hbreaks
  rintro now purchaseId adminId rfl p hp hs
  by_contra hc
  exact hd.reversed_rejected now adminId hp hs hc hacc

/-- A purchase is ingested, declined by the bank and then reversed. -/
def reversalAfterRejection : List Step :=
  [.operation (.ingest "p" "t" 1 1
      (oneRequest "ext" 10000 hundredEuros_pos one_le_length_ext) "ana"),
    .operation (.attempt (fun _ _ => ⟨.rejected, none⟩) 2 "p" 1),
    .operation (.reverse 3 "p" "root")]

theorem reversalAfterRejection_not_accounted :
    ¬ Accounted (runSteps reversalAfterRejection (noPurchases oneOffer noWallets 0)) := by
  intro h
  have hbalance := (h "ana").2.2.2
  revert hbalance
  decide +kernel

end ClickNBack.Purchases
