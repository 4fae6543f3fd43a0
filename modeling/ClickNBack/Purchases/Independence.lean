import ClickNBack.Purchases.Runs
import ClickNBack.ReadCommitted.Commuting

namespace ClickNBack.Purchases

open Relational ReadCommitted Prog Function

namespace Operation

def target : Operation → String
  | .ingest purchaseId .. => purchaseId
  | .attempt _ _ purchaseId _ => purchaseId
  | .forceReject _ purchaseId _ => purchaseId
  | .confirmManually _ purchaseId _ => purchaseId
  | .reverse _ purchaseId _ => purchaseId

def externalId : Operation → Option String
  | .ingest _ _ _ _ data _ => some data.externalId
  | _ => none

def transactionId : Operation → Option String
  | .ingest _ transactionId .. => some transactionId
  | _ => none

structure Distinct (o o' : Operation) : Prop where
  target : o.target ≠ o'.target
  externalId : ∀ e, o.externalId = some e → o'.externalId ≠ some e
  transactionId : ∀ t, o.transactionId = some t → o'.transactionId ≠ some t

theorem Distinct.symm {o o' : Operation} (h : Distinct o o') : Distinct o' o :=
  ⟨h.target.symm, fun e he he' => h.externalId e he' he, fun t ht ht' => h.transactionId t ht' ht⟩

/-- The statements on the rows of the operation's purchase; `U` are the users
whose wallets it may update. -/
def Owns (U : Set String) (o : Operation) : Sql → Prop
  | .insertPurchase row => row.id = o.target ∧ o.externalId = some row.externalId
  | .updatePurchase id _ => id = o.target
  | .insertTransaction row => row.purchaseId = o.target ∧ o.transactionId = some row.id
  | .updateTransaction purchaseId _ => purchaseId = o.target
  | .upsertWallet _ _ => True
  | .updateWallet userId _ _ => userId ∈ U
  | .insertAuditLog _ => True

end Operation

def WalletsOpen (U : Set String) (d : Database) : Prop := ∀ u ∈ U, (d.wallets u).isSome

theorem walletsOpen_apply (U : Set String) (s : Sql) (d : Database) (h : WalletsOpen U d) :
    WalletsOpen U (apply s d) := by
  intro u hu
  have hopen := h u hu
  cases s with
  | insertPurchase row | insertTransaction row => simpa using hopen
  | updatePurchase | updateTransaction | insertAuditLog => exact hopen
  | upsertWallet v amount =>
    rw [apply_upsertWallet]
    by_cases hv : u = v
    · simp [hv]
    · simpa [hv] using hopen
  | updateWallet v a b =>
    rw [apply_updateWallet]
    by_cases hv : u = v
    · subst hv
      simpa using hopen
    · simpa [hv] using hopen

section

variable {d d' : Database}

theorem insertPurchase_fate (row : Purchase) (d : Database) :
    (Statement.exec (Sql.insertPurchase row) d).map (fun _ => ()) =
      if d.purchases.Free row then .ok () else .error .integrityError := by
  simp only [Statement.exec, Sql.exec, Table.insert]
  by_cases h : d.purchases.Free row
  · simp only [h, dif_pos, if_pos]
    rfl
  · simp only [h, dif_neg, if_neg, not_false_eq_true]
    rfl

theorem insertTransaction_fate (row : CashbackTransaction) (d : Database) :
    (Statement.exec (Sql.insertTransaction row) d).map (fun _ => ()) =
      if d.transactions.Free row then .ok () else .error .integrityError := by
  simp only [Statement.exec, Sql.exec, Table.insert]
  by_cases h : d.transactions.Free row
  · simp only [h, dif_pos, if_pos]
    rfl
  · simp only [h, dif_neg, if_neg, not_false_eq_true]
    rfl

theorem fate_eq {s : Sql} (hp : ∀ row, s = .insertPurchase row →
      (d'.purchases.Free row ↔ d.purchases.Free row))
    (ht : ∀ row, s = .insertTransaction row →
      (d'.transactions.Free row ↔ d.transactions.Free row)) :
    (Statement.exec s d').map (fun _ => ()) = (Statement.exec s d).map (fun _ => ()) := by
  cases s with
  | insertPurchase row => simp only [insertPurchase_fate, hp row rfl]
  | insertTransaction row => simp only [insertTransaction_fate, ht row rfl]
  | updatePurchase | updateTransaction | upsertWallet | updateWallet | insertAuditLog => rfl

theorem update_wallets_comm (wallets : String → Option Wallet) {u v : String}
    {f g : Option Wallet → Option Wallet} (h : u = v → f (g (wallets u)) = g (f (wallets u))) :
    update (update wallets u (g (wallets u))) v (f (update wallets u (g (wallets u)) v)) =
      update (update wallets v (f (wallets v))) u (g (update wallets v (f (wallets v)) u)) := by
  by_cases huv : u = v
  · subst huv
    simp [h rfl]
  · rw [update_of_ne (Ne.symm huv), update_of_ne huv, update_comm huv]

theorem Wallet.add_comm (w : Wallet) (a b a' b' : Int) :
    (w.add a b).add a' b' = (w.add a' b').add a b := by
  simp only [Wallet.add, Wallet.mk.injEq, and_true]
  omega

theorem credit_comm (o : Option Wallet) (c c' : Int) :
    some (credit c (some (credit c' o))) = some (credit c' (some (credit c o))) := by
  cases o with
  | none => simp [credit, Wallet.add, Int.add_comm]
  | some w => simp only [credit, Wallet.add_comm]

theorem credit_map_comm {o : Option Wallet} (h : o.isSome) (c a b : Int) :
    some (credit c (o.map (·.add a b))) = (some (credit c o)).map (·.add a b) := by
  obtain ⟨w, rfl⟩ := Option.isSome_iff_exists.mp h
  simp only [Option.map_some, credit, Wallet.add_comm]

end

section

variable {U : Set String} {o o' : Operation} {s t : Sql}

theorem Operation.Distinct.fate (h : o.Distinct o') (hs : o.Owns U s) (ht : o'.Owns U t)
    (d : Database) :
    (Statement.exec s (apply t d)).map (fun _ => ()) =
      (Statement.exec s d).map (fun _ => ()) := by
  refine fate_eq ?_ ?_
  · rintro row rfl
    cases t with
    | insertPurchase row' =>
      rw [apply_insertPurchase]
      apply Table.free_put _
      simp only [List.mem_cons, List.not_mem_nil, or_false, forall_eq_or_imp, forall_eq]
      exact ⟨fun e => h.target (hs.1.symm.trans (e.trans ht.1)),
        fun e => h.externalId _ hs.2 (e ▸ ht.2)⟩
    | updatePurchase id u => exact d.purchases.free_modify u.keeps row
    | insertTransaction row' => rw [apply_insertTransaction]
    | updateTransaction | upsertWallet | updateWallet | insertAuditLog => exact Iff.rfl
  · rintro row rfl
    cases t with
    | insertTransaction row' =>
      rw [apply_insertTransaction]
      apply Table.free_put _
      simp only [List.mem_cons, List.not_mem_nil, or_false, forall_eq_or_imp, forall_eq]
      exact ⟨fun e => h.transactionId _ hs.2 (e ▸ ht.2),
        fun e => h.target (hs.1.symm.trans (e.trans ht.1))⟩
    | updateTransaction purchaseId status =>
      exact d.transactions.free_modify (CashbackTransaction.withStatus_keeps status) row
    | insertPurchase row' => rw [apply_insertPurchase]
    | updatePurchase | upsertWallet | updateWallet | insertAuditLog => exact Iff.rfl

theorem Operation.Distinct.purchases_comm (h : o.Distinct o') (hs : o.Owns U s)
    (ht : o'.Owns U t) (p : PurchaseTable) :
    s.onPurchases (t.onPurchases p) = t.onPurchases (s.onPurchases p) := by
  cases s with
  | insertPurchase row =>
    cases t with
    | insertPurchase row' =>
      apply Table.put_comm _
      simp only [List.mem_cons, List.not_mem_nil, or_false, forall_eq_or_imp, forall_eq]
      exact ⟨fun e => h.target (hs.1.symm.trans (e.trans ht.1)),
        fun e => h.externalId _ hs.2 (e ▸ ht.2)⟩
    | updatePurchase id u =>
      refine (Table.put_modify_comm _ u.keeps fun e => h.target ?_).symm
      exact hs.1.symm.trans (e.trans ht)
    | _ => rfl
  | updatePurchase id u =>
    cases t with
    | insertPurchase row' =>
      refine Table.put_modify_comm _ u.keeps fun e => h.target ?_
      exact hs.symm.trans (e.symm.trans ht.1)
    | updatePurchase id' u' =>
      refine Table.modify_comm _ u.keeps (by simp) (fun e => h.target ?_) u'.keeps
      exact hs.symm.trans (e.trans ht)
    | _ => rfl
  | _ => rfl

theorem Operation.Distinct.transactions_comm (h : o.Distinct o') (hs : o.Owns U s)
    (ht : o'.Owns U t) (r : TransactionTable) :
    s.onTransactions (t.onTransactions r) = t.onTransactions (s.onTransactions r) := by
  cases s with
  | insertTransaction row =>
    cases t with
    | insertTransaction row' =>
      apply Table.put_comm _
      simp only [List.mem_cons, List.not_mem_nil, or_false, forall_eq_or_imp, forall_eq]
      exact ⟨fun e => h.transactionId _ hs.2 (e ▸ ht.2),
        fun e => h.target (hs.1.symm.trans (e.trans ht.1))⟩
    | updateTransaction id u =>
      refine (Table.put_modify_comm _ (CashbackTransaction.withStatus_keeps u)
        fun e => h.target ?_).symm
      exact hs.1.symm.trans (e.trans ht)
    | _ => rfl
  | updateTransaction id u =>
    cases t with
    | insertTransaction row' =>
      refine Table.put_modify_comm _ (CashbackTransaction.withStatus_keeps u)
        fun e => h.target ?_
      exact hs.symm.trans (e.symm.trans ht.1)
    | updateTransaction id' u' =>
      refine Table.modify_comm _ (CashbackTransaction.withStatus_keeps u) (by simp)
        (fun e => h.target ?_) (CashbackTransaction.withStatus_keeps u')
      exact hs.symm.trans (e.trans ht)
    | _ => rfl
  | _ => rfl

/-- Increments of wallets commute, and an upsert with an increment as soon as
the row exists. -/
theorem wallets_comm (hs : o.Owns U s) (ht : o'.Owns U t) {w : String → Option Wallet}
    (hw : ∀ u ∈ U, (w u).isSome) : s.onWallets (t.onWallets w) = t.onWallets (s.onWallets w) := by
  cases s with
  | upsertWallet v c =>
    cases t with
    | upsertWallet u c' =>
      exact update_wallets_comm w (f := fun x => some (credit c x))
        (g := fun x => some (credit c' x)) fun _ => credit_comm _ c c'
    | updateWallet u a b =>
      exact update_wallets_comm w (f := fun x => some (credit c x))
        (g := Option.map (·.add a b)) fun _ => credit_map_comm (hw u ht) c a b
    | _ => rfl
  | updateWallet v a b =>
    cases t with
    | upsertWallet u c =>
      refine update_wallets_comm w (f := Option.map (·.add a b))
        (g := fun x => some (credit c x)) fun e => ?_
      exact (credit_map_comm (e ▸ hw v hs) c a b).symm
    | updateWallet u a' b' =>
      refine update_wallets_comm w (f := Option.map (·.add a b)) (g := Option.map (·.add a' b'))
        fun _ => ?_
      simp only [Option.map_map, Function.comp_def, Wallet.add_comm]
    | _ => rfl
  | _ => rfl

theorem auditLogs_comm (rows : Multiset AuditLog) :
    s.onAuditLogs (t.onAuditLogs rows) = t.onAuditLogs (s.onAuditLogs rows) := by
  cases s with
  | insertAuditLog row =>
    cases t with
    | insertAuditLog row' => exact Multiset.cons_swap row row' rows
    | _ => rfl
  | _ => rfl

theorem Operation.Distinct.independent (h : o.Distinct o') (hs : o.Owns U s) (ht : o'.Owns U t) :
    Independent (WalletsOpen U) s t := by
  intro d hd
  refine ⟨h.fate hs ht d, ?_⟩
  simp only [apply_eq, h.purchases_comm hs ht, h.transactions_comm hs ht, wallets_comm hs ht hd,
    auditLogs_comm (s := s) (t := t)]

end

end ClickNBack.Purchases
