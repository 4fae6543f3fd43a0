import ClickNBack.Purchases.Accounting
import ClickNBack.ReadCommitted.Atomic

namespace ClickNBack.Purchases

open Relational ReadCommitted Prog Function

/-- What a request may return: the row made of its data, for some offer. -/
def IngestedRow (purchaseId : String) (now : Nat) (data : PurchaseCreate) (row : Purchase) : Prop :=
  ∃ offerId cashbackAmount, row = newPurchase purchaseId now data offerId cashbackAmount

def ingestionKeys : Sql → List LockKey
  | .insertPurchase row => [.purchase row.id, .externalId row.externalId]
  | .insertTransaction row => [.transaction row.id, .transactionOf row.purchaseId]
  | .upsertWallet userId _ => [.wallet userId]
  | _ => []

section

variable {β : Type} {script : β → List Sql} {R : β → Prop} {log : List Sql}

theorem selectOne_follows {ρ : Type} {e : PurchaseException} {rows : Database → Multiset ρ}
    {f : Option ρ → Coroutine β} (h : ∀ r, (f r).Follows script R log) :
    (selectOne e rows >>= f).Follows script R log := by
  rw [selectOne]
  rw [bind_assoc]
  exact follows_query_bind fun _ _ => follows_lift_bind fun r _ => h r

theorem addPurchase_follows {row : Purchase} {f : Purchase → Coroutine β}
    (hs : ∃ b, R b ∧ log ++ [.insertPurchase row] <+: script b)
    (h : (f row).Follows script R (log ++ [.insertPurchase row])) :
    (PurchaseRepository.addPurchase row >>= f).Follows script R log := by
  rw [PurchaseRepository.addPurchase]
  rw [bind_assoc]
  apply follows_execute_bind hs
  rw [bind_assoc, getById_eq]
  refine follows_query_bind fun d hd => ?_
  obtain ⟨-, d', hexec, -⟩ := runs_append.mp hd
  have hfree := (exec_insertPurchase_iff _ row).mp ⟨d', hexec⟩
  have hview : (replay (log ++ [Sql.insertPurchase row]) d).purchases.find Purchase.id row.id =
      some row := by
    rw [replay_append, replay_cons, replay_nil, apply_insertPurchase]
    exact Table.find_put_self _ hfree (by simp)
  rw [hview]
  exact h

end

/-- Whatever it reads, a request raises or commits the three writes of its row. -/
theorem ingestPurchase_follows (purchaseId transactionId : String) (today now : Nat)
    (data : PurchaseCreate) (currentUserId : String) :
    (ingestPurchase purchaseId transactionId today now data currentUserId).Follows
      (ingestionWrites transactionId) (IngestedRow purchaseId now data) [] := by
  rw [ingestPurchase]
  refine follows_lift_bind fun _ _ => ?_
  refine selectOne_follows fun _ => ?_
  refine follows_lift_bind fun _ _ => ?_
  refine follows_lift_bind fun _ _ => ?_
  refine selectOne_follows fun _ => ?_
  refine follows_lift_bind fun _ _ => ?_
  refine selectOne_follows fun _ => ?_
  refine follows_lift_bind fun _ _ => ?_
  rw [OffersClient.getActiveOfferForMerchant]
  rw [bind_assoc]
  refine follows_query_bind fun _ _ => follows_lift_bind fun _ _ => ?_
  refine follows_lift_bind fun offer _ => ?_
  refine follows_lift_bind fun cashback _ => ?_
  have hrow : IngestedRow purchaseId now data
      (newPurchase purchaseId now data offer.id cashback.cashbackAmount) := ⟨_, _, rfl⟩
  apply addPurchase_follows ⟨_, hrow, List.prefix_append [_] _⟩
  apply follows_execute_bind ⟨_, hrow, List.prefix_append [_, _] _⟩
  apply follows_execute_bind ⟨_, hrow, List.prefix_refl _⟩
  exact follows_commit hrow rfl

section

variable (d : Database) (p : Purchase) (t : CashbackTransaction)

theorem runs_insertPurchase : Runs [Sql.insertPurchase p] d ↔ d.purchases.Free p := by
  rw [← exec_insertPurchase_iff]
  simp [Runs]

theorem runs_inserts :
    Runs [Sql.insertPurchase p, .insertTransaction t] d ↔
      d.purchases.Free p ∧ d.transactions.Free t := by
  have hsplit : [Sql.insertPurchase p, .insertTransaction t] =
      [.insertPurchase p] ++ [.insertTransaction t] := rfl
  rw [hsplit, runs_append, runs_insertPurchase, replay_cons, replay_nil, apply_insertPurchase]
  refine and_congr_right fun _ => ?_
  rw [← exec_insertTransaction_iff]
  simp only [Runs, and_true]
  exact exec_insertTransaction_iff { d with purchases := d.purchases.put p } t |>.trans
    (exec_insertTransaction_iff d t).symm

theorem runs_ingestionWrites (transactionId : String) :
    Runs (ingestionWrites transactionId p) d ↔
      d.purchases.Free p ∧ d.transactions.Free (newTransaction transactionId p) := by
  have hsplit : ingestionWrites transactionId p =
      [.insertPurchase p, .insertTransaction (newTransaction transactionId p)] ++
        [.upsertWallet p.userId p.cashbackAmount] := rfl
  rw [hsplit, runs_append, runs_inserts]
  exact and_iff_left ⟨_, rfl, trivial⟩

end

theorem prefix_ingestionWrites {transactionId : String} {p : Purchase} {l : List Sql}
    (h : l <+: ingestionWrites transactionId p) :
    l = [] ∨ l = [.insertPurchase p] ∨
      l = [.insertPurchase p, .insertTransaction (newTransaction transactionId p)] ∨
      l = ingestionWrites transactionId p := by
  obtain ⟨rest, h⟩ := h
  unfold ingestionWrites at h ⊢
  match l, h with
  | [], _ => exact Or.inl rfl
  | [x], h =>
    simp only [List.cons_append, List.nil_append, List.cons.injEq] at h
    simp [h.1]
  | [x, y], h =>
    simp only [List.cons_append, List.nil_append, List.cons.injEq] at h
    simp [h.1, h.2.1]
  | x :: y :: z :: l, h =>
    simp only [List.cons_append, List.cons.injEq, List.append_eq_nil_iff] at h
    simp [h.1, h.2.1, h.2.2.1, h.2.2.2.1]

theorem runs_after_ingestion {tid tid' : String} {a b : Purchase} {l : List Sql}
    (hl : l <+: ingestionWrites tid a)
    (happ : ∀ t ∈ l, ∀ u ∈ ingestionWrites tid' b,
      List.Disjoint (ingestionKeys t) (ingestionKeys u))
    {d : Database} (hd : Runs l d) : Runs l (replay (ingestionWrites tid' b) d) := by
  have hpurchase : Sql.insertPurchase a ∈ l → d.purchases.Free a → (d.purchases.put b).Free a := by
    intro hmem hfree
    have hdis := happ _ hmem (.insertPurchase b) (by simp [ingestionWrites])
    simp only [ingestionKeys, List.disjoint_cons_left, List.mem_cons, LockKey.purchase.injEq,
      LockKey.externalId.injEq, reduceCtorEq, List.not_mem_nil, or_false, false_or] at hdis
    exact (Table.free_put _ (by simp [hdis.1, hdis.2.1])).mpr hfree
  have htransaction : Sql.insertTransaction (newTransaction tid a) ∈ l →
      d.transactions.Free (newTransaction tid a) →
      (d.transactions.put (newTransaction tid' b)).Free (newTransaction tid a) := by
    intro hmem hfree
    have hdis := happ _ hmem (.insertTransaction (newTransaction tid' b))
      (by simp [ingestionWrites])
    simp only [ingestionKeys, List.disjoint_cons_left, List.mem_cons, LockKey.transaction.injEq,
      LockKey.transactionOf.injEq, reduceCtorEq, List.not_mem_nil, or_false, false_or] at hdis
    exact (Table.free_put _ (by simp [hdis.1, hdis.2.1])).mpr hfree
  rw [replay_ingestionWrites]
  obtain rfl | rfl | rfl | rfl := prefix_ingestionWrites hl
  · trivial
  · rw [runs_insertPurchase] at hd ⊢
    exact hpurchase (by simp) hd
  · rw [runs_inserts] at hd ⊢
    exact ⟨hpurchase (by simp) hd.1, htransaction (by simp) hd.2⟩
  · rw [runs_ingestionWrites] at hd ⊢
    exact ⟨hpurchase (by simp [ingestionWrites]) hd.1,
      htransaction (by simp [ingestionWrites]) hd.2⟩

/-- The database `d'` is `d` after the ingestion of `rows`. -/
structure Grown {ι : Type} (transactionId : ι → String) (d d' : Database)
    (rows : Multiset (ι × Purchase)) : Prop where
  catalog : d'.catalog = d.catalog
  purchases : d'.purchases.rows = d.purchases.rows + rows.map Prod.snd
  transactions : d'.transactions.rows =
    d.transactions.rows + rows.map fun x => newTransaction (transactionId x.1) x.2
  pending : ∀ u, d'.pendingBalance u = d.pendingBalance u +
    ((rows.filter fun x => x.2.userId = u).map fun x => x.2.cashbackAmount).sum
  available : ∀ u, d'.availableBalance u = d.availableBalance u
  wallets : ∀ u, (∀ x ∈ rows, x.2.userId ≠ u) → d'.wallets u = d.wallets u
  auditLogs : d'.auditLogs = d.auditLogs

section

variable {ι : Type} {transactionId : ι → String} {d d₁ d₂ : Database}

theorem Grown.refl : Grown transactionId d d 0 :=
  ⟨rfl, by simp, by simp, by simp, fun _ => rfl, fun _ _ => rfl, rfl⟩

theorem Grown.trans {rows rows' : Multiset (ι × Purchase)} (h : Grown transactionId d d₁ rows)
    (h' : Grown transactionId d₁ d₂ rows') : Grown transactionId d d₂ (rows + rows') where
  catalog := h'.catalog.trans h.catalog
  purchases := by rw [h'.purchases, h.purchases, Multiset.map_add, Multiset.add_assoc]
  transactions := by rw [h'.transactions, h.transactions, Multiset.map_add, Multiset.add_assoc]
  pending u := by
    rw [h'.pending, h.pending, Multiset.filter_add, Multiset.map_add, Multiset.sum_add, add_assoc]
  available u := (h'.available u).trans (h.available u)
  wallets u hu := (h'.wallets u fun x hx => hu x (Multiset.mem_add.mpr (Or.inr hx))).trans
    (h.wallets u fun x hx => hu x (Multiset.mem_add.mpr (Or.inl hx)))
  auditLogs := h'.auditLogs.trans h.auditLogs

theorem Grown.ingestion (x : ι × Purchase) (h : Runs (ingestionWrites (transactionId x.1) x.2) d) :
    Grown transactionId d (replay (ingestionWrites (transactionId x.1) x.2) d) {x} := by
  obtain ⟨hpurchase, htransaction⟩ := (runs_ingestionWrites d x.2 _).mp h
  rw [replay_ingestionWrites]
  refine ⟨rfl, ?_, ?_, fun u => ?_, fun u => ?_, fun u hu => ?_, rfl⟩
  · rw [Table.put_rows_of_free _ hpurchase, Multiset.map_singleton, Multiset.add_comm,
      Multiset.singleton_add]
  · rw [Table.put_rows_of_free _ htransaction, Multiset.map_singleton, Multiset.add_comm,
      Multiset.singleton_add]
  · apply (pendingBalance_credit d x.2.userId u x.2.cashbackAmount).trans
    by_cases hu : x.2.userId = u <;> simp [hu, Multiset.filter_singleton]
  · exact availableBalance_credit d x.2.userId u x.2.cashbackAmount
  · exact update_of_ne (Ne.symm (hu x (Multiset.mem_singleton_self x))) _ _

theorem Grown.ingestions {order : List (ι × Purchase)}
    (h : Runs (order.flatMap fun x => ingestionWrites (transactionId x.1) x.2) d) :
    Grown transactionId d
      (replay (order.flatMap fun x => ingestionWrites (transactionId x.1) x.2) d) order := by
  induction order generalizing d with
  | nil => exact Grown.refl
  | cons x order ih =>
    rw [List.flatMap_cons, runs_append] at h
    rw [List.flatMap_cons, replay_append, ← Multiset.cons_coe, ← Multiset.singleton_add]
    exact (Grown.ingestion x h.1).trans (ih h.2)

end

section

variable {ι : Type} [DecidableEq ι] [Fintype ι]

structure IngestionRequests (ι : Type) where
  purchaseId : ι → String
  transactionId : ι → String
  today : ι → Nat
  now : ι → Nat
  data : ι → PurchaseCreate
  currentUserId : ι → String

def IngestionRequests.prog (r : IngestionRequests ι) (i : ι) : Coroutine Purchase :=
  ingestPurchase (r.purchaseId i) (r.transactionId i) (r.today i) (r.now i) (r.data i)
    (r.currentUserId i)

/-- However the requests interleave and fail, the database grows by the rows of
those that returned and by nothing else: no external id twice, and exactly one
transaction for each new purchase. -/
theorem ingestion_idempotent (r : IngestionRequests ι) (d₀ : Database)
    {s : Sys ι Database Sql PurchaseException Purchase}
    (hr : Sys.Reach (fun _ _ _ => True) (Sys.start d₀ r.prog) s) :
    (s.db.purchases.rows.map Purchase.externalId).Nodup ∧
    Grown r.transactionId d₀ s.db s.returned ∧
    ∀ x ∈ s.returned, IngestedRow (r.purchaseId x.1) (r.now x.1) (r.data x.1) x.2 ∧
      s.db.transactions.rows.filter (fun t => t.purchaseId = x.2.id) =
        {newTransaction (r.transactionId x.1) x.2} := by
  obtain ⟨order, h⟩ := Sys.atomic_of_follows
    (fun i => ingestionWrites (r.transactionId i))
    (fun i => IngestedRow (r.purchaseId i) (r.now i) (r.data i)) ingestionKeys
    (by
      intro i a _ t ht d
      simp only [ingestionWrites, List.mem_cons, List.not_mem_nil, or_false] at ht
      obtain rfl | rfl | rfl := ht <;> rfl)
    (fun _ _ _ _ _ _ l hl happ d hd _ => runs_after_ingestion hl happ hd)
    (fun i => ingestPurchase_follows _ _ _ _ _ _) hr
  have hgrown : Grown r.transactionId d₀ s.db s.returned := by
    rw [h.db, h.returned_eq]
    exact Grown.ingestions h.runs
  refine ⟨s.db.purchases.unique _ (by simp), hgrown, fun x hx => ?_⟩
  refine ⟨h.meets x (Multiset.mem_coe.mp (h.returned_eq ▸ hx)), ?_⟩
  have hmem : newTransaction (r.transactionId x.1) x.2 ∈ s.db.transactions.rows := by
    rw [hgrown.transactions, Multiset.mem_add]
    exact Or.inr (Multiset.mem_map_of_mem _ hx)
  exact Table.filter_of_mem _ (f := CashbackTransaction.purchaseId) (by simp) hmem

end

def twinRequests : IngestionRequests (Fin 2) where
  purchaseId i := if i = 0 then "p" else "q"
  transactionId i := if i = 0 then "t" else "u"
  today _ := 1
  now _ := 1
  data _ := oneRequest "ext" 10000 hundredEuros_pos one_le_length_ext
  currentUserId _ := "ana"

/-- The second request finds the external id taken when the first has committed. -/
def twinRequestsEnd : Sys (Fin 2) Database Sql PurchaseException Purchase :=
  (Sys.play (fun _ _ => true) [0, 1, 0, 1, 0, 1, 0, 1, 0, 0, 0, 0, 0, 1]
    (Sys.start (noPurchases oneOffer noWallets 0) twinRequests.prog)).get (by decide +kernel)

theorem twinRequestsEnd_reach : Sys.Reach (fun _ _ _ => True)
    (Sys.start (noPurchases oneOffer noWallets 0) twinRequests.prog) twinRequestsEnd :=
  Sys.reach_of_play (fun _ _ _ => trivial) Sys.Reach.refl (Option.some_get _).symm

theorem ingestion_idempotent_twinRequests :
    twinRequestsEnd.returned.card = 1 ∧
    (twinRequestsEnd.db.purchases.rows.map Purchase.externalId).Nodup ∧
    Grown twinRequests.transactionId (noPurchases oneOffer noWallets 0) twinRequestsEnd.db
      twinRequestsEnd.returned ∧
    ∀ x ∈ twinRequestsEnd.returned,
      IngestedRow (twinRequests.purchaseId x.1) (twinRequests.now x.1) (twinRequests.data x.1)
        x.2 ∧
      twinRequestsEnd.db.transactions.rows.filter (fun t => t.purchaseId = x.2.id) =
        {newTransaction (twinRequests.transactionId x.1) x.2} :=
  ⟨by decide +kernel, ingestion_idempotent twinRequests _ twinRequestsEnd_reach⟩

end ClickNBack.Purchases
