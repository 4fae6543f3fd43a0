import ClickNBack.Purchases.Independence
import Mathlib.Tactic.FinCases

namespace ClickNBack.Purchases

open Relational ReadCommitted Prog Function

def Operation.Foreign (U : Set String) (o : Operation) (t : Sql) : Prop :=
  ∃ o', o.Distinct o' ∧ o'.Owns U t

section

variable {U : Set String} {o : Operation} {t : Sql} {d : Database}

theorem Operation.Owns.find_of_ne (h : o.Owns U t) {id : String} (hne : o.target ≠ id)
    (d : Database) :
    (apply t d).purchases.find Purchase.id id = d.purchases.find Purchase.id id := by
  rw [apply_eq]
  cases t with
  | insertPurchase row => exact Table.find_put_of_ne _ fun e => hne (h.1.symm.trans e)
  | updatePurchase id' u =>
    change (PurchaseTable.update d.purchases id' u).find Purchase.id id = _
    rw [find_update]
    cases hp : d.purchases.find Purchase.id id with
    | none => rfl
    | some p =>
      have hid : p.id ≠ id' := fun e => hne (h.symm.trans (e.symm.trans (id_of_find hp)))
      simp [hid]
  | _ => rfl

theorem Operation.Foreign.find_target (h : o.Foreign U t) (d : Database) :
    (apply t d).purchases.find Purchase.id o.target = d.purchases.find Purchase.id o.target := by
  obtain ⟨o', hdistinct, howns⟩ := h
  exact howns.find_of_ne hdistinct.target.symm d

theorem Operation.Foreign.independent {s : Sql} (h : o.Foreign U t) (hs : o.Owns U s) :
    Independent (WalletsOpen U) s t := by
  obtain ⟨o', hdistinct, howns⟩ := h
  exact hdistinct.independent hs howns

theorem Operation.Foreign.refuseDuplicate {e : String} (he : o.externalId = some e)
    (h : o.Foreign U t) (d : Database) :
    refuseDuplicate e ((apply t d).purchases.find Purchase.externalId e) =
      refuseDuplicate e (d.purchases.find Purchase.externalId e) := by
  obtain ⟨o', hdistinct, howns⟩ := h
  rw [apply_eq]
  cases t with
  | insertPurchase row =>
    congr 1
    exact Table.find_put_of_ne _ fun he' => hdistinct.externalId e he (he' ▸ howns.2)
  | updatePurchase id u =>
    change Purchases.refuseDuplicate e
      ((PurchaseTable.update d.purchases id u).find Purchase.externalId e) = _
    rw [PurchaseTable.update]
    rw [Table.find_modify _ u.keeps (by simp)]
    cases d.purchases.find Purchase.externalId e with
    | none => rfl
    | some p => cases u <;> by_cases hp : p.id = id <;> simp [hp, Purchases.refuseDuplicate,
        PurchaseUpdate.on]
  | _ => rfl

end

section

variable {U : Set String} {o : Operation} {β : Type} {d : Database} {log : List Sql} {p : Purchase}

theorem write_apart {s : Sql} (hs : o.Owns U s) {g : Unit → Coroutine β}
    (h : (g ()).Apart (o.Foreign U) (WalletsOpen U) d (log ++ [s])) :
    (execute s >>= g).Apart (o.Foreign U) (WalletsOpen U) d log :=
  apart_execute_bind (fun _ ht => ht.independent hs) fun _ _ => h

theorem getById_apart (id : String) (ho : o.target = id) {f : Option Purchase → Coroutine β}
    (h : (f ((replay log d).purchases.find Purchase.id id)).Apart (o.Foreign U)
      (WalletsOpen U) d log) :
    (PurchaseRepository.getById id >>= f).Apart (o.Foreign U) (WalletsOpen U) d log := by
  subst ho
  rw [getById_eq]
  exact apart_query_bind (fun t ht d _ => by rw [ht.find_target d]) h

theorem updateReturning_apart {id : String} (ho : o.target = id)
    (h : (replay log d).purchases.find Purchase.id id = some p) (u : PurchaseUpdate)
    {f : Option Purchase → Coroutine β}
    (hf : (f (some (u.on p))).Apart (o.Foreign U) (WalletsOpen U) d
      (log ++ [.updatePurchase id u])) :
    (updateReturning id u >>= f).Apart (o.Foreign U) (WalletsOpen U) d log := by
  rw [updateReturning]
  rw [bind_assoc]
  apply getById_apart _ ho
  rw [h]
  change ((execute _ >>= fun _ => PurchaseRepository.getById id) >>= f).Apart _ _ _ _
  rw [bind_assoc]
  refine write_apart ?_ (getById_apart _ ho ?_)
  · exact ho.symm
  · rw [replay_append]
    exact (find_update_self h u).symm ▸ hf

theorem updateStatus_apart (h : (replay log d).purchases.find Purchase.id o.target = some p)
    (s : PurchaseStatus) {f : Option Purchase → Coroutine β}
    (hf : (f (some { p with status := s })).Apart (o.Foreign U) (WalletsOpen U) d
      (log ++ [.updatePurchase o.target (.status s)])) :
    (PurchaseRepository.updateStatus o.target s >>= f).Apart (o.Foreign U) (WalletsOpen U) d
      log := by
  rw [updateStatus_eq]
  exact updateReturning_apart rfl h (.status s) hf

theorem reversePurchase_apart {id : String} (ho : o.target = id)
    (h : (replay log d).purchases.find Purchase.id id = some p)
    {f : Option Purchase → Coroutine β}
    (hf : (f (some { p with status := .reversed, cashbackAmount := 0 })).Apart (o.Foreign U)
      (WalletsOpen U) d (log ++ [.updatePurchase id .reversed])) :
    (PurchaseRepository.reversePurchase id >>= f).Apart (o.Foreign U) (WalletsOpen U) d log := by
  rw [PurchaseRepository.reversePurchase_eq]
  exact updateReturning_apart ho h .reversed hf

theorem add_apart (row : AuditLog) {f : Unit → Coroutine β}
    (hf : ∀ d, (f ()).Apart (o.Foreign U) (WalletsOpen U) d []) :
    (AuditTrailRepository.add row >>= f).Apart (o.Foreign U) (WalletsOpen U) d log := by
  rw [AuditTrailRepository.add]
  rw [bind_assoc]
  refine write_apart ?_ (apart_commitTx_bind (hf _))
  exact trivial

theorem applyPurchaseConfirmation_apart
    (h : (replay log d).purchases.find Purchase.id o.target = some p) (hU : p.userId ∈ U)
    {f : Purchase → Coroutine β}
    (hf : ∀ p log, (f p).Apart (o.Foreign U) (WalletsOpen U) d log) :
    (applyPurchaseConfirmation p >>= f).Apart (o.Foreign U) (WalletsOpen U) d log := by
  have hid := id_of_find h
  rw [applyPurchaseConfirmation]
  rw [bind_assoc, hid]
  apply updateStatus_apart h .confirmed
  simp only [Option.getD_some]
  by_cases hc : p.cashbackAmount > 0
  · simp only [if_pos hc, bind_assoc, pure_bind, CashbackClient.confirm,
      WalletsClient.confirmPending]
    refine write_apart ?_ (write_apart ?_ (hf _ _))
    · exact hid
    · exact hU
  · simp only [if_neg hc, pure_bind]
    exact hf _ _

theorem confirmPurchase_apart
    (h : (replay log d).purchases.find Purchase.id o.target = some p) (hU : p.userId ∈ U)
    (now : Nat) {f : Unit → Coroutine β}
    (hf : ∀ d, (f ()).Apart (o.Foreign U) (WalletsOpen U) d []) :
    (confirmPurchase (auditedBroker now) p now >>= f).Apart (o.Foreign U) (WalletsOpen U) d
      log := by
  rw [confirmPurchase]
  rw [bind_assoc]
  refine applyPurchaseConfirmation_apart h hU fun q log' => ?_
  rw [bind_assoc, Core.Broker.publish_of_singleton _ (auditedBroker_confirmed now)]
  exact apart_commitTx_bind (add_apart _ hf)

theorem rejectPurchase_apart
    (h : (replay log d).purchases.find Purchase.id o.target = some p) (hU : p.userId ∈ U)
    (reason : String) (now : Nat) {f : Unit → Coroutine β}
    (hf : ∀ d, (f ()).Apart (o.Foreign U) (WalletsOpen U) d []) :
    (rejectPurchase (auditedBroker now) p reason now >>= f).Apart (o.Foreign U) (WalletsOpen U) d
      log := by
  have hid := id_of_find h
  rw [rejectPurchase]
  rw [bind_assoc, hid]
  apply updateStatus_apart h .rejected
  simp only [Option.getD_some,
    Core.Broker.publish_of_singleton _ (auditedBroker_rejected now)]
  by_cases hc : p.cashbackAmount > 0
  · simp only [if_pos hc, bind_assoc, CashbackClient.reverse, WalletsClient.reversePending]
    refine write_apart ?_ (write_apart ?_ (apart_commitTx_bind (add_apart _ hf)))
    · exact hid
    · exact hU
  · simp only [if_neg hc, bind_assoc]
    exact apart_commitTx_bind (add_apart _ hf)

end

section

variable {U : Set String} {d : Database}

def OwnerIn (U : Set String) (d : Database) (purchaseId : String) : Prop :=
  ∀ p, d.purchases.find Purchase.id purchaseId = some p → p.userId ∈ U

theorem attempt_apart (verify : Purchase → Nat → VerificationResult) (now : Nat)
    (purchaseId : String) (number : Nat) (hU : OwnerIn U d purchaseId) :
    (Operation.attempt verify now purchaseId number).prog.Apart
      ((Operation.attempt verify now purchaseId number).Foreign U) (WalletsOpen U) d [] := by
  simp only [Operation.prog, verificationAttempt, bind_assoc]
  apply getById_apart (o := .attempt verify now purchaseId number) purchaseId rfl
  rw [replay_nil]
  cases hp : d.purchases.find Purchase.id purchaseId with
  | none => exact trivial
  | some p =>
    by_cases hs : p.status = .pending
    · simp only [hs, ne_eq, not_true_eq_false, if_false]
      cases (verify p number).disposition with
      | confirmed =>
        simp only [bind_assoc]
        refine confirmPurchase_apart (o := .attempt verify now purchaseId number) ?_ (hU p hp) now
          fun _ => trivial
        exact hp
      | rejected =>
        simp only [bind_assoc]
        refine rejectPurchase_apart (o := .attempt verify now purchaseId number) ?_ (hU p hp) _ now
          fun _ => trivial
        exact hp
      | pending => exact trivial
    · simp only [if_pos hs]
      exact trivial

theorem forceReject_apart (now : Nat) (purchaseId : String) (maxAttempts : Int)
    (hU : OwnerIn U d purchaseId) :
    (Operation.forceReject now purchaseId maxAttempts).prog.Apart
      ((Operation.forceReject now purchaseId maxAttempts).Foreign U) (WalletsOpen U) d [] := by
  simp only [Operation.prog, forceReject]
  apply getById_apart (o := .forceReject now purchaseId maxAttempts) purchaseId rfl
  rw [replay_nil]
  cases hp : d.purchases.find Purchase.id purchaseId with
  | none => exact trivial
  | some p =>
    by_cases hs : p.status = .pending
    · simp only [if_pos hs]
      rw [← bind_pure closeSession]
      refine rejectPurchase_apart (o := .forceReject now purchaseId maxAttempts) ?_ (hU p hp) _ now
        fun _ => trivial
      exact hp
    · simp only [if_neg hs]
      exact trivial

theorem confirmManually_apart (now : Nat) (purchaseId adminId : String)
    (hU : OwnerIn U d purchaseId) :
    (Operation.confirmManually now purchaseId adminId).prog.Apart
      ((Operation.confirmManually now purchaseId adminId).Foreign U) (WalletsOpen U) d [] := by
  simp only [Operation.prog, confirmPurchaseManually, bind_assoc]
  apply getById_apart (o := .confirmManually now purchaseId adminId) purchaseId rfl
  rw [replay_nil]
  cases hp : d.purchases.find Purchase.id purchaseId with
  | none => exact trivial
  | some p =>
    simp only [bind_assoc]
    refine apart_lift_bind fun _ _ => ?_
    refine applyPurchaseConfirmation_apart (o := .confirmManually now purchaseId adminId) ?_
      (hU p hp) fun q log => ?_
    · exact hp
    rw [Core.Broker.publish_of_nil _ (auditedBroker_confirmedByAdmin now)]
    exact trivial

theorem reverse_apart (now : Nat) (purchaseId adminId : String) (hU : OwnerIn U d purchaseId) :
    (Operation.reverse now purchaseId adminId).prog.Apart
      ((Operation.reverse now purchaseId adminId).Foreign U) (WalletsOpen U) d [] := by
  simp only [Operation.prog, reversePurchase, bind_assoc]
  apply getById_apart (o := .reverse now purchaseId adminId) purchaseId rfl
  rw [replay_nil]
  cases hp : d.purchases.find Purchase.id purchaseId with
  | none => exact trivial
  | some p =>
    simp only [bind_assoc, Core.Broker.publish_of_singleton _ (auditedBroker_reversed now),
      CashbackClient.reverse]
    refine apart_lift_bind fun _ _ => write_apart ?_ ?_
    · exact rfl
    · by_cases hs : p.status = .pending
      · simp only [if_pos hs, WalletsClient.reversePending, bind_assoc]
        apply write_apart (s := .updateWallet p.userId _ _) (hU p hp)
        refine reversePurchase_apart (p := p) rfl ?_ ?_
        · exact hp
        · exact apart_commitTx_bind (add_apart _ fun _ => trivial)
      · simp only [if_neg hs, WalletsClient.reverseAvailable, bind_assoc]
        apply write_apart (s := .updateWallet p.userId _ _) (hU p hp)
        refine reversePurchase_apart (p := p) rfl ?_ ?_
        · exact hp
        · exact apart_commitTx_bind (add_apart _ fun _ => trivial)

theorem catalogQuery_apart {ρ β : Type} {o : Operation} (f : Catalog → ρ) {g : ρ → Coroutine β}
    (h : ∀ r, (g r).Apart (o.Foreign U) (WalletsOpen U) d []) :
    (query (fun d => f d.catalog) >>= g).Apart (o.Foreign U) (WalletsOpen U) d [] :=
  apart_query_bind (fun t _ d _ => by simp only [catalog_apply]) (h _)

theorem ingest_apart (purchaseId transactionId : String) (today now : Nat) (data : PurchaseCreate)
    (currentUserId : String) :
    (Operation.ingest purchaseId transactionId today now data currentUserId).prog.Apart
      ((Operation.ingest purchaseId transactionId today now data currentUserId).Foreign U)
      (WalletsOpen U) d [] := by
  simp only [Operation.prog, ingestPurchase, bind_assoc]
  refine apart_lift_bind fun _ _ => ?_
  rw [getByExternalId_eq]
  refine apart_query_bind (fun t ht d _ => ?_) (apart_lift_bind fun _ _ => ?_)
  · rw [ht.refuseDuplicate rfl]
  refine apart_lift_bind fun _ _ => ?_
  rw [getUserById_eq]
  refine catalogQuery_apart (fun c => c.users.find User.id data.userId) fun _ => ?_
  refine apart_lift_bind fun _ _ => ?_
  rw [getMerchantById_eq]
  refine catalogQuery_apart (fun c => c.merchants.find Offers.Merchant.id data.merchantId)
    fun _ => ?_
  refine apart_lift_bind fun _ _ => ?_
  simp only [OffersClient.getActiveOfferForMerchant, bind_assoc]
  refine catalogQuery_apart (fun c => Offers.getActiveOfferForMerchant
    PurchaseException.multipleResultsFound c.offers data.merchantId today) fun _ => ?_
  refine apart_lift_bind fun _ _ => ?_
  refine apart_lift_bind fun offer _ => ?_
  refine apart_lift_bind fun cashback _ => ?_
  simp only [PurchaseRepository.addPurchase, bind_assoc]
  refine apart_execute_bind (fun t ht => ht.independent ?_) fun d' hd => ?_
  · exact ⟨rfl, rfl⟩
  have hfree :
      d.purchases.Free (newPurchase purchaseId now data offer.id cashback.cashbackAmount) :=
    (exec_insertPurchase_iff d _).mp ⟨d', hd⟩
  have hview : (replay ([] ++ [Sql.insertPurchase (newPurchase purchaseId now data offer.id
      cashback.cashbackAmount)]) d).purchases.find Purchase.id purchaseId =
      some (newPurchase purchaseId now data offer.id cashback.cashbackAmount) := by
    rw [List.nil_append, replay_cons, replay_nil, apply_insertPurchase]
    exact Table.find_put_self _ hfree (by simp)
  refine getById_apart (o := .ingest purchaseId transactionId today now data currentUserId)
    purchaseId rfl ?_
  rw [hview]
  simp only [pure_bind, CashbackClient.create, WalletsClient.creditPending]
  refine apart_execute_bind (fun t ht => ht.independent ?_) fun _ _ => write_apart ?_ ?_
  · exact ⟨rfl, rfl⟩
  · exact trivial
  · exact trivial

theorem prog_apart (o : Operation) (hU : OwnerIn U d o.target) :
    o.prog.Apart (o.Foreign U) (WalletsOpen U) d [] := by
  cases o with
  | ingest => exact ingest_apart _ _ _ _ _ _
  | attempt => exact attempt_apart _ _ _ _ hU
  | forceReject => exact forceReject_apart _ _ _ hU
  | confirmManually => exact confirmManually_apart _ _ _ hU
  | reverse => exact reverse_apart _ _ _ hU

end

def Database.owners (d : Database) : Set String := {u | ∃ p ∈ d.purchases.rows, p.userId = u}

theorem ownerIn_owners (d : Database) (purchaseId : String) : OwnerIn d.owners d purchaseId :=
  fun p hp => ⟨p, mem_of_find hp, rfl⟩

def Operation.users (o : Operation) (d : Database) : Set String :=
  match o with
  | .ingest _ _ _ _ data _ => {data.userId}
  | o => {u | ∃ p, d.purchases.find Purchase.id o.target = some p ∧ p.userId = u}

def Sql.Credits (V : Set String) : Sql → Prop
  | .upsertWallet userId _ => userId ∈ V
  | .updateWallet userId _ _ => userId ∈ V
  | _ => True

theorem Sql.Credits.wallets_of_not_mem {V : Set String} {t : Sql} (h : t.Credits V) {u : String}
    (hu : u ∉ V) (d : Database) : (apply t d).wallets u = d.wallets u := by
  rw [apply_eq]
  cases t with
  | upsertWallet v amount | updateWallet v a b =>
    have hne : u ≠ v := fun e => hu (e ▸ h)
    simp [Sql.onWallets, hne]
  | _ => rfl

section

variable {d : Database}

theorem confirmationWrites_own {o : Operation} {p : Purchase}
    (hp : d.purchases.find Purchase.id o.target = some p) :
    ∀ t ∈ confirmationWrites p, o.Owns d.owners t ∧ t.Credits {p.userId} := by
  have hid := id_of_find hp
  have hU := ownerIn_owners d o.target p hp
  by_cases hc : p.cashbackAmount > 0 <;>
    simp [confirmationWrites, hc, Operation.Owns, Sql.Credits, hid, hU]

theorem rejectionWrites_own {o : Operation} {p : Purchase}
    (hp : d.purchases.find Purchase.id o.target = some p) :
    ∀ t ∈ rejectionWrites p, o.Owns d.owners t ∧ t.Credits {p.userId} := by
  have hid := id_of_find hp
  have hU := ownerIn_owners d o.target p hp
  by_cases hc : p.cashbackAmount > 0 <;>
    simp [rejectionWrites, hc, Operation.Owns, Sql.Credits, hid, hU]

theorem reversalWrites_own {o : Operation} {p : Purchase}
    (hp : d.purchases.find Purchase.id o.target = some p) :
    ∀ t ∈ reversalWrites p, o.Owns d.owners t ∧ t.Credits {p.userId} := by
  have hid := id_of_find hp
  have hU := ownerIn_owners d o.target p hp
  by_cases hs : p.status = .pending <;>
    simp [reversalWrites, hs, Operation.Owns, Sql.Credits, hid, hU]

theorem audited_own {o : Operation} {V : Set String} {writes : List Sql} (row : AuditLog)
    (h : ∀ t ∈ writes, o.Owns d.owners t ∧ t.Credits V) :
    ∀ t ∈ writes ++ [.insertAuditLog row], o.Owns d.owners t ∧ t.Credits V := by
  intro t ht
  obtain ht | ht := List.mem_append.mp ht
  · exact h t ht
  · rw [List.mem_singleton.mp ht]
    exact ⟨trivial, trivial⟩

/-- What an operation commits is on its own purchase and its own user's wallet. -/
theorem committed_own (o : Operation) (d : Database) :
    ∀ t ∈ o.prog.committed d [], o.Owns d.owners t ∧ t.Credits (o.users d) := by
  have heffect := o.effect d
  have hsub : ∀ {p : Purchase} {writes : List Sql}, p.userId ∈ o.users d →
      (∀ t ∈ writes, o.Owns d.owners t ∧ t.Credits {p.userId}) →
      ∀ t ∈ writes, o.Owns d.owners t ∧ t.Credits (o.users d) := by
    intro p writes hp h t ht
    refine ⟨(h t ht).1, ?_⟩
    have hcredits := (h t ht).2
    cases t with
    | upsertWallet | updateWallet => exact hcredits ▸ hp
    | _ => trivial
  generalize o.prog.committed d [] = writes at heffect
  cases heffect with
  | idle => simp
  | ingested h =>
    obtain ⟨offer, -, -, cashback, -, rfl⟩ := h.offer
    simp [ingestionWrites, newTransaction, newPurchase, Operation.Owns, Sql.Credits,
      Operation.users, Operation.target, Operation.externalId, Operation.transactionId]
  | confirmed h _ =>
    exact hsub ⟨_, h, rfl⟩ (audited_own _ (confirmationWrites_own (o := .attempt _ _ _ _) h))
  | rejected reason h _ =>
    exact hsub ⟨_, h, rfl⟩ (audited_own _ (rejectionWrites_own (o := .attempt _ _ _ _) h))
  | exhausted h _ =>
    exact hsub ⟨_, h, rfl⟩ (audited_own _ (rejectionWrites_own (o := .forceReject _ _ _) h))
  | confirmedManually h _ =>
    exact hsub ⟨_, h, rfl⟩ (confirmationWrites_own (o := .confirmManually _ _ _) h)
  | reversed h _ =>
    exact hsub ⟨_, h, rfl⟩ (audited_own _ (reversalWrites_own (o := .reverse _ _ _) h))

end

section

variable {ι : Type}

theorem foreign_of_distinct {o : ι → Operation} (hdistinct : ∀ i j, i ≠ j → (o i).Distinct (o j))
    (d : Database) (i j : ι) (hij : i ≠ j) :
    ∀ t ∈ (o j).prog.committed d [], (o i).Foreign d.owners t :=
  fun t ht => ⟨o j, hdistinct i j hij, (committed_own (o j) d t ht).1⟩

variable [DecidableEq ι] [Fintype ι]

/-- However operations on different purchases interleave, they leave what any
serial execution of them leaves, and nobody else's rows change. -/
theorem eq_serial_of_distinct (o : ι → Operation)
    (hdistinct : ∀ i j, i ≠ j → (o i).Distinct (o j)) (d₀ : Database)
    (hwallets : WalletsOpen d₀.owners d₀) {s : Sys ι Database Sql PurchaseException Unit}
    (hr : Sys.Reach (fun _ _ a => a = .advance) (Sys.start d₀ fun i => (o i).prog) s)
    (hdone : ∀ i, (s.session i).prog.Done) :
    (∀ order : List ι, order.Nodup → (∀ i, i ∈ order) →
      s.db = serial (fun i => (o i).prog) order d₀) ∧
    (∀ id, (∀ i, (o i).target ≠ id) →
      s.db.purchases.find Purchase.id id = d₀.purchases.find Purchase.id id) ∧
    ∀ u, (∀ i, u ∉ (o i).users d₀) → s.db.wallets u = d₀.wallets u := by
  have hapart : ∀ i, (o i).prog.Apart ((o i).Foreign d₀.owners) (WalletsOpen d₀.owners) d₀ [] :=
    fun i => prog_apart (o i) (ownerIn_owners d₀ (o i).target)
  have hforeign := foreign_of_distinct hdistinct d₀
  have hserial : ∀ order : List ι, order.Nodup → (∀ i, i ∈ order) →
      s.db = serial (fun i => (o i).prog) order d₀ := fun order hnodup hall =>
    Sys.eq_serial_of_apart (walletsOpen_apply d₀.owners) hwallets hapart hforeign hr hdone
      hnodup hall
  have hreplay : s.db =
      replay (Finset.univ.toList.flatMap fun i => (o i).prog.committed d₀ []) d₀ := by
    rw [hserial Finset.univ.toList (Finset.nodup_toList _) (by simp)]
    exact serial_eq_replay (walletsOpen_apply d₀.owners) hforeign (Finset.nodup_toList _) hwallets
      fun i _ => ⟨hapart i, rfl⟩
  have hown : ∀ t ∈ Finset.univ.toList.flatMap fun i => (o i).prog.committed d₀ [],
      ∃ i, (o i).Owns d₀.owners t ∧ t.Credits ((o i).users d₀) := by
    intro t ht
    obtain ⟨i, -, hti⟩ := List.mem_flatMap.mp ht
    exact ⟨i, committed_own (o i) d₀ t hti⟩
  refine ⟨hserial, fun id hid => ?_, fun u hu => ?_⟩
  · rw [hreplay]
    refine replay_invariant (P := fun d : Database => d.purchases.find Purchase.id id = _) _ _ ?_
      rfl
    intro t ht d hd
    obtain ⟨i, howns, -⟩ := hown t ht
    exact (howns.find_of_ne (hid i) d).trans hd
  · rw [hreplay]
    refine replay_invariant (P := fun d : Database => d.wallets u = _) _ _ ?_ rfl
    intro t ht d hd
    obtain ⟨i, -, hcredits⟩ := hown t ht
    exact (hcredits.wallets_of_not_mem (hu i) d).trans hd

end

theorem owners_apply {t : Sql} (h : ∀ row, t ≠ .insertPurchase row) (d : Database) :
    (apply t d).owners = d.owners := by
  rw [apply_eq]
  cases t with
  | insertPurchase row => exact absurd rfl (h row)
  | updatePurchase id u =>
    ext v
    have huser : ∀ p, (if p.id = id then u.on p else p).userId = p.userId := by
      intro p
      by_cases hp : p.id = id <;> cases u <;> simp [hp, PurchaseUpdate.on]
    simp [Database.owners, Sql.onPurchases, PurchaseTable.update, Table.modify, huser]
  | _ => rfl

theorem walletsOpen_replay {writes : List Sql} (h : ∀ t ∈ writes, ∀ row, t ≠ .insertPurchase row)
    {d : Database} (hd : WalletsOpen d.owners d) :
    WalletsOpen (replay writes d).owners (replay writes d) := by
  refine replay_invariant (P := fun d : Database => WalletsOpen d.owners d) _ _ ?_ hd
  intro t ht d hd
  rw [owners_apply (h t ht)]
  exact walletsOpen_apply _ _ _ hd

theorem walletsOpen_confirmation (p : Purchase) {d : Database} (hd : WalletsOpen d.owners d) :
    WalletsOpen (replay (confirmationWrites p) d).owners (replay (confirmationWrites p) d) := by
  refine walletsOpen_replay ?_ hd
  by_cases hc : p.cashbackAmount > 0 <;> simp [confirmationWrites, hc]

theorem walletsOpen_rejection (p : Purchase) {d : Database} (hd : WalletsOpen d.owners d) :
    WalletsOpen (replay (rejectionWrites p) d).owners (replay (rejectionWrites p) d) := by
  refine walletsOpen_replay ?_ hd
  by_cases hc : p.cashbackAmount > 0 <;> simp [rejectionWrites, hc]

theorem walletsOpen_reversal (p : Purchase) {d : Database} (hd : WalletsOpen d.owners d) :
    WalletsOpen (replay (reversalWrites p) d).owners (replay (reversalWrites p) d) := by
  refine walletsOpen_replay ?_ hd
  by_cases hs : p.status = .pending <;> simp [reversalWrites, hs]

theorem walletsOpen_ingestion (transactionId : String) (row : Purchase) {d : Database}
    (hd : WalletsOpen d.owners d) (hfree : d.purchases.Free row) :
    WalletsOpen (replay (ingestionWrites transactionId row) d).owners
      (replay (ingestionWrites transactionId row) d) := by
  rw [replay_ingestionWrites]
  rintro u ⟨p, hp, rfl⟩
  rw [Table.put_rows_of_free _ hfree, Multiset.mem_cons] at hp
  by_cases hu : p.userId = row.userId
  · simp [hu]
  · obtain rfl | hp := hp
    · exact absurd rfl hu
    · simpa [hu] using hd p.userId ⟨p, hp, rfl⟩

/-- In every state that a run reaches, the owners of purchases have wallets. -/
theorem walletsOpen_runSteps (catalog : Catalog) (wallets : String → Option Wallet)
    (auditLogs : Multiset AuditLog) (steps : List Step) :
    WalletsOpen (runSteps steps (noPurchases catalog wallets auditLogs)).owners
      (runSteps steps (noPurchases catalog wallets auditLogs)) := by
  refine Transition.run_invariant (I := fun d : Database => WalletsOpen d.owners d)
    (C := fun _ _ => True) ?_ ?_ fun _ _ _ => trivial
  · rintro u ⟨p, hp, -⟩
    exact absurd hp (Multiset.notMem_zero p)
  · intro s d hd _
    cases s with
    | administer catalog => exact hd
    | operation o =>
      have heffect := o.effect d
      change WalletsOpen (o.exec d).owners (o.exec d)
      rw [o.exec_eq_replay]
      generalize o.prog.committed d [] = writes at heffect
      cases heffect with
      | idle => exact hd
      | ingested h => exact walletsOpen_ingestion _ _ hd h.purchase
      | confirmed => exact replay_audited _ _ _ ▸ walletsOpen_confirmation _ hd
      | rejected => exact replay_audited _ _ _ ▸ walletsOpen_rejection _ hd
      | exhausted => exact replay_audited _ _ _ ▸ walletsOpen_rejection _ hd
      | confirmedManually => exact walletsOpen_confirmation _ hd
      | reversed => exact replay_audited _ _ _ ▸ walletsOpen_reversal _ hd

def twoPurchases : Database :=
  runSteps [.operation (.ingest "p" "t" 1 1
      (oneRequest "ext" 10000 hundredEuros_pos one_le_length_ext) "ana"),
    .operation (.ingest "q" "u" 1 1 (oneRequest "ext-2" 5000 (by decide)) "ana"),
    .operation (.attempt (fun _ _ => ⟨.confirmed, none⟩) 2 "p" 1)]
    (noPurchases oneOffer noWallets 0)

def threeOperations (i : Fin 3) : Operation :=
  match i with
  | 0 => .reverse 3 "p" "root"
  | 1 => .attempt (fun _ _ => ⟨.confirmed, none⟩) 3 "q" 1
  | 2 => .ingest "r" "v" 1 3 (oneRequest "ext-3" 2000 twentyEuros_pos) "ana"

theorem threeOperations_distinct (i j : Fin 3) (hij : i ≠ j) :
    (threeOperations i).Distinct (threeOperations j) := by
  fin_cases i <;> fin_cases j <;> first
    | exact absurd rfl hij
    | constructor <;> simp [threeOperations, Operation.target, Operation.externalId,
        Operation.transactionId]

/-- The reversal and the confirmation read before the ingestion ends. -/
def threeOperationsEnd : Sys (Fin 3) Database Sql PurchaseException Unit :=
  (Sys.play (fun _ _ => true)
    [0, 1, 2, 2, 2, 2, 0, 1, 1, 1, 2, 2, 2, 2, 2, 1, 1, 1, 0, 0, 0, 1, 0, 1, 0, 0, 0, 1]
    (Sys.start twoPurchases fun i => (threeOperations i).prog)).get (by decide +kernel)

theorem threeOperationsEnd_reach : Sys.Reach (fun _ _ a => a = .advance)
    (Sys.start twoPurchases fun i => (threeOperations i).prog) threeOperationsEnd :=
  Sys.reach_of_play (C := fun _ _ a => a = .advance) (fun _ _ _ => rfl) Sys.Reach.refl
    (Option.some_get _).symm

theorem eq_serial_of_distinct_threeOperations :
    threeOperationsEnd.db.wallets "ana" = some ⟨200, 500, 0⟩ ∧
    (∀ order : List (Fin 3), order.Nodup → (∀ i, i ∈ order) →
      threeOperationsEnd.db = serial (fun i => (threeOperations i).prog) order twoPurchases) ∧
    (∀ id, (∀ i, (threeOperations i).target ≠ id) →
      threeOperationsEnd.db.purchases.find Purchase.id id =
        twoPurchases.purchases.find Purchase.id id) ∧
    ∀ u, (∀ i, u ∉ (threeOperations i).users twoPurchases) →
      threeOperationsEnd.db.wallets u = twoPurchases.wallets u :=
  ⟨by decide +kernel, eq_serial_of_distinct threeOperations threeOperations_distinct twoPurchases
    (walletsOpen_runSteps _ _ _ _) threeOperationsEnd_reach (by decide +kernel)⟩

end ClickNBack.Purchases
