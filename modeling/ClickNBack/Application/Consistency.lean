import ClickNBack.Application.Authority
import ClickNBack.Cashback.Calculator
import ClickNBack.Purchases.Ingestion

namespace ClickNBack.Application

open Numeric Relational ReadCommitted Purchases

theorem allAdmissible_of_forall {log : List Sql} (h : ∀ s ∈ log, ∀ d, Admissible s d)
    (d : Database) : AllAdmissible log d := by
  induction log generalizing d with
  | nil => trivial
  | cons s log ih =>
    exact ⟨h s List.mem_cons_self d, ih (fun t ht => h t (List.mem_cons_of_mem s ht)) _⟩

section

variable {env : Environment} {log : List Sql} {d : Database}

theorem userExists_of_auth {u : Auth.User} (hu : u ∈ d.auth.users.rows) : UserExists d u.id := by
  obtain ⟨r, hr, ⟨⟩⟩ := (d.users.mem_view authUser_keys).mp hu
  exact ⟨r, hr, rfl⟩

theorem coeff_pos_of_lt {p : Printed} (h : PyFloat.lt 0 (.finite p) = true) :
    0 < p.value.coeff := by
  have hlt := (Decimal.lt_iff ⟨0, 0⟩ p.value).mp h
  rw [Cashback.zero_toRat] at hlt
  exact Decimal.toRat_pos.mp hlt

theorem coeff_pos_of_not_le {p : Printed} (h : (PyFloat.finite p).le 0 = false) :
    0 < p.value.coeff := Decimal.toRat_pos.mp (Cashback.pos_of_not_le h)

theorem finite_of_decimal {x : PyFloat} (h : (decimal x).isSome) : ∃ p, x = .finite p := by
  cases x with
  | finite p => exact ⟨p, rfl⟩
  | inf | negInf | nan => cases h

theorem payable_mapToDomainOffer {max : PyFloat} {data : Offers.OfferCreate} (offerId : String)
    (hfinite : FiniteOffer data)
    (hvalue : Offers.enforceCashbackValueValidity max data.cashbackType data.cashbackValue =
      .ok ()) : (payable (Offers.mapToDomainOffer offerId data)).isSome := by
  obtain ⟨v, hv⟩ := finite_of_decimal hfinite.1
  obtain ⟨c, hc⟩ := finite_of_decimal hfinite.2
  rw [hv] at hvalue
  rw [Option.isSome_iff_exists]
  cases htype : data.cashbackType with
  | percent =>
    have hlt : PyFloat.lt 0 (.finite v) = true := by
      by_contra hn
      rw [htype, Offers.enforceCashbackValueValidity, if_pos fun h => hn h.1] at hvalue
      cases hvalue
    refine ⟨⟨offerId, data.merchantId, v.value, none, data.startDate, data.endDate, c.value, true⟩,
      payable_eq_some.mpr ?_⟩
    rw [Offers.mapToDomainOffer, htype, if_pos rfl, if_pos rfl, hv, hc]
    exact ⟨rfl, rfl, rfl, ⟨(coeff_pos_of_lt hlt).le, by simp⟩, rfl, rfl, rfl, rfl, rfl⟩
  | fixed =>
    have hle : (PyFloat.finite v).le 0 = false := by
      by_contra hn
      rw [htype, Offers.enforceCashbackValueValidity, if_pos (Bool.of_not_eq_false hn)] at hvalue
      cases hvalue
    refine ⟨⟨offerId, data.merchantId, ⟨0, 0⟩, some v.value, data.startDate, data.endDate, c.value,
      true⟩, payable_eq_some.mpr ?_⟩
    rw [Offers.mapToDomainOffer, htype, if_neg (by simp), if_neg (by simp), hv, hc]
    refine ⟨rfl, rfl, rfl, ⟨le_refl _, ?_⟩, rfl, rfl, rfl, rfl, rfl⟩
    rintro f ⟨⟩
    exact (coeff_pos_of_not_le hle).le

theorem purchaseGrounded_of_backed {data : PurchaseCreate} {purchaseId offerId : String}
    {now : Nat} {cashbackAmount : Int}
    (h : Backed d.ledger data (newPurchase purchaseId now data offerId cashbackAmount)) :
    PurchaseGrounded d (newPurchase purchaseId now data offerId cashbackAmount) where
  user := by
    obtain ⟨u, hu, hid⟩ := h.user
    obtain ⟨r, hr, ⟨⟩⟩ := (d.users.mem_view purchaseUser_keys).mp hu
    exact ⟨r, hr, hid⟩
  merchant := by
    obtain ⟨m, hm, hid⟩ := h.merchant
    obtain ⟨r, hr, ⟨⟩⟩ := (d.merchants.mem_view shopMerchant_keys).mp hm
    exact ⟨r, hr, hid⟩
  offer := by
    obtain ⟨o, ho, hoffer, hmerchant, hcashback⟩ := h.offer
    obtain ⟨r, hr, hp⟩ := (d.offers.mem_view payable_keys).mp ho
    obtain ⟨-, -, -, -, hid, hm, -⟩ := payable_eq_some.mp hp
    refine ⟨r, hr, ?_, hm.symm.trans hmerchant, Or.inr ⟨o, data, hp, rfl, hcashback⟩⟩
    rw [hoffer, hid]

theorem mem_of_insertPurchase {p : Purchase} {d' : Database}
    (h : Statement.exec (Sql.purchases (.insertPurchase p)) d = .ok d') :
    d'.purchases.rows = p ::ₘ d.purchases.rows := by
  obtain ⟨l, hl, rfl⟩ := exec_purchases.mp h
  have hfree := (exec_insertPurchase_iff d.ledger p).mp ⟨l, hl⟩
  rw [← apply_of_ok hl, apply_insertPurchase]
  exact Table.put_rows_of_free _ hfree

theorem ingestion_admissible {purchaseId transactionId currentUserId : String} {now : Nat}
    {data : PurchaseCreate} {l : List Purchases.Sql}
    (h : Ingestion purchaseId transactionId now data currentUserId l d.ledger)
    (hruns : Runs (l.map Sql.purchases) d) : AllAdmissible (l.map Sql.purchases) d := by
  obtain ⟨-, offerId, cashbackAmount, hbacked, rfl⟩ := h
  have hgrounded := purchaseGrounded_of_backed hbacked
  obtain ⟨d₁, h₁, d₂, h₂, -⟩ := hruns
  have hmem : newPurchase purchaseId now data offerId cashbackAmount ∈ d₁.purchases.rows := by
    rw [mem_of_insertPurchase h₁]
    exact Multiset.mem_cons_self _ _
  have htransaction : TransactionGrounded d₁
      (newTransaction transactionId (newPurchase purchaseId now data offerId cashbackAmount)) :=
    ⟨_, hmem, rfl, rfl, Or.inl rfl⟩
  refine ⟨hgrounded, ?_⟩
  rw [apply_of_ok h₁]
  refine ⟨htransaction, ?_⟩
  rw [apply_of_ok h₂]
  refine ⟨?_, trivial⟩
  exact ((exec_later h₁ hgrounded).trans (exec_later h₂ htransaction)).userExists hgrounded.user

theorem settlement_admissible {U : Set PurchaseUpdate} {V : Set SignedUpdate} {id : String}
    {l : List Purchases.Sql} (h : ∀ s ∈ l, About U V id d.ledger s) :
    AllAdmissible (l.map Sql.purchases) d := by
  refine allAdmissible_of_forall (List.forall_mem_map.mpr fun s hs d' => ?_) d
  have habout := h s hs
  cases s with
  | updatePurchase id' u => exact habout.2.2
  | updateTransaction | updateWallet | insertAuditLog => trivial
  | insertPurchase | insertTransaction | upsertWallet => exact habout.elim

theorem Request.May.admissible {r : Request} (h : r.May env log d) (hruns : Runs log d) :
    AllAdmissible log d := by
  by_cases hpart : r.part = .purchases
  · cases h.touches hpart with
    | ingestion huser hl => exact ingestion_admissible hl hruns
    | settlement hU hsettles hrecords hl => exact settlement_admissible hl.about
    | nothing => trivial
  · cases r with
    | register hashPassword userId email password =>
      obtain ⟨l, rfl, -, rfl⟩ := h
      exact ⟨rfl, trivial⟩
    | login readings email password =>
      obtain ⟨l, rfl, u, hu, -, -, row, ⟨token, -, rfl⟩, rfl⟩ := h
      exact ⟨userExists_of_auth hu, trivial⟩
    | refresh readings refreshToken =>
      obtain ⟨l, rfl, u, hu, -, t, -, -, row, n, ⟨token, -, rfl⟩, rfl⟩ := h
      exact ⟨trivial, userExists_of_auth hu, trivial⟩
    | admin instant token call =>
      obtain ⟨u, -, -, hmay⟩ := h
      cases call with
      | createMerchant | setMerchantStatus | setOfferStatus | setFeatureFlag =>
        obtain ⟨l, rfl, -⟩ := hmay
        refine allAdmissible_of_forall (List.forall_mem_map.mpr fun s _ _ => ?_) d
        cases s <;> trivial
      | createOffer offerId today data finite =>
        obtain ⟨l, rfl, ⟨m, hm, hid⟩, hvalid, rfl⟩ := hmay
        obtain ⟨r, hr, ⟨⟩⟩ := (d.merchants.mem_view shopMerchant_keys).mp hm
        exact ⟨⟨⟨r, hr, hid⟩, payable_mapToDomainOffer offerId finite hvalid.value⟩, trivial⟩
      | confirmPurchase | reversePurchase => exact absurd rfl hpart
    | user | job => exact absurd rfl hpart

theorem Request.May.part {r : Request} (h : r.May env log d) : ∀ s ∈ log, s.part = r.part := by
  cases r with
  | register | login | refresh | job =>
    obtain ⟨l, rfl, -⟩ := h
    exact List.forall_mem_map.mpr fun s _ => rfl
  | admin instant token call =>
    obtain ⟨u, -, -, hmay⟩ := h
    cases call <;> obtain ⟨l, rfl, -⟩ := hmay <;> exact List.forall_mem_map.mpr fun s _ => rfl
  | user instant token call =>
    obtain ⟨u, -, hmay⟩ := h
    cases call <;> obtain ⟨l, rfl, -⟩ := hmay <;> exact List.forall_mem_map.mpr fun s _ => rfl

theorem Booked.later {d' : Database} (h : Booked d) (hlater : Later d d')
    (hrows : ∀ p ∈ d'.purchases.rows, Owner p.id d.ledger p.userId ∨
      (∃ t ∈ d'.transactions.rows, t.purchaseId = p.id) ∧ (d'.wallets p.userId).isSome) :
    Booked d' := by
  intro p hp
  obtain ⟨q, hq, hid, huser⟩ | hnew := hrows p hp
  · obtain ⟨⟨t, ht, hpurchase⟩, hwallet⟩ := h q hq
    obtain ⟨t', ht', hsame⟩ := hlater.transactions t ht
    have hpurchase' := congrArg CashbackTransaction.purchaseId hsame
    obtain ⟨w, hw⟩ := Option.isSome_iff_exists.mp hwallet
    obtain ⟨w', hw', -⟩ := hlater.wallets _ w hw
    refine ⟨⟨t', ht', (Eq.trans hpurchase' hpurchase).trans hid⟩, ?_⟩
    rw [← huser, hw']
    rfl
  · exact hnew

theorem ledger_replay {l : List Purchases.Sql} (hruns : Runs (l.map Sql.purchases) d) :
    Runs l d.ledger ∧ (replay (l.map Sql.purchases) d).ledger = replay l d.ledger :=
  purchasesPart_faithful.runs hruns

theorem Booked.unwritten (h : Booked d) (hlater : Later d (replay log d))
    (hpart : ∀ s ∈ log, s.part ≠ .purchases) : Booked (replay log d) := by
  refine h.later hlater fun p hp => Or.inl ⟨p, ?_, rfl, rfl⟩
  have hpurchases : (replay log d).purchases = d.purchases :=
    congrArg Prod.fst (tables_replay hpart d)
  rw [hpurchases] at hp
  exact hp

theorem Booked.settlement {U : Set PurchaseUpdate} {V : Set SignedUpdate} {id : String}
    {l : List Purchases.Sql} (h : Booked d)
    (hruns : Runs (l.map Sql.purchases) d) (hlater : Later d (replay (l.map Sql.purchases) d))
    (habout : ∀ s ∈ l, About U V id d.ledger s) : Booked (replay (l.map Sql.purchases) d) := by
  refine h.later hlater fun p hp => Or.inl (owner_replay habout ⟨p, ?_, rfl, rfl⟩)
  rw [← (ledger_replay hruns).2]
  exact hp

theorem ingestion_rows {purchaseId transactionId currentUserId : String} {now : Nat}
    {data : PurchaseCreate} {l : List Purchases.Sql}
    (hl : Ingestion purchaseId transactionId now data currentUserId l d.ledger)
    (hruns : Runs (l.map Sql.purchases) d) :
    currentUserId = data.userId ∧ ∃ offerId cashbackAmount row,
      row = newPurchase purchaseId now data offerId cashbackAmount ∧
      (replay (l.map Sql.purchases) d).purchases.rows = row ::ₘ d.purchases.rows ∧
      (replay (l.map Sql.purchases) d).transactions.rows =
        newTransaction transactionId row ::ₘ d.transactions.rows ∧
      (replay (l.map Sql.purchases) d).wallets = Function.update d.wallets row.userId
        (some (credit row.cashbackAmount (d.wallets row.userId))) ∧
      (replay (l.map Sql.purchases) d).auditLogs = d.auditLogs := by
  obtain ⟨huser, offerId, cashbackAmount, -, rfl⟩ := hl
  refine ⟨huser, offerId, cashbackAmount, _, rfl, ?_⟩
  generalize newPurchase purchaseId now data offerId cashbackAmount = row at *
  obtain ⟨hwrites, hledger⟩ := ledger_replay hruns
  obtain ⟨hpurchase, htransaction⟩ := (runs_ingestionWrites _ _ _).mp hwrites
  rw [replay_ingestionWrites] at hledger
  have hpurchases := congrArg (fun l => l.purchases.rows) hledger
  have htransactions := congrArg (fun l => l.transactions.rows) hledger
  have hwallets := congrArg Purchases.Database.wallets hledger
  have hauditLogs := congrArg Purchases.Database.auditLogs hledger
  exact ⟨hpurchases.trans (Table.put_rows_of_free _ hpurchase),
    htransactions.trans (Table.put_rows_of_free _ htransaction), hwallets, hauditLogs⟩

theorem Booked.ingestion {purchaseId transactionId currentUserId : String} {now : Nat}
    {data : PurchaseCreate} {l : List Purchases.Sql} (h : Booked d)
    (hruns : Runs (l.map Sql.purchases) d) (hlater : Later d (replay (l.map Sql.purchases) d))
    (hl : Ingestion purchaseId transactionId now data currentUserId l d.ledger) :
    Booked (replay (l.map Sql.purchases) d) := by
  obtain ⟨-, -, -, row, -, hpurchases, htransactions, hwallets, -⟩ := ingestion_rows hl hruns
  refine h.later hlater fun p hp => ?_
  obtain rfl | hp := Multiset.mem_cons.mp (hpurchases ▸ hp)
  · refine Or.inr ⟨⟨newTransaction transactionId p, ?_, rfl⟩, ?_⟩
    · exact htransactions ▸ Multiset.mem_cons_self _ _
    · exact Option.isSome_of_eq_some ((congrFun hwallets p.userId).trans (Function.update_self ..))
  · exact Or.inl ⟨p, hp, rfl, rfl⟩

theorem Request.May.booked {r : Request} (h : r.May env log d) (hruns : Runs log d)
    (hlater : Later d (replay log d)) (hbooked : Booked d) : Booked (replay log d) := by
  by_cases hpart : r.part = .purchases
  · cases h.touches hpart with
    | ingestion huser hl => exact hbooked.ingestion hruns hlater hl
    | settlement hU hsettles hrecords hl => exact hbooked.settlement hruns hlater hl.about
    | nothing => exact hbooked
  · exact hbooked.unwritten hlater fun s hs => h.part s hs ▸ hpart

structure Consistent (d : Database) : Prop where
  references : References d
  booked : Booked d

theorem rules {ι : Type} (env : Environment) (requests : ι → Request) :
    Rules Consistent Later fun i => (requests i).May env where
  refl := Later.refl
  trans _ _ _ := Later.trans
  keeps hd hruns hmay := by
    obtain ⟨hreferences, hlater⟩ := hd.references.replay hruns (hmay.admissible hruns)
    exact ⟨⟨hreferences, hmay.booked hruns hlater hd.booked⟩, hlater⟩

def startRequests {ι : Type} (env : Environment) (requests : ι → Request) (d₀ : Database) :
    Sys ι Database Sql AppException Unit := Sys.start d₀ fun i => (requests i).prog env

/-- However the sessions of any requests interleave and fail, what is committed is a
history of transactions, each one that its request may commit in the rows that it meets;
the rows stay consistent and come after those of the start. -/
theorem history {ι : Type} [DecidableEq ι] [Fintype ι] {requests : ι → Request} {d₀ : Database}
    (hd : Consistent d₀) {C : Sys ι Database Sql AppException Unit → ι → Action AppException → Prop}
    {s : Sys ι Database Sql AppException Unit}
    (hr : Sys.Reach C (startRequests env requests d₀) s) :
    ∃ h : List (ι × List Sql), Kept (fun i => (requests i).May env) h d₀ ∧
      s.db = replay (h.flatMap Prod.snd) d₀ ∧ Consistent s.db ∧ Later d₀ s.db :=
  Sys.history_of_reach uniqueKeys (rules env requests) hd (fun i => (requests i).abides d₀) hr

end

end ClickNBack.Application
