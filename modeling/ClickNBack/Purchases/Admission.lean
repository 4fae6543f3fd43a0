import ClickNBack.Core.Result
import ClickNBack.Purchases.Effects

namespace ClickNBack.Purchases

open Relational ReadCommitted Prog

/-- The row that the checks of `ingest_purchase` admit, or the exception of the
first check that fails. -/
def admission (purchaseId : String) (today now : Nat) (data : PurchaseCreate)
    (currentUserId : String) (d : Database) : Except PurchaseException Purchase := do
  enforcePurchaseOwnership currentUserId data.userId
  refuseDuplicate data.externalId (d.purchases.find Purchase.externalId data.externalId)
  enforceCurrencyEur data.currency
  enforceUserActive (d.catalog.users.find User.id data.userId) data.userId
  enforceMerchantActive (d.catalog.merchants.find Offers.Merchant.id data.merchantId)
    data.merchantId
  let available ← Offers.getActiveOfferForMerchant .multipleResultsFound d.catalog.offers
    data.merchantId today
  let offer ← enforceOfferAvailable available data.merchantId
  let cashback ← calculate offer.id offer.percentage offer.fixedAmount data.amount
  return newPurchase purchaseId now data offer.id cashback.cashbackAmount

structure Admitted (purchaseId : String) (today now : Nat) (data : PurchaseCreate)
    (currentUserId : String) (d : Database) (row : Purchase) (offer : Offers.Offer Numeric.Decimal)
    (cashback : CashbackResult) : Prop where
  owner : enforcePurchaseOwnership currentUserId data.userId = .ok ()
  fresh : refuseDuplicate data.externalId
    (d.purchases.find Purchase.externalId data.externalId) = .ok ()
  currency : enforceCurrencyEur data.currency = .ok ()
  user : enforceUserActive (d.catalog.users.find User.id data.userId) data.userId = .ok ()
  merchant : enforceMerchantActive (d.catalog.merchants.find Offers.Merchant.id data.merchantId)
    data.merchantId = .ok ()
  available : Offers.getActiveOfferForMerchant PurchaseException.multipleResultsFound
    d.catalog.offers data.merchantId today = .ok (some offer)
  computed : calculate offer.id offer.percentage offer.fixedAmount data.amount = .ok cashback
  result : row = newPurchase purchaseId now data offer.id cashback.cashbackAmount

theorem admission_eq_ok {purchaseId : String} {today now : Nat} {data : PurchaseCreate}
    {currentUserId : String} {d : Database} {row : Purchase} :
    admission purchaseId today now data currentUserId d = .ok row ↔
      ∃ offer cashback,
        Admitted purchaseId today now data currentUserId d row offer cashback := by
  rw [admission]
  constructor
  · intro h
    obtain ⟨_, howner, h⟩ := Core.bind_eq_ok.mp h
    obtain ⟨_, hfresh, h⟩ := Core.bind_eq_ok.mp h
    obtain ⟨_, hcurrency, h⟩ := Core.bind_eq_ok.mp h
    obtain ⟨_, huser, h⟩ := Core.bind_eq_ok.mp h
    obtain ⟨_, hmerchant, h⟩ := Core.bind_eq_ok.mp h
    obtain ⟨available, havailable, h⟩ := Core.bind_eq_ok.mp h
    obtain ⟨offer, hoffer, h⟩ := Core.bind_eq_ok.mp h
    obtain ⟨cashback, hcashback, hrow⟩ := Core.bind_eq_ok.mp h
    cases available with
    | none => cases hoffer
    | some o =>
      cases hoffer
      exact ⟨offer, cashback, howner, hfresh, hcurrency, huser, hmerchant, havailable, hcashback,
        (Except.ok.inj hrow).symm⟩
  · rintro ⟨offer, cashback, h⟩
    rw [h.owner, h.fresh, h.currency, h.user, h.merchant, h.available, h.result]
    change (calculate offer.id offer.percentage offer.fixedAmount data.amount >>= _) = _
    rw [h.computed]
    rfl

def Unused (d : Database) (transactionId : String) (row : Purchase) : Prop :=
  d.purchases.Free row ∧ d.transactions.Free (newTransaction transactionId row)

instance (d : Database) (transactionId : String) (row : Purchase) :
    Decidable (Unused d transactionId row) := inferInstanceAs (Decidable (_ ∧ _))

theorem insertPurchase_exec (d : Database) (row : Purchase) :
    Statement.exec (Sql.insertPurchase row) d =
      if d.purchases.Free row then .ok { d with purchases := d.purchases.put row }
      else .error .integrityError := by
  simp only [Statement.exec, Sql.exec, Table.put]
  by_cases h : d.purchases.Free row
  · obtain ⟨t, ht⟩ := Option.isSome_iff_exists.mp (d.purchases.insert_isSome.mpr h)
    rw [if_pos h, ht]
    rfl
  · have hnone : d.purchases.insert row = none :=
      Option.not_isSome_iff_eq_none.mp (mt d.purchases.insert_isSome.mp h)
    rw [if_neg h, hnone]

theorem insertTransaction_exec (d : Database) (row : CashbackTransaction) :
    Statement.exec (Sql.insertTransaction row) d =
      if d.transactions.Free row then .ok { d with transactions := d.transactions.put row }
      else .error .integrityError := by
  simp only [Statement.exec, Sql.exec, Table.put]
  by_cases h : d.transactions.Free row
  · obtain ⟨t, ht⟩ := Option.isSome_iff_exists.mp (d.transactions.insert_isSome.mpr h)
    rw [if_pos h, ht]
    rfl
  · have hnone : d.transactions.insert row = none :=
      Option.not_isSome_iff_eq_none.mp (mt d.transactions.insert_isSome.mp h)
    rw [if_neg h, hnone]

theorem ingestion_run (d : Database) (transactionId : String) (row : Purchase) :
    (do
      let result ← PurchaseRepository.addPurchase row
      CashbackClient.create transactionId result.id row.userId row.cashbackAmount row.createdAt
      WalletsClient.creditPending row.userId row.cashbackAmount
      commitTx
      return result : Coroutine Purchase).run d [] =
      if Unused d transactionId row then (.ok row, replay (ingestionWrites transactionId row) d)
      else (.error .integrityError, d) := by
  rw [PurchaseRepository.addPurchase, bind_assoc, execute_run_bind, replay_nil,
    insertPurchase_exec]
  by_cases hp : d.purchases.Free row
  · have hview : (replay [Sql.insertPurchase row] d).purchases.find Purchase.id row.id =
        some row := by
      rw [replay_cons, replay_nil, apply_insertPurchase]
      exact Table.find_put_self _ hp (by simp)
    rw [if_pos hp]
    have ht : (replay [Sql.insertPurchase row] d).transactions = d.transactions := by
      rw [replay_cons, replay_nil, apply_insertPurchase]
    have hexec := insertTransaction_exec (replay [Sql.insertPurchase row] d)
      (newTransaction transactionId row)
    rw [ht] at hexec
    simp only [List.nil_append]
    rw [bind_assoc, getById_eq, run_query_bind, hview, pure_bind]
    change ((execute (Sql.insertTransaction (newTransaction transactionId row)) >>= _).run d _) = _
    rw [execute_run_bind, hexec]
    by_cases hfree : d.transactions.Free (newTransaction transactionId row)
    · rw [if_pos hfree, if_pos ⟨hp, hfree⟩]
      rfl
    · rw [if_neg hfree, if_neg fun h => hfree h.2]
  · rw [if_neg hp, if_neg fun h => hp h.1]

theorem ingestPurchase_run (purchaseId transactionId : String) (today now : Nat)
    (data : PurchaseCreate) (currentUserId : String) (d : Database) :
    (ingestPurchase purchaseId transactionId today now data currentUserId).run d [] =
      concluded d
        (fun row => if Unused d transactionId row then
            (.ok row, replay (ingestionWrites transactionId row) d)
          else (.error .integrityError, d))
        (admission purchaseId today now data currentUserId d) := by
  rw [ingestPurchase, admission]
  apply run_lift_bind
  intro _
  rw [getByExternalId_eq, run_query_bind]
  apply run_lift_bind
  intro _
  apply run_lift_bind
  intro _
  rw [getUserById_eq, run_query_bind]
  apply run_lift_bind
  intro _
  rw [getMerchantById_eq, run_query_bind]
  apply run_lift_bind
  intro _
  rw [OffersClient.getActiveOfferForMerchant, bind_assoc, run_query_bind]
  apply run_lift_bind
  intro available
  apply run_lift_bind
  intro offer
  apply run_lift_bind
  intro cashback
  exact ingestion_run d transactionId (newPurchase purchaseId now data offer.id
    cashback.cashbackAmount)

end ClickNBack.Purchases
