import ClickNBack.Offers.Paging
import ClickNBack.Purchases.Listing
import ClickNBack.Purchases.Runs

namespace ClickNBack.Purchases

open Relational ReadCommitted Offers

section

variable (d : Database) {limit : Nat} (hlimit : 0 < limit)

include hlimit

theorem listPurchases_readsOnce_iff (f : Filters) :
    ReadsOnce (fun listing => Admin.PurchaseRepository.listPurchases listing d.purchases f) limit
        (d.purchases.rows.filter (f.matches ·)) ↔
      ¬ f.endsAtMax ∧
        ∀ k, ¬ SplitsTies Purchase.createdAt (d.purchases.rows.filter (f.matches ·))
          (k * limit) := by
  by_cases hmax : f.endsAtMax
  · refine iff_of_false (fun h => ?_) fun h => h.1 hmax
    obtain ⟨answers, hanswers, -⟩ := h fun _ => default
    cases (listPurchases_overflows default d.purchases hmax _ _).symm.trans (hanswers 0)
  · refine Iff.trans ?_ (and_iff_right hmax).symm
    exact readsOnce_newestFirst_iff (fun listing offset limit =>
      listPurchases_eq listing d.purchases hmax offset limit)
      ((d.purchases.nodup_rows (f := Purchase.id) (by simp)).filter _) hlimit

theorem listByUserId_readsOnce_iff (userId : String) :
    ReadsOnce (fun listing offset limit =>
        ((CashbackClient.listByUserId listing userId limit offset).run d []).1) limit
        (d.transactions.rows.filter fun t => t.userId = userId) ↔
      ∀ k, ¬ SplitsTies CashbackTransaction.createdAt
        (d.transactions.rows.filter fun t => t.userId = userId) (k * limit) :=
  readsOnce_newestFirst_iff (fun _ _ _ => rfl)
    ((d.transactions.nodup_rows (f := CashbackTransaction.id) (by simp)).filter _) hlimit

/-- Fetching page after page returns each row once, whatever the database does, exactly
when there is one page of offers or merchants at most, and no page boundary falls
between purchases, or transactions, with one timestamp. -/
theorem paging_readsOnce_iff (active : Option Bool) (merchantId : Option String)
    (dateFrom dateTo : Option Nat) (today : Nat) (activeMerchants : Option Bool) (f : Filters)
    (userId : String) :
    (ReadsOnce (E := Empty) (fun listing offset limit => .ok
        (OfferRepository.listOffers d.catalog.offers listing offset limit active merchantId
          dateFrom dateTo)) limit
        (OfferRepository.listedOffers d.catalog.offers active merchantId dateFrom dateTo) ↔
      (OfferRepository.listedOffers d.catalog.offers active merchantId dateFrom dateTo).card ≤
        limit) ∧
    (ReadsOnce (E := Empty) (fun listing offset limit => .ok
        (OfferRepository.listActiveOffers d.catalog.offers d.catalog.merchants today listing
          offset limit)) limit
        (OfferRepository.baseStmt d.catalog.offers d.catalog.merchants today) ↔
      (OfferRepository.baseStmt d.catalog.offers d.catalog.merchants today).card ≤ limit) ∧
    (ReadsOnce (E := Empty) (fun listing offset limit => .ok
        (MerchantRepository.listMerchants d.catalog.merchants listing offset limit
          activeMerchants)) limit
        (MerchantRepository.listedMerchants d.catalog.merchants activeMerchants) ↔
      (MerchantRepository.listedMerchants d.catalog.merchants activeMerchants).card ≤ limit) ∧
    (ReadsOnce (fun listing => Admin.PurchaseRepository.listPurchases listing d.purchases f) limit
        (d.purchases.rows.filter (f.matches ·)) ↔
      ¬ f.endsAtMax ∧
        ∀ k, ¬ SplitsTies Purchase.createdAt (d.purchases.rows.filter (f.matches ·))
          (k * limit)) ∧
    (ReadsOnce (fun listing offset limit =>
        ((CashbackClient.listByUserId listing userId limit offset).run d []).1) limit
        (d.transactions.rows.filter fun t => t.userId = userId) ↔
      ∀ k, ¬ SplitsTies CashbackTransaction.createdAt
        (d.transactions.rows.filter fun t => t.userId = userId) (k * limit)) :=
  ⟨listOffers_readsOnce_iff _ hlimit active merchantId dateFrom dateTo,
    listActiveOffers_readsOnce_iff _ _ hlimit today,
    listMerchants_readsOnce_iff _ hlimit activeMerchants,
    listPurchases_readsOnce_iff d hlimit f, listByUserId_readsOnce_iff d hlimit userId⟩

end

def differentTimes : Database := { noPurchases oneOffer noWallets 0 with purchases := firstDay }

theorem paging_readsOnce_differentTimes :
    ReadsOnce (E := Empty) (fun listing offset limit => .ok
        (MerchantRepository.listMerchants differentTimes.catalog.merchants listing offset limit
          (some true))) 1
        (MerchantRepository.listedMerchants differentTimes.catalog.merchants (some true)) ∧
    ReadsOnce (fun listing =>
        Admin.PurchaseRepository.listPurchases listing differentTimes.purchases onFirstDay) 1
        (differentTimes.purchases.rows.filter (onFirstDay.matches ·)) := by
  obtain ⟨-, -, hmerchants, hpurchases, -⟩ := paging_readsOnce_iff differentTimes
    (Nat.one_pos : 0 < 1) none none none none 1 (some true) onFirstDay "ana"
  refine ⟨hmerchants.mpr (by decide +kernel), hpurchases.mpr ⟨?_, fun k => ?_⟩⟩
  · rintro ⟨d, hd, hmax⟩
    cases hd
    exact absurd hmax (by decide)
  · exact not_splitsTies_of_nodup (by decide +kernel) _

theorem twins_unique : ∀ g ∈ [Purchase.id, Purchase.externalId],
    (({purchaseAt "one" dayLength, purchaseAt "two" dayLength} :
      Multiset Purchase).map g).Nodup := by
  simp [purchaseAt]

def twins : PurchaseTable :=
  ⟨{purchaseAt "one" dayLength, purchaseAt "two" dayLength}, twins_unique⟩

def noFilters : Filters := ⟨none, none, none, none, none⟩

theorem twoShops_unique : ∀ f ∈ [Merchant.id],
    (({⟨"one", "One", true⟩, ⟨"two", "Two", true⟩} : Multiset Merchant).map f).Nodup := by
  simp

def twoShops : MerchantTable := ⟨{⟨"one", "One", true⟩, ⟨"two", "Two", true⟩}, twoShops_unique⟩

/-- Page by page a client may miss one of two purchases, or of two merchants, and see
the other one twice. -/
theorem twins_not_readsOnce :
    ¬ ReadsOnce (fun listing => Admin.PurchaseRepository.listPurchases listing twins noFilters) 1
      (twins.rows.filter (noFilters.matches ·)) ∧
    ¬ ReadsOnce (E := Empty) (fun listing offset limit => .ok
        (MerchantRepository.listMerchants twoShops listing offset limit none)) 1
        (MerchantRepository.listedMerchants twoShops none) := by
  constructor
  · intro h
    have hsplit := ((listPurchases_readsOnce_iff
      { noPurchases oneOffer noWallets 0 with purchases := twins } Nat.one_pos noFilters).mp h).2 1
    exact hsplit ⟨dayLength, by decide +kernel, by decide +kernel⟩
  · rw [listMerchants_readsOnce_iff twoShops Nat.one_pos]
    decide +kernel

end ClickNBack.Purchases
