import ClickNBack.Offers.Listing
import ClickNBack.Relational.Paging
import Mathlib.Data.Multiset.Bind

namespace ClickNBack.Offers

open Relational

variable {F : Type}

namespace OfferRepository

/-- The statement of `list_offers` before its OFFSET and LIMIT: the validity of an
offer overlaps the given dates. -/
def listedOffers (offers : OfferTable F) (active : Option Bool) (merchantId : Option String)
    (dateFrom dateTo : Option Nat) : Multiset (Offer F) :=
  offers.rows.filter fun o =>
    active.all (o.active = ·) ∧ merchantId.all (o.merchantId = ·) ∧ dateFrom.all (· ≤ o.endDate) ∧
      dateTo.all (o.startDate ≤ ·)

def listOffers (offers : OfferTable F) (listing : Listing (Offer F)) (offset limit : Nat)
    (active : Option Bool) (merchantId : Option String) (dateFrom dateTo : Option Nat) :
    List (Offer F) × Nat :=
  let stmt := listedOffers offers active merchantId dateFrom dateTo
  let total := stmt.card
  let items := page offset limit (listing.list stmt)
  (items, total)

end OfferRepository

namespace MerchantRepository

def listedMerchants (merchants : MerchantTable) (active : Option Bool) : Multiset Merchant :=
  merchants.rows.filter fun m => active.all (m.active = ·)

def listMerchants (merchants : MerchantTable) (listing : Listing Merchant) (offset limit : Nat)
    (active : Option Bool) : List Merchant × Nat :=
  let stmt := listedMerchants merchants active
  let total := stmt.card
  let items := page offset limit (listing.list stmt)
  (items, total)

end MerchantRepository

section

variable (offers : OfferTable F) (merchants : MerchantTable) {limit : Nat} (hlimit : 0 < limit)

include hlimit

theorem listOffers_readsOnce_iff (active : Option Bool) (merchantId : Option String)
    (dateFrom dateTo : Option Nat) :
    ReadsOnce (E := Empty) (fun listing offset limit => .ok
        (OfferRepository.listOffers offers listing offset limit active merchantId dateFrom dateTo))
        limit (OfferRepository.listedOffers offers active merchantId dateFrom dateTo) ↔
      (OfferRepository.listedOffers offers active merchantId dateFrom dateTo).card ≤ limit :=
  readsOnce_unordered_iff (fun _ _ _ => rfl)
    ((offers.nodup_rows (f := Offer.id) (by simp)).filter _) hlimit

theorem listMerchants_readsOnce_iff (active : Option Bool) :
    ReadsOnce (E := Empty) (fun listing offset limit => .ok
        (MerchantRepository.listMerchants merchants listing offset limit active))
        limit (MerchantRepository.listedMerchants merchants active) ↔
      (MerchantRepository.listedMerchants merchants active).card ≤ limit :=
  readsOnce_unordered_iff (fun _ _ _ => rfl)
    ((merchants.nodup_rows (f := Merchant.id) (by simp)).filter _) hlimit

omit hlimit in
theorem nodup_baseStmt (today : Nat) : (OfferRepository.baseStmt offers merchants today).Nodup := by
  have hproduct : (offers.rows ×ˢ merchants.rows).Nodup :=
    (offers.nodup_rows (f := Offer.id) (by simp)).product
      (merchants.nodup_rows (f := Merchant.id) (by simp))
  refine Multiset.Nodup.map_on ?_ (hproduct.filter _)
  rintro ⟨o, m⟩ h ⟨o', m'⟩ h' he
  obtain ⟨hmem, hid, -⟩ := Multiset.mem_filter.mp h
  obtain ⟨hmem', hid', -⟩ := Multiset.mem_filter.mp h'
  obtain ⟨rfl, -⟩ := Prod.mk.inj he
  have hm : m = m' := merchants.eq_of_key (f := Merchant.id) (by simp)
    (Multiset.mem_product.mp hmem).2 (Multiset.mem_product.mp hmem').2 (hid.symm.trans hid')
  rw [hm]

theorem listActiveOffers_readsOnce_iff (today : Nat) :
    ReadsOnce (E := Empty) (fun listing offset limit => .ok
        (OfferRepository.listActiveOffers offers merchants today listing offset limit))
        limit (OfferRepository.baseStmt offers merchants today) ↔
      (OfferRepository.baseStmt offers merchants today).card ≤ limit := by
  refine readsOnce_unordered_iff (fun listing offset limit => ?_)
    (nodup_baseStmt offers merchants today) hlimit
  rw [← OfferRepository.countStmt_eq_card]
  rfl

end

end ClickNBack.Offers
