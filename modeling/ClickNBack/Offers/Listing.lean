import ClickNBack.Offers.ActiveOffer
import Mathlib.Data.Multiset.Bind

namespace ClickNBack.Offers

open Relational

variable {F : Type}

structure ActiveOfferOut (F : Type) where
  id : String
  merchantName : String
  cashbackType : CashbackType
  cashbackValue : F
  monthlyCap : F
  startDate : Nat
  endDate : Nat

def mapToActiveOfferOut (offer : Offer F) (merchantName : String) : ActiveOfferOut F where
  id := offer.id
  merchantName
  cashbackType := if offer.fixedAmount.isSome then .fixed else .percent
  cashbackValue := offer.fixedAmount.getD offer.percentage
  monthlyCap := offer.monthlyCapPerUser
  startDate := offer.startDate
  endDate := offer.endDate

namespace OfferRepository

variable (offers : OfferTable F) (merchants : MerchantTable) (today : Nat)

/-- `base_stmt` of `list_active_offers` -/
def baseStmt : Multiset (Offer F × String) :=
  ((offers.rows ×ˢ merchants.rows).filter fun r =>
    r.1.merchantId = r.2.id ∧ r.1.active ∧ r.2.active ∧ r.1.startDate ≤ today ∧
      today ≤ r.1.endDate).map fun r => (r.1, r.2.name)

/-- `count_stmt` of `list_active_offers` -/
def countStmt : Nat :=
  (((offers.rows ×ˢ merchants.rows).filter fun r =>
    r.1.merchantId = r.2.id ∧ r.1.active ∧ r.2.active ∧ r.1.startDate ≤ today ∧
      today ≤ r.1.endDate).map fun r => r.1.id).card

def listActiveOffers (listing : Listing (Offer F × String)) (offset limit : Nat) :
    List (Offer F × String) × Nat :=
  let total := countStmt offers merchants today
  let rows := ((listing.list (baseStmt offers merchants today)).drop offset).take limit
  (rows, total)

variable {offers merchants today}

theorem mem_baseStmt {o : Offer F} {name : String} :
    (o, name) ∈ baseStmt offers merchants today ↔
      o ∈ offers.rows ∧ o.isAvailable o.merchantId today ∧
        ∃ m ∈ merchants.rows, m.id = o.merchantId ∧ m.active ∧ m.name = name := by
  simp only [baseStmt, Multiset.mem_map, Multiset.mem_filter, Multiset.mem_product, Prod.exists,
    Prod.mk.injEq, Offer.isAvailable, decide_eq_true_eq, true_and]
  constructor
  · rintro ⟨o', m, ⟨⟨ho, hm⟩, hid, hactive, hmactive, hstart, hend⟩, rfl, rfl⟩
    exact ⟨ho, ⟨hactive, hstart, hend⟩, m, hm, hid.symm, hmactive, rfl⟩
  · rintro ⟨ho, ⟨hactive, hstart, hend⟩, m, hm, hid, hmactive, rfl⟩
    exact ⟨o, m, ⟨⟨ho, hm⟩, hid.symm, hactive, hmactive, hstart, hend⟩, rfl, rfl⟩

/-- The two queries select the same rows. -/
theorem countStmt_eq_card : countStmt offers merchants today =
    (baseStmt offers merchants today).card := by
  rw [countStmt, baseStmt, Multiset.card_map, Multiset.card_map]

theorem listActiveOffers_rows {listing : Listing (Offer F × String)} {limit : Nat}
    (hlimit : (listActiveOffers offers merchants today listing 0 limit).2 ≤ limit) :
    (listActiveOffers offers merchants today listing 0 limit).1 =
      listing.list (baseStmt offers merchants today) := by
  have hlength := congrArg Multiset.card (listing.coe_list (baseStmt offers merchants today))
  rw [Multiset.coe_card, ← countStmt_eq_card] at hlength
  change ((listing.list (baseStmt offers merchants today)).drop 0).take limit = _
  rw [List.drop_zero, List.take_of_length_le (hlength.trans_le hlimit)]

end OfferRepository

/-- The `data` and the `total` of GET /offers/active. -/
def Api.listActiveOffers (offers : OfferTable F) (merchants : MerchantTable) (today : Nat)
    (listing : Listing (Offer F × String)) (offset limit : Nat) : List (ActiveOfferOut F) × Nat :=
  let (items, total) :=
    OfferRepository.listActiveOffers offers merchants today listing offset limit
  (items.map fun r => mapToActiveOfferOut r.1 r.2, total)

end ClickNBack.Offers
