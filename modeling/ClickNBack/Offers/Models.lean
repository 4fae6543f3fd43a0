import ClickNBack.Relational.Table

namespace ClickNBack.Offers

open Relational

/-- A row of `offers`; `F` is the type of its float columns. -/
structure Offer (F : Type) where
  id : String
  merchantId : String
  percentage : F
  fixedAmount : Option F
  startDate : Nat
  endDate : Nat
  monthlyCapPerUser : F
  active : Bool
deriving DecidableEq

structure Merchant where
  id : String
  name : String
  active : Bool
deriving DecidableEq

abbrev OfferTable (F : Type) := Table (Offer F) String [Offer.id]

abbrev MerchantTable := Table Merchant String [Merchant.id]

variable {F E : Type}

/-- The WHERE clause of `OffersClient.get_active_offer_for_merchant`. -/
def Offer.isAvailable (merchantId : String) (today : Nat) (o : Offer F) : Bool :=
  o.merchantId = merchantId ∧ o.active ∧ o.startDate ≤ today ∧ today ≤ o.endDate

/-- `OffersClient.get_active_offer_for_merchant`; `e` is its MultipleResultsFound. -/
def getActiveOfferForMerchant (e : E) (offers : OfferTable F) (merchantId : String) (today : Nat) :
    Except E (Option (Offer F)) :=
  scalarOneOrNone e (offers.rows.filter fun o => o.isAvailable merchantId today)

theorem getActiveOfferForMerchant_some {e : E} {offers : OfferTable F} {merchantId : String}
    {today : Nat} {o : Offer F}
    (h : getActiveOfferForMerchant e offers merchantId today = .ok (some o)) :
    o ∈ offers.rows ∧ o.isAvailable merchantId today := by
  have hmem := mem_of_scalarOneOrNone h
  simpa using hmem

end ClickNBack.Offers
