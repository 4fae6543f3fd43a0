import ClickNBack.Offers.Policies

namespace ClickNBack.Offers

open Numeric Relational

/-- The tables that the offers and merchants modules write. -/
structure OfferDatabase where
  merchants : MerchantTable
  offers : OfferTable PyFloat

structure OfferCreate where
  merchantId : String
  cashbackType : CashbackType
  cashbackValue : PyFloat
  startDate : Nat
  endDate : Nat
  monthlyCap : PyFloat

def Offer.withStatus {F : Type} (active : Bool) (o : Offer F) : Offer F := { o with active }

def Merchant.withStatus (active : Bool) (m : Merchant) : Merchant := { m with active }

namespace MerchantRepository

def getMerchantById (d : OfferDatabase) (merchantId : String) :
    Except OfferException (Option Merchant) :=
  scalarOneOrNone .multipleResultsFound (d.merchants.rows.filter fun m => m.id = merchantId)

def updateMerchantStatus (d : OfferDatabase) (merchant : Merchant) (active : Bool) :
    Merchant × OfferDatabase :=
  (merchant.withStatus active, { d with
    merchants := d.merchants.modify Merchant.id merchant.id (Merchant.withStatus active)
      (by simp [Merchant.withStatus]) })

end MerchantRepository

namespace OfferRepository

/-- A new row gets its key and the server default of `active`. -/
def addOffer (d : OfferDatabase) (offer : Offer PyFloat) :
    Except OfferException (Offer PyFloat × OfferDatabase) :=
  match d.offers.insert offer with
  | some offers => .ok (offer, { d with offers })
  | none => .error .integrityError

def getOfferById (d : OfferDatabase) (offerId : String) :
    Except OfferException (Option (Offer PyFloat)) :=
  scalarOneOrNone .multipleResultsFound (d.offers.rows.filter fun o => o.id = offerId)

/-- LIMIT 1 leaves one row if there is any. -/
def hasActiveOfferForMerchant (d : OfferDatabase) (merchantId : String) : Bool :=
  (d.offers.rows.filter fun o => o.merchantId = merchantId ∧ o.active) ≠ 0

def updateOfferStatus (d : OfferDatabase) (offer : Offer PyFloat) (active : Bool) :
    Offer PyFloat × OfferDatabase :=
  (offer.withStatus active, { d with
    offers := d.offers.modify Offer.id offer.id (Offer.withStatus active)
      (by simp [Offer.withStatus]) })

end OfferRepository

/-- `OfferService._map_to_domain_offer`; the key and the status are those that the
database fills in. -/
def mapToDomainOffer (offerId : String) (data : OfferCreate) : Offer PyFloat where
  id := offerId
  merchantId := data.merchantId
  percentage := if data.cashbackType = .percent then data.cashbackValue else 0
  fixedAmount := if data.cashbackType = .percent then none else some data.cashbackValue
  startDate := data.startDate
  endDate := data.endDate
  monthlyCapPerUser := data.monthlyCap
  active := true

def createOffer (maxCashbackPercentage : PyFloat) (offerId : String) (today : Nat)
    (data : OfferCreate) (d : OfferDatabase) :
    Except OfferException (Offer PyFloat × OfferDatabase) := do
  enforceCashbackValueValidity maxCashbackPercentage data.cashbackType data.cashbackValue
  enforceDateRangeValidity today data.startDate data.endDate
  enforceMonthlyCapValidity data.monthlyCap
  match ← MerchantRepository.getMerchantById d data.merchantId with
  | none => throw (.merchantNotFound data.merchantId)
  | some merchant =>
    enforceMerchantIsActive data.merchantId merchant.active
    enforceNoActiveOfferExists data.merchantId
      (OfferRepository.hasActiveOfferForMerchant d data.merchantId)
    OfferRepository.addOffer d (mapToDomainOffer offerId data)

def setOfferStatus (offerId : String) (active : Bool) (d : OfferDatabase) :
    Except OfferException (Offer PyFloat × OfferDatabase) := do
  match ← OfferRepository.getOfferById d offerId with
  | none => throw (.offerNotFound offerId)
  | some offer => return OfferRepository.updateOfferStatus d offer active

def setMerchantStatus (merchantId : String) (active : Bool) (d : OfferDatabase) :
    Except OfferException (Merchant × OfferDatabase) := do
  match ← MerchantRepository.getMerchantById d merchantId with
  | none => throw (.merchantNotFound merchantId)
  | some merchant => return MerchantRepository.updateMerchantStatus d merchant active

/-- The calls of admins, each with what it reads from outside the database. -/
inductive Call
  | createOffer (maxCashbackPercentage : PyFloat) (offerId : String) (today : Nat)
      (data : OfferCreate)
  | setOfferStatus (offerId : String) (active : Bool)
  | setMerchantStatus (merchantId : String) (active : Bool)

/-- What a call that raises has written is rolled back. -/
def committed {α : Type} (d : OfferDatabase) : Except OfferException (α × OfferDatabase) →
    OfferDatabase
  | .ok (_, d') => d'
  | .error _ => d

def Call.exec : Call → OfferDatabase → OfferDatabase
  | .createOffer maxCashbackPercentage offerId today data, d =>
    committed d (Offers.createOffer maxCashbackPercentage offerId today data d)
  | .setOfferStatus offerId active, d => committed d (Offers.setOfferStatus offerId active d)
  | .setMerchantStatus merchantId active, d =>
    committed d (Offers.setMerchantStatus merchantId active d)

section

variable (d : OfferDatabase)

theorem getOfferById_eq (offerId : String) :
    OfferRepository.getOfferById d offerId = .ok (d.offers.find Offer.id offerId) :=
  d.offers.scalarOneOrNone_filter (by simp) _ offerId

theorem getMerchantById_eq (merchantId : String) :
    MerchantRepository.getMerchantById d merchantId =
      .ok (d.merchants.find Merchant.id merchantId) :=
  d.merchants.scalarOneOrNone_filter (by simp) _ merchantId

theorem committed_bind {α β : Type} {P : OfferDatabase → Prop} {x : Except OfferException β}
    {f : β → Except OfferException (α × OfferDatabase)} (hd : P d)
    (h : ∀ b, x = .ok b → P (committed d (f b))) : P (committed d (x >>= f)) := by
  cases x with
  | error e => exact hd
  | ok b => exact h b rfl

theorem setOfferStatus_exec (offerId : String) (active : Bool) :
    (Call.setOfferStatus offerId active).exec d =
      match d.offers.find Offer.id offerId with
      | none => d
      | some o => (OfferRepository.updateOfferStatus d o active).2 := by
  simp only [Call.exec, setOfferStatus, getOfferById_eq]
  cases d.offers.find Offer.id offerId <;> rfl

theorem setMerchantStatus_offers (merchantId : String) (active : Bool) :
    ((Call.setMerchantStatus merchantId active).exec d).offers = d.offers := by
  simp only [Call.exec, setMerchantStatus, getMerchantById_eq]
  cases d.merchants.find Merchant.id merchantId <;> rfl

def CreationOutcome (offer : Offer PyFloat) (d' : OfferDatabase) : Prop :=
  d'.offers = d.offers ∨
    (d.offers.rows.filter fun o => o.merchantId = offer.merchantId ∧ o.active) = 0 ∧
    d'.offers.rows = offer ::ₘ d.offers.rows

theorem createOffer_outcome (maxCashbackPercentage : PyFloat) (offerId : String) (today : Nat)
    (data : OfferCreate) :
    CreationOutcome d (mapToDomainOffer offerId data)
      ((Call.createOffer maxCashbackPercentage offerId today data).exec d) := by
  have hsame : CreationOutcome d (mapToDomainOffer offerId data) d := Or.inl rfl
  simp only [Call.exec, createOffer]
  refine committed_bind d hsame fun _ _ => ?_
  refine committed_bind d hsame fun _ _ => ?_
  refine committed_bind d hsame fun _ _ => ?_
  refine committed_bind d hsame fun merchant _ => ?_
  cases merchant with
  | none => exact hsame
  | some merchant =>
    refine committed_bind d hsame fun _ _ => ?_
    refine committed_bind d hsame fun _ hactive => ?_
    have hnone : (d.offers.rows.filter fun o => o.merchantId = data.merchantId ∧ o.active) = 0 := by
      by_contra hsome
      simp [enforceNoActiveOfferExists, OfferRepository.hasActiveOfferForMerchant, hsome] at hactive
    unfold OfferRepository.addOffer
    cases hinsert : d.offers.insert (mapToDomainOffer offerId data) with
    | none => exact hsame
    | some offers => exact Or.inr ⟨hnone, (d.offers.insert_eq_some hinsert).2⟩

end

end ClickNBack.Offers
