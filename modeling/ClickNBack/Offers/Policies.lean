import ClickNBack.Numeric.PyFloat
import ClickNBack.Offers.Models

namespace ClickNBack.Offers

open Numeric

inductive CashbackType
  | percent
  | fixed
deriving DecidableEq

inductive CashbackValueReason
  | percentageRange (maxCashbackPercentage : PyFloat)
  | fixedAmountNotPositive
deriving DecidableEq

inductive OfferException
  | invalidCashbackValue (cashbackType : CashbackType) (value : PyFloat)
      (reason : CashbackValueReason)
  | invalidDateRange (startDate endDate : Nat)
  | invalidMonthlyCap (value : PyFloat)
  | merchantNotActive (merchantId : String)
  | activeOfferAlreadyExists (merchantId : String)
  | pastOfferStartDate (startDate : Nat)
  | offerNotFound (offerId : String)
  | merchantNotFound (merchantId : String)
  | multipleResultsFound
  | integrityError
deriving DecidableEq

def enforceCashbackValueValidity (maxCashbackPercentage : PyFloat) (cashbackType : CashbackType)
    (cashbackValue : PyFloat) : Except OfferException Unit :=
  match cashbackType with
  | .percent =>
    if ¬ (PyFloat.lt 0 cashbackValue ∧ cashbackValue.le maxCashbackPercentage) then
      .error (.invalidCashbackValue .percent cashbackValue (.percentageRange maxCashbackPercentage))
    else .ok ()
  | .fixed =>
    if cashbackValue.le 0 then
      .error (.invalidCashbackValue .fixed cashbackValue .fixedAmountNotPositive)
    else .ok ()

def enforceDateRangeValidity (today startDate endDate : Nat) : Except OfferException Unit :=
  if startDate < today then .error (.pastOfferStartDate startDate)
  else if endDate < startDate then .error (.invalidDateRange startDate endDate)
  else .ok ()

def enforceMonthlyCapValidity (monthlyCap : PyFloat) : Except OfferException Unit :=
  if monthlyCap.le 0 then .error (.invalidMonthlyCap monthlyCap) else .ok ()

def enforceMerchantIsActive (merchantId : String) (isActive : Bool) :
    Except OfferException Unit :=
  if ¬ isActive then .error (.merchantNotActive merchantId) else .ok ()

def enforceNoActiveOfferExists (merchantId : String) (hasActiveOffer : Bool) :
    Except OfferException Unit :=
  if hasActiveOffer then .error (.activeOfferAlreadyExists merchantId) else .ok ()

end ClickNBack.Offers
