import ClickNBack.Purchases.Models

namespace ClickNBack.Purchases

open Numeric Offers

def supportedCurrencies : List String := ["EUR"]

/-- `str.upper`, which adds nothing to the ASCII letters of a supported currency. -/
def upper (s : String) : List Char := s.toList.map Char.toUpper

def enforcePurchaseOwnership (currentUserId requestedUserId : String) :
    Except PurchaseException Unit :=
  if currentUserId ≠ requestedUserId then
    .error (.purchaseOwnershipViolation currentUserId requestedUserId)
  else .ok ()

def enforceUserActive (user : Option User) (userId : String) : Except PurchaseException Unit :=
  match user with
  | none => .error (.userNotFound userId)
  | some u => if ¬ u.active then .error (.userInactive userId) else .ok ()

def enforceMerchantActive (merchant : Option Merchant) (merchantId : String) :
    Except PurchaseException Unit :=
  match merchant with
  | none => .error (.merchantNotFound merchantId)
  | some m => if ¬ m.active then .error (.merchantInactive merchantId) else .ok ()

/-- The offer that the caller goes on with. -/
def enforceOfferAvailable (offer : Option (Offer Decimal)) (merchantId : String) :
    Except PurchaseException (Offer Decimal) :=
  match offer with
  | none => .error (.offerNotAvailable merchantId)
  | some o => .ok o

def enforceCurrencyEur (currency : String) : Except PurchaseException Unit :=
  if upper currency ∉ supportedCurrencies.map String.toList then
    .error (.unsupportedCurrency currency)
  else .ok ()

def enforcePurchaseViewOwnership (currentUserId purchaseUserId purchaseId : String) :
    Except PurchaseException Unit :=
  if currentUserId ≠ purchaseUserId then
    .error (.purchaseViewForbidden purchaseId purchaseUserId currentUserId)
  else .ok ()

/-- `PurchaseAlreadyReversedException.reversible_from_statuses` -/
def reversibleFromStatuses : List PurchaseStatus := [.pending, .confirmed]

def enforcePurchaseReversible (purchaseId : String) (currentStatus : PurchaseStatus) :
    Except PurchaseException Unit :=
  if currentStatus = .reversed then
    .error (.purchaseAlreadyReversed purchaseId .reversed reversibleFromStatuses)
  else .ok ()

def enforcePurchasePending (purchaseId : String) (currentStatus : PurchaseStatus) :
    Except PurchaseException Unit :=
  if currentStatus ≠ .pending then
    .error (.purchaseNotPending purchaseId currentStatus .pending)
  else .ok ()

/-- The duplicate check of `PurchaseService.ingest_purchase`. -/
def refuseDuplicate (externalId : String) (existing : Option Purchase) :
    Except PurchaseException Unit :=
  match existing with
  | some p => .error (.duplicatePurchase externalId p.createdAt p.amount)
  | none => .ok ()

structure CashbackResult where
  offerId : String
  cashbackAmount : Int
deriving DecidableEq

/-- `Decimal.quantize(Decimal("0.01"))`, in cents. -/
def quantizeCents (d : Decimal) : Except PurchaseException Int :=
  match d.quantize (-2) with
  | some cents => .ok cents
  | none => .error .invalidOperation

def calculate (offerId : String) (percentage : Decimal) (fixedAmount : Option Decimal)
    (purchaseAmount : Decimal) : Except PurchaseException CashbackResult :=
  match fixedAmount with
  | some fixed => (quantizeCents fixed).map (⟨offerId, ·⟩)
  | none =>
    (quantizeCents ((purchaseAmount.mul percentage).div ⟨100, 0⟩)).map (⟨offerId, ·⟩)

theorem quantizeCents_eq (d : Decimal) :
    quantizeCents d = (d.quantize (-2)).elim (.error .invalidOperation) .ok := by
  rw [quantizeCents]
  cases d.quantize (-2) <;> rfl

theorem quantizeCents_nonneg {d : Decimal} (h : 0 ≤ d.coeff) {cents : Int}
    (hq : quantizeCents d = .ok cents) : 0 ≤ cents := by
  rw [quantizeCents] at hq
  cases hd : d.quantize (-2) with
  | none => simp [hd] at hq
  | some c =>
    simp only [hd, Except.ok.injEq] at hq
    exact hq ▸ Decimal.quantize_nonneg h hd

theorem calculate_nonneg {o : Offer Decimal} (ho : Accepted o) {amount : Decimal}
    (ha : 0 ≤ amount.coeff) {r : CashbackResult}
    (hr : calculate o.id o.percentage o.fixedAmount amount = .ok r) : 0 ≤ r.cashbackAmount := by
  have hmap : ∀ {d : Decimal}, 0 ≤ d.coeff →
      (quantizeCents d).map (fun c => (⟨o.id, c⟩ : CashbackResult)) = .ok r →
      0 ≤ r.cashbackAmount := by
    intro d hd h
    cases hq : quantizeCents d with
    | error e => simp [hq, Except.map] at h
    | ok cents =>
      simp only [hq, Except.map, Except.ok.injEq] at h
      subst h
      exact quantizeCents_nonneg hd hq
  cases hf : o.fixedAmount with
  | none =>
    rw [hf] at hr
    exact hmap (Decimal.div_nonneg (Decimal.mul_nonneg ha ho.1) (by decide)) hr
  | some fixed =>
    rw [hf] at hr
    exact hmap (ho.2 fixed (by simp [hf])) hr

-- ten percent of one cent rounds to nothing
example : calculate "o" ⟨10, 0⟩ none ⟨1, -2⟩ = .ok ⟨"o", 0⟩ := by decide

end ClickNBack.Purchases
