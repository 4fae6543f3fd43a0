import ClickNBack.Cashback.Percentage
import ClickNBack.Numeric.PyDecimal
import ClickNBack.Offers.Services

namespace ClickNBack.Cashback

open Numeric Offers Purchases

/-- The `cashback_amount` of `CashbackCalculator.calculate` on any floats; `none` is
an InvalidOperation. -/
def CashbackCalculator.calculate (percentage : PyFloat) (fixedAmount : Option PyFloat)
    (purchaseAmount : Decimal) : Option PyDecimal :=
  match fixedAmount with
  | some fixed => (PyDecimal.ofStr fixed).quantize (-2)
  | none => do
    let product ← PyDecimal.mul purchaseAmount (PyDecimal.ofStr percentage)
    (product.div ⟨100, 0⟩).quantize (-2)

def inCents (cents : Int) : PyDecimal := .finite ⟨cents, -2⟩

theorem calculate_finite (offerId : String) (percentage : Printed) (fixedAmount : Option Printed)
    (purchaseAmount : Decimal) :
    CashbackCalculator.calculate (.finite percentage) (fixedAmount.map .finite) purchaseAmount =
      ((calculate offerId percentage.value (fixedAmount.map Printed.value)
        purchaseAmount).toOption.map fun r => inCents r.cashbackAmount) := by
  cases fixedAmount with
  | none =>
    simp only [CashbackCalculator.calculate, calculate, Option.map_none, quantizeCents_eq]
    change ((((purchaseAmount.mul percentage.value).div ⟨100, 0⟩).quantize (-2)).map _) = _
    cases ((purchaseAmount.mul percentage.value).div ⟨100, 0⟩).quantize (-2) <;> rfl
  | some fixed =>
    simp only [CashbackCalculator.calculate, calculate, Option.map_some, quantizeCents_eq]
    change ((fixed.value.quantize (-2)).map _) = _
    cases fixed.value.quantize (-2) <;> rfl

/-- A finite amount in cents that `Numeric(12, 2)` holds, and that leaves a finite
wallet balance finite. -/
def Storable (r : Option PyDecimal) : Prop :=
  ∃ cents : ℤ, r = some (inCents cents) ∧ 0 ≤ cents ∧ cents < 10 ^ 12 ∧
    ∀ balance : Decimal, ∃ total, (PyDecimal.finite balance).add (inCents cents) = .finite total

theorem storable_inCents (cents : ℤ) :
    Storable (some (inCents cents)) ↔ 0 ≤ cents ∧ cents < 10 ^ 12 := by
  constructor
  · rintro ⟨cents', heq, hnonneg, hlt, -⟩
    injection heq with heq
    injection heq with heq
    injection heq with hcents _
    rw [hcents]
    exact ⟨hnonneg, hlt⟩
  · rintro ⟨hnonneg, hlt⟩
    exact ⟨cents, rfl, hnonneg, hlt, fun balance => ⟨_, rfl⟩⟩

theorem not_storable_none : ¬ Storable none := by
  rintro ⟨cents, heq, -⟩
  cases heq

theorem not_storable_nan : ¬ Storable (some .nan) := by
  rintro ⟨cents, heq, -⟩
  injection heq with heq
  cases heq

theorem zero_toRat : (⟨0, 0⟩ : Decimal).toRat = 0 := by norm_num [Decimal.toRat]

theorem pos_of_not_le {v : Printed} (h : (PyFloat.finite v).le 0 = false) : 0 < v.value.toRat := by
  have hle : ¬ v.value.le ⟨0, 0⟩ = true := by
    rw [Bool.not_eq_true]
    exact h
  rwa [Decimal.le_iff, zero_toRat, not_le] at hle

theorem storable_quantize {d : Decimal} (h : 0 ≤ d.toRat) :
    Storable ((PyDecimal.finite d).quantize (-2)) ↔ d.toRat < 9999999999995 / 1000 := by
  obtain ⟨z, hz, hquantize⟩ := Decimal.quantize_spec (Decimal.toRat_nonneg.mp h) (-2)
  have hscale : d.toRat / 10 ^ (-2 : ℤ) = d.toRat * 100 := by
    rw [cent]
    ring
  rw [hscale] at hz
  have hnonneg : 0 ≤ z := by
    have hzero : HalfEven 0 0 := by exact_mod_cast HalfEven.of_int 0
    exact hzero.mono hz (by linarith)
  have hbound : z < 10 ^ 12 ↔ d.toRat < 9999999999995 / 1000 := by
    rw [hz.lt_iff_of_even (by norm_num)]
    push_cast
    constructor <;> intro hlt <;> linarith
  rw [← hbound, PyDecimal.quantize, hquantize]
  by_cases hshort : z.natAbs < 10 ^ Decimal.prec
  · rw [if_pos hshort]
    exact (storable_inCents z).trans (and_iff_right hnonneg)
  · rw [if_neg hshort]
    refine iff_of_false not_storable_none fun hlt => hshort ?_
    norm_num [Decimal.prec]
    omega

theorem storable_fixed {value : PyFloat} (hpos : value.le 0 = false) (percentage : PyFloat)
    (amount : Decimal) :
    Storable (CashbackCalculator.calculate percentage (some value) amount) ↔
      ∃ v : Printed, value = .finite v ∧ v.value.toRat < 9999999999995 / 1000 := by
  cases value with
  | finite v =>
    apply (storable_quantize (pos_of_not_le hpos).le).trans
    constructor
    · intro hlt
      exact ⟨v, rfl, hlt⟩
    · rintro ⟨v', heq, hlt⟩
      injection heq with heq
      rwa [heq]
  | inf =>
    apply iff_of_false not_storable_none
    rintro ⟨v, heq, -⟩
    cases heq
  | negInf => cases hpos
  | nan =>
    apply iff_of_false not_storable_nan
    rintro ⟨v, heq, -⟩
    cases heq

theorem accepted_percentage {max : Printed} (hmax : max.value.toRat ≤ 100) {value : PyFloat}
    (hvalue : enforceCashbackValueValidity (.finite max) .percent value = .ok ()) :
    ∃ p : Percentage, ∃ h, value = .finite ⟨p.value, h⟩ := by
  have hchecks : PyFloat.lt 0 value ∧ value.le (.finite max) := by
    by_contra hn
    simp only [enforceCashbackValueValidity, if_pos hn] at hvalue
    cases hvalue
  cases value with
  | finite v =>
    obtain ⟨hlt, hle⟩ := hchecks
    have hpos : 0 < v.value.toRat := by
      have hrat : (⟨0, 0⟩ : Decimal).toRat < v.value.toRat := (Decimal.lt_iff _ _).mp hlt
      rwa [zero_toRat] at hrat
    have hle' := (Decimal.le_iff _ _).mp hle
    exact ⟨⟨v.value, Decimal.toRat_pos.mp hpos, v.digits, hle'.trans hmax⟩, v.digits, rfl⟩
  | inf => cases hchecks.2
  | negInf => cases hchecks.1
  | nan => cases hchecks.1

theorem storable_percentage (p : Percentage) (h : p.value.coeff.natAbs < 10 ^ 17)
    (amount : PurchaseAmount) :
    Storable (CashbackCalculator.calculate (.finite ⟨p.value, h⟩) none amount.value) := by
  obtain ⟨cents, hcalc, -, hnonneg, hle⟩ := calculate_spec amount p ""
  have hfinite := calculate_finite "" ⟨p.value, h⟩ none amount.value
  rw [Option.map_none] at hfinite
  rw [hfinite, Option.map_none, hcalc]
  refine (storable_inCents cents).mpr ⟨hnonneg, ?_⟩
  have hbound := amount.bound
  rw [cent] at hle
  have hcast : (cents : ℚ) < 10 ^ 12 := by linarith
  exact_mod_cast hcast

/-- An accepted offer yields a storable cashback exactly when it is a percentage or
a fixed value that rounds to at most ten digits before the point. -/
theorem storable_iff {max : Printed} (hmax : max.value.toRat ≤ 100) (offerId : String)
    {data : OfferCreate} (hdata : enforceCashbackValueValidity (.finite max) data.cashbackType
      data.cashbackValue = .ok ()) (amount : PurchaseAmount) :
    Storable (CashbackCalculator.calculate (mapToDomainOffer offerId data).percentage
        (mapToDomainOffer offerId data).fixedAmount amount.value) ↔
      data.cashbackType = .percent ∨
        ∃ v : Printed, data.cashbackValue = .finite v ∧ v.value.toRat < 9999999999995 / 1000 := by
  cases htype : data.cashbackType with
  | percent =>
    rw [htype] at hdata
    obtain ⟨p, h, hp⟩ := accepted_percentage hmax hdata
    refine iff_of_true ?_ (Or.inl rfl)
    simp only [mapToDomainOffer, htype, if_true, hp]
    exact storable_percentage p h amount
  | fixed =>
    rw [htype] at hdata
    have hpos : data.cashbackValue.le 0 = false := by
      by_contra hle
      rw [Bool.not_eq_false] at hle
      simp only [enforceCashbackValueValidity, if_pos hle] at hdata
      cases hdata
    simp only [mapToDomainOffer, htype, reduceCtorEq, if_false, false_or]
    exact storable_fixed hpos 0 amount.value

def oneEuro : PurchaseAmount where
  value := ⟨1, 0⟩
  pos := by decide
  scale := by decide
  bound := by norm_num [Decimal.toRat]

def twenty : Printed := ⟨⟨20, 0⟩, by decide⟩

def fixedOffer (value : PyFloat) : OfferCreate where
  merchantId := "shop"
  cashbackType := .fixed
  cashbackValue := value
  startDate := 1
  endDate := 30
  monthlyCap := .finite twenty

theorem storable_iff_twenty :
    twenty.value.toRat ≤ 100 ∧ enforceCashbackValueValidity (.finite twenty)
        (fixedOffer (.finite twenty)).cashbackType (fixedOffer (.finite twenty)).cashbackValue =
        .ok () ∧
      (Storable (CashbackCalculator.calculate
        (mapToDomainOffer "o" (fixedOffer (.finite twenty))).percentage
        (mapToDomainOffer "o" (fixedOffer (.finite twenty))).fixedAmount oneEuro.value) ↔
      (fixedOffer (.finite twenty)).cashbackType = .percent ∨ ∃ v : Printed,
        (fixedOffer (.finite twenty)).cashbackValue = .finite v ∧
          v.value.toRat < 9999999999995 / 1000) := by
  have hmax : twenty.value.toRat ≤ 100 := by norm_num [twenty, Decimal.toRat]
  have haccepted : enforceCashbackValueValidity (.finite twenty)
      (fixedOffer (.finite twenty)).cashbackType (fixedOffer (.finite twenty)).cashbackValue =
      .ok () := by decide
  exact ⟨hmax, haccepted, storable_iff hmax "o" haccepted oneEuro⟩

/-- A NaN is not at most zero, and no other check refuses it. -/
theorem nan_not_storable :
    enforceCashbackValueValidity (.finite twenty) (fixedOffer .nan).cashbackType
        (fixedOffer .nan).cashbackValue = .ok () ∧
      ¬ Storable (CashbackCalculator.calculate (mapToDomainOffer "o" (fixedOffer .nan)).percentage
        (mapToDomainOffer "o" (fixedOffer .nan)).fixedAmount oneEuro.value) :=
  ⟨by decide, not_storable_nan⟩

end ClickNBack.Cashback
