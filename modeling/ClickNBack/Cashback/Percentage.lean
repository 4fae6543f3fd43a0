import ClickNBack.Numeric.Context
import ClickNBack.Purchases.Policies

namespace ClickNBack.Cashback

open Numeric Purchases

/-- An amount that `PurchaseCreate` accepts and `Numeric(12, 2)` holds. -/
structure PurchaseAmount where
  value : Decimal
  pos : 0 < value.coeff
  scale : -2 ≤ value.exp
  bound : value.toRat < 10 ^ 10

/-- A percentage in the digits that `str` prints. -/
structure Percentage where
  value : Decimal
  pos : 0 < value.coeff
  digits : value.coeff.natAbs < 10 ^ 17
  le_hundred : value.toRat ≤ 100

/-- The product before the context rounds it. -/
def product (a : PurchaseAmount) (p : Percentage) : Decimal :=
  ⟨a.value.coeff * p.value.coeff, a.value.exp + p.value.exp⟩

theorem cent : (10 : ℚ) ^ (-2 : ℤ) = 1 / 100 := by norm_num

variable (a : PurchaseAmount) (p : Percentage)

theorem PurchaseAmount.digits : a.value.coeff.natAbs < 10 ^ 12 := by
  by_contra hlt
  have hscale : (10 ^ 12 : ℕ) * (10 : ℚ) ^ (-2 : ℤ) ≤ a.value.toRat :=
    calc (10 ^ 12 : ℕ) * (10 : ℚ) ^ (-2 : ℤ) ≤ (10 ^ 12 : ℕ) * 10 ^ a.value.exp :=
          mul_le_mul_of_nonneg_left (Decimal.zpow_le_zpow a.scale) (Nat.cast_nonneg _)
      _ ≤ a.value.toRat := Decimal.le_toRat a.pos.le (not_lt.mp hlt)
  have hbound := a.bound
  norm_num at hscale hbound
  linarith

theorem product_pos : 0 < (product a p).coeff := Int.mul_pos a.pos p.pos

theorem product_nearly : (product a p).Nearly := by
  refine ⟨(product_pos a p).le, ?_⟩
  calc (product a p).coeff.natAbs = a.value.coeff.natAbs * p.value.coeff.natAbs :=
        Int.natAbs_mul _ _
    _ < 10 ^ 12 * 10 ^ 17 := Nat.mul_lt_mul'' a.digits p.digits
    _ = 10 ^ 29 := by norm_num

theorem product_toRat : (product a p).toRat = a.value.toRat * p.value.toRat := by
  simp only [product, Decimal.toRat]
  rw [zpow_add₀ (by norm_num)]
  push_cast
  ring

theorem PurchaseAmount.exists_cents : ∃ z : ℤ, a.value.toRat = z * 10 ^ (-2 : ℤ) := by
  obtain ⟨z, -, hz⟩ := a.value.halfEven_smaller_unit a.scale
  exact ⟨z, hz⟩

def PurchaseAmount.whole : Decimal := ⟨a.value.coeff * 100, a.value.exp⟩

theorem PurchaseAmount.whole_toRat : a.whole.toRat = a.value.toRat * 100 := by
  simp only [whole, Decimal.toRat]
  push_cast
  ring

theorem PurchaseAmount.whole_digits : a.whole.coeff.natAbs < 10 ^ 28 := by
  have hdigits := a.digits
  calc a.whole.coeff.natAbs = a.value.coeff.natAbs * 100 := Int.natAbs_mul _ _
    _ < 10 ^ 28 := by omega

theorem product_le_whole : (product a p).toRat ≤ a.whole.toRat := by
  rw [product_toRat, a.whole_toRat]
  exact mul_le_mul_of_nonneg_left p.le_hundred (Decimal.toRat_nonneg.mpr a.pos.le)

theorem product_lt : (product a p).toRat < 10 ^ 12 := by
  have hle := product_le_whole a p
  have hbound := a.bound
  rw [a.whole_toRat] at hle
  linarith

theorem whole_nearly : a.whole.Nearly := by
  have hpos := a.pos
  refine ⟨?_, lt_trans a.whole_digits (by norm_num)⟩
  simp only [PurchaseAmount.whole]
  omega

theorem fix_product_le : (product a p).fix.toRat ≤ a.value.toRat * 100 := by
  have hle := (product_nearly a p).fix_mono (whole_nearly a) (product_le_whole a p)
  rwa [(whole_nearly a).fix_short a.whole_digits, a.whole_toRat] at hle

theorem calculate_spec (offerId : String) :
    ∃ cents : ℤ, calculate offerId p.value none a.value = .ok ⟨offerId, cents⟩ ∧
      HalfEven (product a p).fix.toRat cents ∧ 0 ≤ cents ∧
      cents * 10 ^ (-2 : ℤ) ≤ a.value.toRat := by
  obtain ⟨hfix, hcontext⟩ := (product_nearly a p).fix_inContext
  obtain ⟨hdiv, hdivNonneg, -⟩ := Decimal.div_hundred hfix hcontext
  obtain ⟨cents, hcents, hquantize⟩ := Decimal.quantize_spec hdivNonneg (-2)
  have hvalue : ((product a p).fix.div ⟨100, 0⟩).toRat / 10 ^ (-2 : ℤ) =
      (product a p).fix.toRat := by
    rw [hdiv, cent]
    ring
  rw [hvalue] at hcents
  obtain ⟨z, hz⟩ := a.exists_cents
  have hnonneg : 0 ≤ cents := by
    have hzero : HalfEven 0 0 := by exact_mod_cast HalfEven.of_int 0
    exact hzero.mono hcents (Decimal.toRat_nonneg.mpr hfix)
  have hwhole : a.value.toRat * 100 = z := by
    rw [hz, cent]
    ring
  have hle : cents ≤ z := by
    apply hcents.mono (HalfEven.of_int z)
    rw [← hwhole]
    exact fix_product_le a p
  have hbound : z < 10 ^ 12 := by
    have hlt := a.bound
    have hcast : (z : ℚ) < 10 ^ 12 := by linarith
    exact_mod_cast hcast
  refine ⟨cents, ?_, hcents, hnonneg, ?_⟩
  · have hshort : cents.natAbs < 10 ^ Decimal.prec := by
      norm_num [Decimal.prec]
      omega
    have hcents' : ((a.value.mul p.value).div ⟨100, 0⟩).quantize (-2) = some cents :=
      hquantize.trans (if_pos hshort)
    simp only [calculate, quantizeCents_eq, hcents', Option.elim_some, Except.map]
  · rw [hz]
    exact Decimal.mul_zpow_le (-2) hle

/-- The cashback is the exact percentage, rounded once to cents, which lies
between nothing and the amount and grows with both. -/
structure ExactCashback (cents : ℤ) : Prop where
  rounded : HalfEven (a.value.toRat * p.value.toRat / 100 / 10 ^ (-2 : ℤ)) cents
  nonneg : 0 ≤ cents
  le_amount : cents * 10 ^ (-2 : ℤ) ≤ a.value.toRat
  mono : ∀ (a' : PurchaseAmount) (p' : Percentage) (offerId : String) (r : CashbackResult),
    a.value.toRat ≤ a'.value.toRat → p.value.toRat ≤ p'.value.toRat →
      calculate offerId p'.value none a'.value = .ok r → cents ≤ r.cashbackAmount

theorem product_mono {a a' : PurchaseAmount} {p p' : Percentage}
    (ha : a.value.toRat ≤ a'.value.toRat) (hp : p.value.toRat ≤ p'.value.toRat) :
    (product a p).toRat ≤ (product a' p').toRat := by
  rw [product_toRat, product_toRat]
  exact mul_le_mul ha hp (Decimal.toRat_nonneg.mpr p.pos.le) (Decimal.toRat_nonneg.mpr a'.pos.le)

/-- The cashback is the exact one unless the digit that the product loses decides
a tie. -/
theorem exactCashback_iff (offerId : String) :
    (∃ cents, calculate offerId p.value none a.value = .ok ⟨offerId, cents⟩ ∧
      ExactCashback a p cents) ↔ ¬ (product a p).DoubleRounded := by
  obtain ⟨cents, hcalc, hcents, hnonneg, hle⟩ := calculate_spec a p offerId
  have hiff := (product_nearly a p).halfEven_iff (product_lt a p) hcents
  have hexact : a.value.toRat * p.value.toRat / 100 / 10 ^ (-2 : ℤ) = (product a p).toRat := by
    rw [product_toRat, cent]
    ring
  rw [← hiff, ← hexact]
  constructor
  · rintro ⟨cents', hcalc', hspec⟩
    have heq : cents' = cents := by
      rw [hcalc] at hcalc'
      injection hcalc' with hresult
      injection hresult with _ hcash
      exact hcash.symm
    rw [← heq]
    exact hspec.rounded
  · intro hrounded
    refine ⟨cents, hcalc, hrounded, hnonneg, hle, ?_⟩
    intro a' p' offerId' r ha hp hr
    obtain ⟨cents', hcalc', hcents', -, -⟩ := calculate_spec a' p' offerId'
    rw [hcalc'] at hr
    injection hr with hr
    rw [← hr]
    exact hcents.mono hcents'
      ((product_nearly a p).fix_mono (product_nearly a' p') (product_mono ha hp))

def largeAmount : PurchaseAmount where
  value := ⟨984107995871, -2⟩
  pos := by decide
  scale := by decide
  bound := by norm_num [Decimal.toRat]

def longPercentage : Percentage where
  value := ⟨13316179400159845, -15⟩
  pos := by decide
  digits := by decide
  le_hundred := by norm_num [Decimal.toRat]

-- exactly 1310455862.2149999999999999995
theorem largeAmount_rounded_up :
    ¬ ∃ cents, calculate "o" longPercentage.value none largeAmount.value = .ok ⟨"o", cents⟩ ∧
      ExactCashback largeAmount longPercentage cents := by
  rintro ⟨cents, hcalc, hspec⟩
  have hcents : calculate "o" longPercentage.value none largeAmount.value =
      .ok ⟨"o", 131045586222⟩ := by decide +kernel
  rw [hcents] at hcalc
  injection hcalc with hresult
  injection hresult with _ hcash
  have hlower := hspec.rounded.lower
  rw [← hcash] at hlower
  norm_num [largeAmount, longPercentage, Decimal.toRat] at hlower

end ClickNBack.Cashback
