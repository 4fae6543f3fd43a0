import ClickNBack.Numeric.HalfEven
import Mathlib.Algebra.Order.Field.Power
import Mathlib.Tactic.FieldSimp
import Mathlib.Tactic.LinearCombination
import Mathlib.Tactic.NormNum

namespace ClickNBack.Numeric

theorem numDigits_le_iff {n k : Nat} (hk : 0 < k) : numDigits n ≤ k ↔ n < 10 ^ k := by
  rw [numDigits]
  by_cases hn : n = 0
  · subst hn
    simp
    omega
  · rw [← Nat.log_lt_iff_lt_pow (by norm_num) hn]
    omega

namespace Decimal

def toRat (d : Decimal) : ℚ := d.coeff * 10 ^ d.exp

def InContext (d : Decimal) : Prop := d.coeff.natAbs < 10 ^ prec

theorem ten_zpow_pos (e : ℤ) : (0 : ℚ) < 10 ^ e := zpow_pos (by norm_num) e

theorem toRat_pos {d : Decimal} : 0 < d.toRat ↔ 0 < d.coeff := by
  rw [toRat, mul_pos_iff_of_pos_right (ten_zpow_pos d.exp), Int.cast_pos]

theorem toRat_nonneg {d : Decimal} : 0 ≤ d.toRat ↔ 0 ≤ d.coeff := by
  rw [toRat, mul_nonneg_iff_of_pos_right (ten_zpow_pos d.exp), Int.cast_nonneg_iff]

theorem same_unit (a b : Decimal) : ∃ e : ℤ,
    a.toRat = (a.coeff * 10 ^ (a.exp - b.exp).toNat : ℤ) * 10 ^ e ∧
      b.toRat = (b.coeff * 10 ^ (b.exp - a.exp).toNat : ℤ) * 10 ^ e := by
  have hunit : ∀ (d : Decimal) (k : Nat) (e : ℤ), d.exp = e + k →
      d.toRat = (d.coeff * 10 ^ k : ℤ) * 10 ^ e := by
    intro d k e hk
    rw [toRat, hk, zpow_add₀ (by norm_num), zpow_natCast]
    push_cast
    ring
  exact ⟨min a.exp b.exp, hunit a _ _ (by omega), hunit b _ _ (by omega)⟩

theorem lt_iff (a b : Decimal) : a.lt b = true ↔ a.toRat < b.toRat := by
  obtain ⟨e, ha, hb⟩ := same_unit a b
  rw [ha, hb, mul_lt_mul_iff_of_pos_right (ten_zpow_pos e), Int.cast_lt, lt, decide_eq_true_iff]

theorem le_iff (a b : Decimal) : a.le b = true ↔ a.toRat ≤ b.toRat := by
  obtain ⟨e, ha, hb⟩ := same_unit a b
  rw [ha, hb, mul_le_mul_iff_of_pos_right (ten_zpow_pos e), Int.cast_le, le, decide_eq_true_iff]

section

variable {d : Decimal}

theorem signed_natAbs (h : 0 ≤ d.coeff) (n : Nat) (hn : d.coeff = 0 → n = 0) :
    d.signed n = n := by
  rw [signed]
  obtain h | h := h.lt_or_eq
  · rw [Int.sign_eq_one_of_pos h, one_mul]
  · rw [hn h.symm, Nat.cast_zero, mul_zero]

theorem dropDigits_zero (h : 0 ≤ d.coeff) : d.dropDigits 0 = d := by
  rw [dropDigits]
  rw [pow_zero, divHalfEven_one, signed_natAbs h _ fun h0 => by rw [h0]; rfl,
    Int.natAbs_of_nonneg h, Nat.cast_zero, add_zero]

theorem fix_eq_self (h : 0 ≤ d.coeff) (hd : d.InContext) : d.fix = d := by
  have hdigits : numDigits d.coeff.natAbs - prec = 0 :=
    Nat.sub_eq_zero_of_le ((numDigits_le_iff (by decide)).mpr hd)
  rw [fix]
  simp only [hdigits, dropDigits_zero h]

theorem dropDigits_one (h : 0 ≤ d.coeff) :
    d.dropDigits 1 = ⟨divHalfEven d.coeff.natAbs 10, d.exp + 1⟩ := by
  rw [dropDigits]
  rw [pow_one, signed_natAbs h _ fun h0 => by rw [h0]; rfl, Nat.cast_one]

theorem numDigits_eq {n k : Nat} (hk : 0 < k) (hl : 10 ^ k ≤ n) (hu : n < 10 ^ (k + 1)) :
    numDigits n = k + 1 := by
  have hle := (numDigits_le_iff (by omega)).mpr hu
  have hlt : ¬ numDigits n ≤ k := fun h => absurd ((numDigits_le_iff hk).mp h) (by omega)
  omega

theorem fix_of_long (h : 0 ≤ d.coeff) (hl : 10 ^ 28 ≤ d.coeff.natAbs)
    (hu : d.coeff.natAbs < 10 ^ 29) :
    d.fix.toRat = divHalfEven d.coeff.natAbs 10 * 10 ^ (d.exp + 1) ∧ 0 ≤ d.fix.coeff ∧
      d.fix.InContext := by
  have hdigits : numDigits d.coeff.natAbs = 29 := numDigits_eq (by norm_num) hl hu
  obtain ⟨hb, hb'⟩ := divHalfEven_bounds d.coeff.natAbs 10
  have hfix : d.fix = (⟨divHalfEven d.coeff.natAbs 10, d.exp + 1⟩ : Decimal).dropDigits
      (numDigits (divHalfEven d.coeff.natAbs 10) - 28) := by
    rw [fix]
    rw [hdigits]
    change (d.dropDigits 1).dropDigits (numDigits (d.dropDigits 1).coeff.natAbs - 28) = _
    rw [dropDigits_one h, Int.natAbs_natCast]
  generalize divHalfEven d.coeff.natAbs 10 = n at hb hb' hfix ⊢
  have hn : 0 ≤ (⟨n, d.exp + 1⟩ : Decimal).coeff := Int.natCast_nonneg n
  obtain hlt | heq : n < 10 ^ 28 ∨ n = 10 ^ 28 := by omega
  · have hzero : numDigits n - 28 = 0 :=
      Nat.sub_eq_zero_of_le ((numDigits_le_iff (by norm_num)).mpr hlt)
    rw [hfix, hzero, dropDigits_zero hn]
    exact ⟨rfl, hn, hlt⟩
  · have hlong : numDigits n = 28 + 1 :=
      numDigits_eq (by norm_num) heq.ge (heq ▸ Nat.pow_lt_pow_right (by norm_num) (by norm_num))
    have hone : numDigits n - 28 = 1 := by rw [hlong]
    have hdrop : divHalfEven n 10 = 10 ^ 27 := by
      rw [heq]
      exact divHalfEven_mul (10 ^ 27) (by decide : 0 < 10)
    rw [hfix, hone, dropDigits_one hn, Int.natAbs_natCast, hdrop]
    refine ⟨?_, by norm_num, by norm_num [InContext, prec]⟩
    simp only [toRat]
    rw [heq, zpow_add₀ (by norm_num) (d.exp + 1)]
    push_cast
    ring

theorem natAbs_dropDigits_le (d : Decimal) (k : Nat) :
    (d.dropDigits k).coeff.natAbs ≤ divHalfEven d.coeff.natAbs (10 ^ k) := by
  change (d.coeff.sign * (divHalfEven d.coeff.natAbs (10 ^ k) : ℤ)).natAbs ≤ _
  rw [Int.natAbs_mul, Int.natAbs_natCast]
  have hsign : d.coeff.sign.natAbs ≤ 1 := by
    obtain h | h | h := d.coeff.sign_trichotomy <;> simp [h]
  exact (Nat.mul_le_mul_right _ hsign).trans (Nat.one_mul _).le

theorem fix_inContext (d : Decimal) : d.fix.InContext := by
  have hfirst : ∀ d : Decimal,
      (d.dropDigits (numDigits d.coeff.natAbs - prec)).coeff.natAbs ≤ 10 ^ 28 := by
    intro d
    generalize hk : numDigits d.coeff.natAbs - prec = k
    have hdigits : d.coeff.natAbs < 10 ^ (28 + k) :=
      (numDigits_le_iff (by omega)).mp (by rw [prec] at hk; omega)
    have hquot : d.coeff.natAbs / 10 ^ k < 10 ^ 28 := by
      apply Nat.div_lt_of_lt_mul
      rwa [← pow_add, Nat.add_comm]
    exact (natAbs_dropDigits_le d k).trans ((divHalfEven_bounds _ _).2.trans hquot)
  have hd' := hfirst d
  rw [fix, InContext]
  generalize d.dropDigits (numDigits d.coeff.natAbs - prec) = d' at hd' ⊢
  obtain hlt | heq : d'.coeff.natAbs < 10 ^ 28 ∨ d'.coeff.natAbs = 10 ^ 28 := by omega
  · have hzero : numDigits d'.coeff.natAbs - prec = 0 :=
      Nat.sub_eq_zero_of_le ((numDigits_le_iff (by decide)).mpr hlt)
    have hle := natAbs_dropDigits_le d' 0
    rw [pow_zero, divHalfEven_one] at hle
    simp only [hzero]
    exact hle.trans_lt hlt
  · have hlong : numDigits d'.coeff.natAbs = 28 + 1 :=
      numDigits_eq (by norm_num) heq.ge (heq ▸ Nat.pow_lt_pow_right (by norm_num) (by norm_num))
    have hone : numDigits d'.coeff.natAbs - prec = 1 := by rw [hlong, prec]
    have hle := natAbs_dropDigits_le d' 1
    rw [pow_one, heq, show (10 : ℕ) ^ 28 = 10 ^ 27 * 10 from rfl,
      divHalfEven_mul (10 ^ 27) (by decide)] at hle
    simp only [hone]
    exact hle.trans_lt (by norm_num [prec])

theorem stripZeros_mul (j k m : Nat) (e : Int) :
    stripZeros (k + j) (m * 10 ^ j) e = stripZeros k m (e + j) := by
  induction j generalizing e with
  | zero => simp
  | succ j ih =>
    have hmod : m * 10 ^ (j + 1) % 10 = 0 := by
      rw [pow_succ, ← mul_assoc, Nat.mul_mod_left]
    have hdiv : m * 10 ^ (j + 1) / 10 = m * 10 ^ j := by
      rw [pow_succ, ← mul_assoc, Nat.mul_div_cancel _ (by norm_num)]
    rw [← Nat.add_assoc, stripZeros, if_pos hmod, hdiv, ih, Nat.cast_succ]
    congr 1
    ring

theorem stripZeros_spec (k n : Nat) (e : Int) :
    ((stripZeros k n e).1 : ℚ) * 10 ^ (stripZeros k n e).2 = n * 10 ^ e ∧
      (stripZeros k n e).1 ≤ n := by
  induction k generalizing n e with
  | zero => exact ⟨rfl, le_refl n⟩
  | succ k ih =>
    rw [stripZeros]
    by_cases h : n % 10 = 0
    · rw [if_pos h]
      obtain ⟨hval, hle⟩ := ih (n / 10) (e + 1)
      refine ⟨?_, hle.trans (Nat.div_le_self n 10)⟩
      have hn : (n : ℚ) = (n / 10 : ℕ) * 10 := by
        have hnat : n = n / 10 * 10 := by omega
        exact_mod_cast hnat
      rw [hval, zpow_add₀ (by norm_num), zpow_one]
      linear_combination (-(10 : ℚ) ^ e) * hn
    · rw [if_neg h]
      exact ⟨rfl, le_refl n⟩

theorem divCoeff_hundred {n : Nat} (hn : n < 10 ^ 28) (e : Int) :
    divCoeff n 100 e = stripZeros 2 n (e - 2) := by
  have hdigits := (numDigits_le_iff (by norm_num)).mpr hn
  obtain ⟨k, hk⟩ : ∃ k, numDigits n + k = 28 := ⟨28 - numDigits n, by omega⟩
  have hshift : (numDigits 100 - numDigits n + prec + 1 : Int) = ((2 + (k + 2) : Nat) : Int) := by
    have h100 : numDigits 100 = 2 + 1 := numDigits_eq (by norm_num) (by norm_num) (by norm_num)
    rw [h100, prec]
    omega
  have hneg : (-((2 + (k + 2) : Nat) : Int)).toNat = 0 := by omega
  have hmul : n * 10 ^ (2 + (k + 2)) = n * 10 ^ (k + 2) * 100 := by ring
  rw [divCoeff]
  simp only [hshift, Int.toNat_natCast, hneg, pow_zero, mul_one, hmul, Nat.mul_mod_left, if_true,
    Nat.mul_div_cancel _ (by norm_num : 0 < 100)]
  rw [stripZeros_mul]
  congr 1
  push_cast
  ring

/-- Dividing by a hundred is exact. -/
theorem div_hundred (h : 0 ≤ d.coeff) (hd : d.InContext) :
    (d.div ⟨100, 0⟩).toRat = d.toRat / 100 ∧ 0 ≤ (d.div ⟨100, 0⟩).coeff ∧
      (d.div ⟨100, 0⟩).InContext := by
  obtain ⟨hval, hle⟩ := stripZeros_spec 2 d.coeff.natAbs (d.exp - 2)
  have hcoeff : (d.coeff.natAbs : ℚ) = d.coeff := by
    rw [← Int.cast_natCast, Int.natAbs_of_nonneg h]
  have hdiv : d.div ⟨100, 0⟩ = fix ⟨(stripZeros 2 d.coeff.natAbs (d.exp - 2)).1,
      (stripZeros 2 d.coeff.natAbs (d.exp - 2)).2⟩ := by
    have hq : divCoeff d.coeff.natAbs (100 : ℤ).natAbs (d.exp - 0) =
        stripZeros 2 d.coeff.natAbs (d.exp - 2) := by
      rw [Int.sub_zero]
      exact divCoeff_hundred hd d.exp
    rw [div]
    simp only [hq]
    congr 2
    obtain hpos | hzero := h.lt_or_eq
    · rw [Int.sign_eq_one_of_pos hpos, (by decide : Int.sign 100 = 1), one_mul, one_mul]
    · rw [← hzero] at hle ⊢
      rw [Nat.le_zero.mp hle]
      rfl
  generalize stripZeros 2 d.coeff.natAbs (d.exp - 2) = q at hval hle hdiv
  have hq0 : 0 ≤ (⟨q.1, q.2⟩ : Decimal).coeff := Int.natCast_nonneg q.1
  have hqd : (⟨q.1, q.2⟩ : Decimal).InContext := lt_of_le_of_lt hle hd
  rw [hdiv, fix_eq_self hq0 hqd]
  refine ⟨?_, hq0, hqd⟩
  simp only [toRat, Int.cast_natCast]
  rw [hval, hcoeff, zpow_sub₀ (by norm_num)]
  ring

/-- Quantizing rounds once, and fails only on a number with too many digits. -/
theorem quantize_spec (h : 0 ≤ d.coeff) (e : Int) :
    ∃ z : ℤ, HalfEven (d.toRat / 10 ^ e) z ∧
      d.quantize e = if z.natAbs < 10 ^ prec then some z else none := by
  have hcoeff : (d.coeff.natAbs : ℚ) = d.coeff := by
    rw [← Int.cast_natCast, Int.natAbs_of_nonneg h]
  have hzero : ∀ k m, 0 < m → d.coeff = 0 → divHalfEven (d.coeff.natAbs * k) m = 0 := by
    intro k m hm h0
    have hmul := divHalfEven_mul 0 hm
    rw [Nat.zero_mul] at hmul
    rw [h0, Int.natAbs_zero, Nat.zero_mul, hmul]
  refine ⟨_, ?_, if_congr (numDigits_le_iff (by decide)) rfl rfl⟩
  rw [signed_natAbs h _ fun h0 => hzero _ _ (by positivity) h0]
  obtain ⟨k, hk⟩ | ⟨k, hk⟩ : (∃ k : Nat, d.exp = e + k) ∨ ∃ k : Nat, e = d.exp + k := by
    obtain hle | hle := Int.le_total e d.exp
    · exact Or.inl ⟨(d.exp - e).toNat, by omega⟩
    · exact Or.inr ⟨(e - d.exp).toNat, by omega⟩
  · have hint : d.toRat / 10 ^ e = ((d.coeff.natAbs * 10 ^ k : ℕ) : ℤ) := by
      rw [toRat, hk, zpow_add₀ (by norm_num), zpow_natCast, ← hcoeff,
        Int.cast_natCast, Nat.cast_mul, Nat.cast_pow, Nat.cast_ofNat]
      field_simp
    have hpow : (e - d.exp).toNat = 0 := by omega
    have hshift : (d.exp - e).toNat = k := by omega
    rw [hpow, hshift, pow_zero, divHalfEven_one, hint]
    exact HalfEven.of_int _
  · have hquot : d.toRat / 10 ^ e = (d.coeff.natAbs : ℚ) / (10 ^ k : ℕ) := by
      rw [toRat, hk, zpow_add₀ (by norm_num), zpow_natCast, ← hcoeff,
        Nat.cast_pow, Nat.cast_ofNat]
      field_simp
    have hpow : (e - d.exp).toNat = k := by omega
    have hshift : (d.exp - e).toNat = 0 := by omega
    rw [hpow, hshift, pow_zero, mul_one, hquot]
    exact halfEven_div _ (by positivity)

end

end Decimal

end ClickNBack.Numeric
