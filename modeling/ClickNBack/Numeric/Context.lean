import ClickNBack.Numeric.Rational

namespace ClickNBack.Numeric.Decimal

/-- A non-negative number with one digit at most more than the context has. -/
structure Nearly (d : Decimal) : Prop where
  nonneg : 0 ≤ d.coeff
  digits : d.coeff.natAbs < 10 ^ 29

variable {d d' : Decimal}

theorem toRat_of_natAbs (h : 0 ≤ d.coeff) : d.toRat = d.coeff.natAbs * 10 ^ d.exp := by
  have hcoeff : (d.coeff.natAbs : ℚ) = d.coeff := by
    rw [← Int.cast_natCast, Int.natAbs_of_nonneg h]
  rw [toRat, hcoeff]

theorem zpow_le_zpow {e e' : ℤ} (h : e ≤ e') : (10 : ℚ) ^ e ≤ 10 ^ e' :=
  zpow_le_zpow_right₀ (by norm_num) h

theorem zpow_succ (e : ℤ) : (10 : ℚ) ^ (e + 1) = 10 * 10 ^ e := by
  rw [zpow_add₀ (by norm_num), zpow_one, mul_comm]

theorem toRat_lt (h : 0 ≤ d.coeff) {n : Nat} (hn : d.coeff.natAbs < n) :
    d.toRat < n * 10 ^ d.exp := by
  rw [toRat_of_natAbs h]
  exact mul_lt_mul_of_pos_right (by exact_mod_cast hn) (ten_zpow_pos _)

theorem le_toRat (h : 0 ≤ d.coeff) {n : Nat} (hn : n ≤ d.coeff.natAbs) :
    n * 10 ^ d.exp ≤ d.toRat := by
  rw [toRat_of_natAbs h]
  exact mul_le_mul_of_nonneg_right (by exact_mod_cast hn) (ten_zpow_pos _).le

theorem halfEven_smaller_unit (d : Decimal) {e : ℤ} (h : e ≤ d.exp) :
    ∃ z, HalfEven (d.toRat / 10 ^ e) z ∧ d.toRat = z * 10 ^ e := by
  obtain ⟨k, hk⟩ : ∃ k : Nat, d.exp = e + k := ⟨(d.exp - e).toNat, by omega⟩
  have hval : d.toRat = ((d.coeff * 10 ^ k : ℤ) : ℚ) * 10 ^ e := by
    rw [toRat, hk, zpow_add₀ (by norm_num), zpow_natCast]
    push_cast
    ring
  refine ⟨d.coeff * 10 ^ k, ?_, hval⟩
  rw [hval, mul_div_cancel_right₀ _ (ten_zpow_pos e).ne']
  exact HalfEven.of_int _

theorem Nearly.fix_long (h : d.Nearly) (hl : 10 ^ 28 ≤ d.coeff.natAbs) :
    ∃ z : ℤ, HalfEven (d.toRat / 10 ^ (d.exp + 1)) z ∧ d.fix.toRat = z * 10 ^ (d.exp + 1) ∧
      10 ^ 27 ≤ z ∧ z ≤ 10 ^ 28 := by
  obtain ⟨hval, -, -⟩ := fix_of_long h.nonneg hl h.digits
  have hb := divHalfEven_bounds d.coeff.natAbs 10
  have hu := h.digits
  refine ⟨divHalfEven d.coeff.natAbs 10, ?_, by rw [hval, Int.cast_natCast], by omega, by omega⟩
  have hquot : d.toRat / 10 ^ (d.exp + 1) = (d.coeff.natAbs : ℚ) / (10 : ℕ) := by
    have hten := (ten_zpow_pos d.exp).ne'
    rw [toRat_of_natAbs h.nonneg, zpow_succ, Nat.cast_ofNat]
    field_simp
  rw [hquot]
  exact halfEven_div _ (by norm_num)

theorem Nearly.fix_short (h : d.Nearly) (hs : d.coeff.natAbs < 10 ^ 28) : d.fix = d :=
  fix_eq_self h.nonneg hs

theorem mul_zpow_le {z w : ℤ} (e : ℤ) (h : z ≤ w) : (z : ℚ) * 10 ^ e ≤ w * 10 ^ e :=
  mul_le_mul_of_nonneg_right (by exact_mod_cast h) (ten_zpow_pos e).le

/-- A short number is below every long one with the same or a larger unit, also
after rounding. -/
theorem Nearly.short_le_long (h : d.Nearly) (hs : d.coeff.natAbs < 10 ^ 28) (h' : d'.Nearly)
    (hl : 10 ^ 28 ≤ d'.coeff.natAbs) (he : d.exp ≤ d'.exp) : d.toRat ≤ d'.fix.toRat := by
  obtain ⟨z, -, hval, hlow, -⟩ := h'.fix_long hl
  calc d.toRat ≤ (10 ^ 28 : ℕ) * 10 ^ d.exp := (toRat_lt h.nonneg hs).le
    _ ≤ (10 ^ 28 : ℕ) * 10 ^ d'.exp := by
      exact mul_le_mul_of_nonneg_left (zpow_le_zpow he) (Nat.cast_nonneg _)
    _ = (10 ^ 27 : ℤ) * 10 ^ (d'.exp + 1) := by
      rw [zpow_succ]
      push_cast
      ring
    _ ≤ z * 10 ^ (d'.exp + 1) := by exact_mod_cast mul_zpow_le (d'.exp + 1) hlow
    _ = d'.fix.toRat := hval.symm

theorem Nearly.short_lt_long (h : d.Nearly) (hs : d.coeff.natAbs < 10 ^ 28) (h' : d'.Nearly)
    (hl : 10 ^ 28 ≤ d'.coeff.natAbs) (he : d.exp ≤ d'.exp) : d.toRat < d'.toRat :=
  calc d.toRat < (10 ^ 28 : ℕ) * 10 ^ d.exp := toRat_lt h.nonneg hs
    _ ≤ (10 ^ 28 : ℕ) * 10 ^ d'.exp := by
      exact mul_le_mul_of_nonneg_left (zpow_le_zpow he) (Nat.cast_nonneg _)
    _ ≤ d'.toRat := le_toRat h'.nonneg hl

theorem Nearly.long_le_long (h : d.Nearly) (hl : 10 ^ 28 ≤ d.coeff.natAbs) (h' : d'.Nearly)
    (hl' : 10 ^ 28 ≤ d'.coeff.natAbs) (he : d.exp < d'.exp) : d.fix.toRat ≤ d'.fix.toRat := by
  obtain ⟨z, -, hval, -, hhigh⟩ := h.fix_long hl
  obtain ⟨z', -, hval', hlow', -⟩ := h'.fix_long hl'
  calc d.fix.toRat = z * 10 ^ (d.exp + 1) := hval
    _ ≤ (10 ^ 28 : ℤ) * 10 ^ (d.exp + 1) := by exact_mod_cast mul_zpow_le (d.exp + 1) hhigh
    _ ≤ (10 ^ 28 : ℤ) * 10 ^ d'.exp := by
      exact mul_le_mul_of_nonneg_left (zpow_le_zpow (by omega)) (by norm_num)
    _ = (10 ^ 27 : ℤ) * 10 ^ (d'.exp + 1) := by
      rw [zpow_succ]
      push_cast
      ring
    _ ≤ z' * 10 ^ (d'.exp + 1) := by exact_mod_cast mul_zpow_le (d'.exp + 1) hlow'
    _ = d'.fix.toRat := hval'.symm

theorem Nearly.long_lt_long (h : d.Nearly) (h' : d'.Nearly) (hl' : 10 ^ 28 ≤ d'.coeff.natAbs)
    (he : d.exp < d'.exp) : d.toRat < d'.toRat :=
  calc d.toRat < (10 ^ 29 : ℕ) * 10 ^ d.exp := toRat_lt h.nonneg h.digits
    _ = (10 ^ 28 : ℕ) * 10 ^ (d.exp + 1) := by
      rw [zpow_succ]
      push_cast
      ring
    _ ≤ (10 ^ 28 : ℕ) * 10 ^ d'.exp := by
      exact mul_le_mul_of_nonneg_left (zpow_le_zpow (by omega)) (Nat.cast_nonneg _)
    _ ≤ d'.toRat := le_toRat h'.nonneg hl'

/-- Rounding to the digits of the context is monotone. -/
theorem Nearly.fix_mono (h : d.Nearly) (h' : d'.Nearly) (hle : d.toRat ≤ d'.toRat) :
    d.fix.toRat ≤ d'.fix.toRat := by
  have hquot : ∀ e : ℤ, d.toRat / 10 ^ e ≤ d'.toRat / 10 ^ e := fun e =>
    div_le_div_of_nonneg_right hle (ten_zpow_pos e).le
  obtain hs | hl := Nat.lt_or_ge d.coeff.natAbs (10 ^ 28)
  · rw [h.fix_short hs]
    obtain hs' | hl' := Nat.lt_or_ge d'.coeff.natAbs (10 ^ 28)
    · rwa [h'.fix_short hs']
    · obtain he | he := lt_or_ge d'.exp d.exp
      · obtain ⟨z, hz, hval⟩ := d.halfEven_smaller_unit (Int.add_one_le_of_lt he)
        obtain ⟨z', hz', hval', -, -⟩ := h'.fix_long hl'
        rw [hval, hval']
        exact mul_zpow_le _ (hz.mono hz' (hquot _))
      · exact h.short_le_long hs h' hl' he
  · obtain ⟨z, hz, hval, -, -⟩ := h.fix_long hl
    obtain hs' | hl' := Nat.lt_or_ge d'.coeff.natAbs (10 ^ 28)
    · rw [h'.fix_short hs']
      obtain he | he := lt_or_ge d.exp d'.exp
      · obtain ⟨z', hz', hval'⟩ := d'.halfEven_smaller_unit (Int.add_one_le_of_lt he)
        rw [hval, hval']
        exact mul_zpow_le _ (hz.mono hz' (hquot _))
      · exact absurd hle (h'.short_lt_long hs' h hl he).not_ge
    · obtain he | he | he := lt_trichotomy d.exp d'.exp
      · exact h.long_le_long hl h' hl' he
      · obtain ⟨z', hz', hval', -, -⟩ := h'.fix_long hl'
        rw [← he] at hz' hval'
        rw [hval, hval']
        exact mul_zpow_le _ (hz.mono hz' (hquot _))
      · exact absurd hle (h'.long_lt_long h hl he).not_ge

theorem Nearly.fix_inContext (h : d.Nearly) : 0 ≤ d.fix.coeff ∧ d.fix.InContext := by
  obtain hs | hl := Nat.lt_or_ge d.coeff.natAbs (10 ^ 28)
  · rw [h.fix_short hs]
    exact ⟨h.nonneg, hs⟩
  · exact (fix_of_long h.nonneg hl h.digits).2

/-- The digit that the context drops decides how the rest is rounded to an integer. -/
def DoubleRounded (d : Decimal) : Prop :=
  10 ^ 28 ≤ d.coeff.natAbs ∧ NearTie d.coeff.natAbs (10 ^ (-(d.exp + 1)).toNat)

theorem toRat_eq_div (h : 0 ≤ d.coeff) {k : Nat} (hk : d.exp = -k) :
    d.toRat = (d.coeff.natAbs : ℚ) / (10 ^ k : ℕ) := by
  rw [toRat_of_natAbs h, hk, zpow_neg, zpow_natCast, ← div_eq_mul_inv, Nat.cast_pow,
    Nat.cast_ofNat]

theorem Nearly.exp_of_long (h : d.Nearly) (hl : 10 ^ 28 ≤ d.coeff.natAbs)
    (hd : d.toRat < 10 ^ 12) : ∃ k : Nat, 16 ≤ k ∧ d.exp = -(k + 1 : ℕ) := by
  have hexp : d.exp ≤ -17 := by
    by_contra hlt
    have hle : (10 ^ 28 : ℕ) * (10 : ℚ) ^ (-16 : ℤ) ≤ d.toRat :=
      calc (10 ^ 28 : ℕ) * (10 : ℚ) ^ (-16 : ℤ) ≤ (10 ^ 28 : ℕ) * 10 ^ d.exp :=
            mul_le_mul_of_nonneg_left (zpow_le_zpow (by omega)) (Nat.cast_nonneg _)
        _ ≤ d.toRat := le_toRat h.nonneg hl
    norm_num at hle hd
    linarith
  exact ⟨(-d.exp - 1).toNat, by omega, by omega⟩

/-- Rounding to the context and then to an integer is rounding once, except next
to a tie. -/
theorem Nearly.halfEven_iff (h : d.Nearly) (hd : d.toRat < 10 ^ 12) {z : ℤ}
    (hz : HalfEven d.fix.toRat z) : HalfEven d.toRat z ↔ ¬ d.DoubleRounded := by
  obtain hs | hl := Nat.lt_or_ge d.coeff.natAbs (10 ^ 28)
  · rw [h.fix_short hs] at hz
    exact iff_of_true hz fun hr => absurd hr.1 hs.not_ge
  · obtain ⟨k, hk, hexp⟩ := h.exp_of_long hl hd
    have hpos : 0 < 10 ^ k := by positivity
    have hfour : 10 ^ k % 4 = 0 := by
      obtain ⟨j, rfl⟩ := Nat.exists_eq_add_of_le hk
      rw [Nat.pow_add]
      omega
    have hfix : d.fix.toRat = (divHalfEven d.coeff.natAbs 10 : ℚ) / (10 ^ k : ℕ) := by
      have hshift : d.exp + 1 = -(k : ℤ) := by omega
      rw [(fix_of_long h.nonneg hl h.digits).1, hshift, zpow_neg, zpow_natCast,
        ← div_eq_mul_inv, Nat.cast_pow, Nat.cast_ofNat]
    have hone : HalfEven d.fix.toRat (divHalfEven (divHalfEven d.coeff.natAbs 10) (10 ^ k)) := by
      rw [hfix]
      exact halfEven_div _ hpos
    have honce : HalfEven d.toRat (divHalfEven d.coeff.natAbs (10 * 10 ^ k)) := by
      rw [toRat_eq_div h.nonneg hexp, Nat.pow_succ']
      exact halfEven_div _ (by positivity)
    have hunit : (-(d.exp + 1)).toNat = k := by omega
    rw [DoubleRounded, and_iff_right hl, hunit, ← divHalfEven_twice _ hpos hfour, hz.unique hone]
    constructor
    · intro htwice
      exact_mod_cast htwice.unique honce
    · intro heq
      rw [heq]
      exact honce

end ClickNBack.Numeric.Decimal
