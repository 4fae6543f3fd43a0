import ClickNBack.Numeric.Decimal
import Mathlib.Algebra.Order.Field.Rat
import Mathlib.Data.Rat.Cast.Order
import Mathlib.Tactic.Linarith
import Mathlib.Tactic.Ring

namespace ClickNBack.Numeric

/-- `z` is `q` rounded to the nearest integer, ties to the even one. -/
structure HalfEven (q : ℚ) (z : ℤ) : Prop where
  lower : (z : ℚ) - 1 / 2 ≤ q
  upper : q ≤ z + 1 / 2
  even : q = z - 1 / 2 ∨ q = z + 1 / 2 → z % 2 = 0

namespace HalfEven

variable {q r : ℚ} {z w : ℤ}

theorem of_int (z : ℤ) : HalfEven z z := by
  constructor
  · linarith
  · linarith
  · rintro (h | h) <;> linarith

theorem mono (hq : HalfEven q z) (hr : HalfEven r w) (h : q ≤ r) : z ≤ w := by
  by_contra hlt
  have hle : (w : ℚ) + 1 ≤ z := by exact_mod_cast not_le.mp hlt
  have hl := hq.lower
  have hu := hr.upper
  -- both are the tie between two neighbours, and only one of these is even
  have hz : z = w + 1 := by
    have hzw : (z : ℚ) = w + 1 := by linarith
    exact_mod_cast hzw
  have hz' : (z : ℚ) = w + 1 := by exact_mod_cast hz
  have hzeven := hq.even (Or.inl (by linarith))
  have hweven := hr.even (Or.inr (by linarith))
  omega

theorem unique (hz : HalfEven q z) (hw : HalfEven q w) : z = w :=
  le_antisymm (hz.mono hw (le_refl q)) (hw.mono hz (le_refl q))

/-- A tie above an even number is rounded down to it, and one above an odd number is not. -/
theorem le_iff (h : HalfEven q z) (n : ℤ) :
    z ≤ n ↔ q ≤ n + 1 / 2 ∧ (q = n + 1 / 2 → n % 2 = 0) := by
  constructor
  · intro hle
    have hcast : (z : ℚ) ≤ n := by exact_mod_cast hle
    have hu := h.upper
    refine ⟨by linarith, fun htie => ?_⟩
    have hz : (z : ℚ) = n := by linarith
    have hz' : z = n := by exact_mod_cast hz
    rw [← hz']
    exact h.even (Or.inr (by linarith))
  · rintro ⟨hq, htie⟩
    have hl := h.lower
    by_contra hlt
    have hle : (n : ℚ) + 1 ≤ z := by exact_mod_cast not_le.mp hlt
    have hz : (z : ℚ) = n + 1 := by linarith
    have hz' : z = n + 1 := by exact_mod_cast hz
    have heven := h.even (Or.inl (by linarith))
    have heven' := htie (by linarith)
    omega

theorem lt_iff_of_even (h : HalfEven q z) {n : ℤ} (hn : n % 2 = 0) : z < n ↔ q < n - 1 / 2 := by
  constructor
  · intro hlt
    have hle : (z : ℚ) + 1 ≤ n := by exact_mod_cast Int.add_one_le_of_lt hlt
    have hu := h.upper
    by_contra hge
    have hz : (z : ℚ) + 1 = n := by linarith
    have hz' : z + 1 = n := by exact_mod_cast hz
    have heven := h.even (Or.inr (by linarith))
    omega
  · intro hq
    have hl := h.lower
    have hlt : (z : ℚ) < n := by linarith
    exact_mod_cast hlt

end HalfEven

theorem divHalfEven_mul_add (q : Nat) {r d : Nat} (h : r < d) :
    divHalfEven (q * d + r) d =
      if 2 * r < d then q else if d < 2 * r then q + 1 else if q % 2 = 0 then q else q + 1 := by
  have hdiv : (q * d + r) / d = q := by
    rw [Nat.mul_comm, Nat.mul_add_div (by omega), Nat.div_eq_of_lt h, Nat.add_zero]
  have hmod : (q * d + r) % d = r := by
    rw [Nat.mul_comm, Nat.mul_add_mod, Nat.mod_eq_of_lt h]
  rw [divHalfEven, hdiv, hmod]

theorem divHalfEven_mul (q : Nat) {d : Nat} (h : 0 < d) : divHalfEven (q * d) d = q := by
  have heq := divHalfEven_mul_add q h
  rw [Nat.add_zero, Nat.mul_zero, if_pos h] at heq
  exact heq

theorem divHalfEven_one (n : Nat) : divHalfEven n 1 = n := by
  have heq := divHalfEven_mul n Nat.one_pos
  rwa [Nat.mul_one] at heq

theorem divHalfEven_bounds (n d : Nat) :
    n / d ≤ divHalfEven n d ∧ divHalfEven n d ≤ n / d + 1 := by
  rw [divHalfEven]
  split_ifs <;> omega

theorem halfEven_div (n : Nat) {d : Nat} (h : 0 < d) :
    HalfEven ((n : ℚ) / d) (divHalfEven n d) := by
  have hd : (0 : ℚ) < d := by exact_mod_cast h
  obtain ⟨q, r, hr, rfl⟩ : ∃ q r, r < d ∧ n = q * d + r :=
    ⟨n / d, n % d, Nat.mod_lt n h, by rw [Nat.mul_comm, Nat.div_add_mod]⟩
  have hq : ((q * d + r : ℕ) : ℚ) / d = q + r / d := by
    rw [Nat.cast_add, Nat.cast_mul, add_div, mul_div_cancel_right₀ _ hd.ne']
  have hr0 : (0 : ℚ) ≤ r / d := div_nonneg (Nat.cast_nonneg r) hd.le
  have hr1 : (r : ℚ) / d < 1 := (div_lt_one hd).mpr (by exact_mod_cast hr)
  have hz : ((q : ℤ) : ℚ) = q := Int.cast_natCast q
  have hz1 : (((q + 1 : ℕ) : ℤ) : ℚ) = q + 1 := by push_cast; rfl
  rw [hq, divHalfEven_mul_add q hr]
  obtain hlt | hgt | htie : 2 * r < d ∨ d < 2 * r ∨ d = 2 * r := by omega
  · have hhalf : (r : ℚ) / d < 1 / 2 := by
      have hcast : (2 : ℚ) * r < d := by exact_mod_cast hlt
      rw [div_lt_iff₀ hd]
      linarith
    rw [if_pos hlt]
    refine ⟨by linarith, by linarith, ?_⟩
    rintro (h | h) <;> linarith
  · have hhalf : 1 / 2 < (r : ℚ) / d := by
      have hcast : (d : ℚ) < 2 * r := by exact_mod_cast hgt
      rw [lt_div_iff₀ hd]
      linarith
    rw [if_neg (by omega), if_pos hgt]
    refine ⟨by linarith, by linarith, ?_⟩
    rintro (h | h) <;> linarith
  · have hhalf : (r : ℚ) / d = 1 / 2 := by
      have hcast : (d : ℚ) = 2 * r := by exact_mod_cast htie
      rw [div_eq_iff hd.ne']
      linarith
    rw [if_neg (by omega), if_neg (by omega), hhalf]
    by_cases heven : q % 2 = 0
    · rw [if_pos heven]
      exact ⟨by linarith, by linarith, fun _ => by omega⟩
    · rw [if_neg heven]
      exact ⟨by linarith, by linarith, fun _ => by omega⟩

/-- The number lies within five units of a tie, on the side of its odd neighbour,
so that dropping its last digit first makes it a tie. -/
def NearTie (n m : Nat) : Prop :=
  ∃ k, 1 ≤ k ∧ k ≤ 5 ∧ (n % (20 * m) = 5 * m + k ∨ n % (20 * m) = 15 * m - k)

theorem nearTie_mul_add (q : Nat) {r m : Nat} (hm : 4 ≤ m) (hr : r < 10 * m) :
    NearTie (q * (10 * m) + r) m ↔ (q % 2 = 0 ∧ 5 * m + 1 ≤ r ∧ r ≤ 5 * m + 5) ∨
      (q % 2 = 1 ∧ 5 * m ≤ r + 5 ∧ r + 1 ≤ 5 * m) := by
  rw [NearTie]
  obtain ⟨u, rfl | rfl⟩ := Nat.even_or_odd' q
  · have hmod : (2 * u * (10 * m) + r) % (20 * m) = r := by
      rw [show 2 * u * (10 * m) = 20 * m * u by ring, Nat.mul_add_mod, Nat.mod_eq_of_lt (by omega)]
    rw [hmod]
    constructor
    · rintro ⟨k, hk⟩
      omega
    · intro h
      exact ⟨r - 5 * m, by omega⟩
  · have hmod : ((2 * u + 1) * (10 * m) + r) % (20 * m) = 10 * m + r := by
      rw [show (2 * u + 1) * (10 * m) + r = 20 * m * u + (10 * m + r) by ring, Nat.mul_add_mod,
        Nat.mod_eq_of_lt (by omega)]
    rw [hmod]
    constructor
    · rintro ⟨k, hk⟩
      omega
    · intro h
      exact ⟨5 * m - r, by omega⟩

/-- Rounding off one digit and then a multiple of four is rounding off both at
once, except next to a tie. -/
theorem divHalfEven_twice (n : Nat) {m : Nat} (hm : 0 < m) (h4 : m % 4 = 0) :
    divHalfEven (divHalfEven n 10) m = divHalfEven n (10 * m) ↔ ¬ NearTie n m := by
  obtain ⟨q, t, ρ, ht, hρ, rfl⟩ : ∃ q t ρ, t < 10 ∧ ρ < m ∧ n = (q * m + ρ) * 10 + t := by
    refine ⟨n / 10 / m, n % 10, n / 10 % m, Nat.mod_lt _ (by norm_num), Nat.mod_lt _ hm, ?_⟩
    rw [Nat.mul_comm (n / 10 / m), Nat.div_add_mod, Nat.mul_comm, Nat.div_add_mod]
  obtain ⟨g, rfl⟩ : ∃ g, m = 4 * g := ⟨m / 4, by omega⟩
  have hn : (q * (4 * g) + ρ) * 10 + t = q * (10 * (4 * g)) + (10 * ρ + t) := by ring
  have hparity : (q * (4 * g) + ρ) % 2 = ρ % 2 := by
    rw [show q * (4 * g) = 2 * (q * (2 * g)) by ring, Nat.mul_add_mod]
  have hnext : divHalfEven (q * (4 * g) + ρ + 1) (4 * g) =
      if 2 * (ρ + 1) < 4 * g then q else if 4 * g < 2 * (ρ + 1) then q + 1
        else if q % 2 = 0 then q else q + 1 := by
    obtain hlt | heq : ρ + 1 < 4 * g ∨ ρ + 1 = 4 * g := by omega
    · rw [Nat.add_assoc, divHalfEven_mul_add q hlt]
    · rw [Nat.add_assoc, heq, show q * (4 * g) + 4 * g = (q + 1) * (4 * g) by ring,
        divHalfEven_mul (q + 1) hm, if_neg (by omega), if_pos (by omega)]
  rw [hn, nearTie_mul_add q (by omega) (by omega), ← hn, divHalfEven_mul_add _ ht, hn,
    divHalfEven_mul_add q (by omega), hparity]
  by_cases hup : 5 < t ∨ (t = 5 ∧ ρ % 2 = 1)
  · -- the dropped digit carries into the last one that is kept
    have hcarry : (if 2 * t < 10 then q * (4 * g) + ρ else if 10 < 2 * t then q * (4 * g) + ρ + 1
        else if ρ % 2 = 0 then q * (4 * g) + ρ else q * (4 * g) + ρ + 1) =
        q * (4 * g) + ρ + 1 := by
      split_ifs <;> omega
    rw [hcarry, hnext]
    split_ifs <;> omega
  · have hkeep : (if 2 * t < 10 then q * (4 * g) + ρ else if 10 < 2 * t then q * (4 * g) + ρ + 1
        else if ρ % 2 = 0 then q * (4 * g) + ρ else q * (4 * g) + ρ + 1) =
        q * (4 * g) + ρ := by
      split_ifs <;> omega
    rw [hkeep, divHalfEven_mul_add q hρ]
    split_ifs <;> omega

end ClickNBack.Numeric
