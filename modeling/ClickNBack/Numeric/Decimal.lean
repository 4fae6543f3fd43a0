import Mathlib.Data.Nat.Log
import Mathlib.Data.Int.Order.Basic
import Mathlib.Tactic.Positivity

namespace ClickNBack.Numeric

/-- A finite decimal `coeff * 10 ^ exp`. -/
structure Decimal where
  coeff : Int
  exp : Int
deriving DecidableEq, Repr

/-- Division to the nearest integer, ties to the even one. -/
def divHalfEven (n d : Nat) : Nat :=
  if 2 * (n % d) < d then n / d
  else if d < 2 * (n % d) then n / d + 1
  else if n / d % 2 = 0 then n / d else n / d + 1

def numDigits (n : Nat) : Nat := Nat.log 10 n + 1

namespace Decimal

/-- The significant digits of the default context. -/
def prec : Nat := 28

def signed (d : Decimal) (n : Nat) : Int := d.coeff.sign * n

def dropDigits (d : Decimal) (k : Nat) : Decimal :=
  ⟨d.signed (divHalfEven d.coeff.natAbs (10 ^ k)), d.exp + k⟩

/-- Round to the digits of the context; a carry may cost one digit more. -/
def fix (d : Decimal) : Decimal :=
  let d' := d.dropDigits (numDigits d.coeff.natAbs - prec)
  d'.dropDigits (numDigits d'.coeff.natAbs - prec)

def mul (a b : Decimal) : Decimal := fix ⟨a.coeff * b.coeff, a.exp + b.exp⟩

/-- Remove trailing zeros of an exact quotient, as long as its exponent may grow. -/
def stripZeros : Nat → Nat → Int → Nat × Int
  | 0, n, e => (n, e)
  | k + 1, n, e => if n % 10 = 0 then stripZeros k (n / 10) (e + 1) else (n, e)

/-- The division of two coefficients with one digit more than the context has;
an inexact one never ends in 0 or 5, so that rounding it is rounding the quotient. -/
def divCoeff (n m : Nat) (e : Int) : Nat × Int :=
  let shift : Int := numDigits m - numDigits n + prec + 1
  let n' := n * 10 ^ shift.toNat
  let m' := m * 10 ^ (-shift).toNat
  if n' % m' = 0 then stripZeros shift.toNat (n' / m') (e - shift)
  else (if n' / m' % 5 = 0 then n' / m' + 1 else n' / m', e - shift)

def div (a b : Decimal) : Decimal :=
  let q := divCoeff a.coeff.natAbs b.coeff.natAbs (a.exp - b.exp)
  fix ⟨a.coeff.sign * b.coeff.sign * q.1, q.2⟩

/-- The coefficient for the exponent `e`; `none` when it has more digits than
the context. -/
def quantize (d : Decimal) (e : Int) : Option Int :=
  let q := d.signed (divHalfEven (d.coeff.natAbs * 10 ^ (d.exp - e).toNat) (10 ^ (e - d.exp).toNat))
  if numDigits q.natAbs ≤ prec then some q else none

/-- `a < b`, compared in the smaller of their units. -/
def lt (a b : Decimal) : Bool :=
  a.coeff * 10 ^ (a.exp - b.exp).toNat < b.coeff * 10 ^ (b.exp - a.exp).toNat

def le (a b : Decimal) : Bool :=
  a.coeff * 10 ^ (a.exp - b.exp).toNat ≤ b.coeff * 10 ^ (b.exp - a.exp).toNat

theorem signed_nonneg {d : Decimal} (h : 0 ≤ d.coeff) (n : Nat) : 0 ≤ d.signed n :=
  mul_nonneg (Int.sign_nonneg_iff.mpr h) (Int.natCast_nonneg n)

theorem dropDigits_nonneg {d : Decimal} (h : 0 ≤ d.coeff) (k : Nat) : 0 ≤ (d.dropDigits k).coeff :=
  signed_nonneg h _

theorem fix_nonneg {d : Decimal} (h : 0 ≤ d.coeff) : 0 ≤ d.fix.coeff :=
  dropDigits_nonneg (dropDigits_nonneg h _) _

theorem mul_nonneg {a b : Decimal} (ha : 0 ≤ a.coeff) (hb : 0 ≤ b.coeff) : 0 ≤ (a.mul b).coeff :=
  fix_nonneg (Int.mul_nonneg ha hb)

theorem div_nonneg {a b : Decimal} (ha : 0 ≤ a.coeff) (hb : 0 ≤ b.coeff) : 0 ≤ (a.div b).coeff := by
  have hsign : 0 ≤ a.coeff.sign * b.coeff.sign :=
    Int.mul_nonneg (Int.sign_nonneg_iff.mpr ha) (Int.sign_nonneg_iff.mpr hb)
  exact fix_nonneg (Int.mul_nonneg hsign (Int.natCast_nonneg _))

theorem quantize_nonneg {d : Decimal} (h : 0 ≤ d.coeff) {e q : Int} (hq : d.quantize e = some q) :
    0 ≤ q := by
  simp only [quantize] at hq
  split at hq
  · exact Option.some.inj hq ▸ signed_nonneg h _
  · cases hq

-- 0.005 and 0.015 are ties
example : (Decimal.quantize ⟨5, -3⟩ (-2), Decimal.quantize ⟨15, -3⟩ (-2)) = (some 0, some 2) := by
  decide +kernel

end Decimal

end ClickNBack.Numeric
