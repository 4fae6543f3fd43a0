import ClickNBack.Numeric.Decimal

namespace ClickNBack.Numeric

structure Printed where
  value : Decimal
  digits : value.coeff.natAbs < 10 ^ 17
deriving DecidableEq

/-- A Python float. A finite one is given by the decimal that `str` prints, the
shortest that rounds to it; floats are ordered as these are. -/
inductive PyFloat
  | finite (printed : Printed)
  | inf
  | negInf
  | nan
deriving DecidableEq

namespace PyFloat

def ofNat (n : Nat) (h : n < 10 ^ 17) : PyFloat := .finite ⟨⟨n, 0⟩, h⟩

instance : Zero PyFloat := ⟨ofNat 0 (by decide)⟩

/-- `x < y`; nothing compares to a NaN. -/
def lt : PyFloat → PyFloat → Bool
  | .finite p, .finite q => p.value.lt q.value
  | .finite _, .inf | .negInf, .finite _ | .negInf, .inf => true
  | _, _ => false

def le : PyFloat → PyFloat → Bool
  | .nan, _ | _, .nan => false
  | .finite p, .finite q => p.value.le q.value
  | .negInf, _ | _, .inf => true
  | _, _ => false

end PyFloat

end ClickNBack.Numeric
