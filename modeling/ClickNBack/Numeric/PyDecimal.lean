import ClickNBack.Numeric.PyFloat

namespace ClickNBack.Numeric

inductive PyDecimal
  | finite (d : Decimal)
  | inf
  | negInf
  | nan
deriving DecidableEq

/-- The sum without rounding, as PostgreSQL's numeric computes it. -/
def Decimal.add (a b : Decimal) : Decimal :=
  ⟨a.coeff * 10 ^ (a.exp - b.exp).toNat + b.coeff * 10 ^ (b.exp - a.exp).toNat, min a.exp b.exp⟩

namespace PyDecimal

/-- `Decimal(str(x))` -/
def ofStr : PyFloat → PyDecimal
  | .finite p => .finite p.value
  | .inf => .inf
  | .negInf => .negInf
  | .nan => .nan

def infinity (s : Int) : PyDecimal := if 0 < s then .inf else .negInf

/-- The product with a finite decimal; `none` is the InvalidOperation of zero times
an infinity. -/
def mul (a : Decimal) : PyDecimal → Option PyDecimal
  | .finite d => some (.finite (a.mul d))
  | .inf => if a.coeff = 0 then none else some (infinity a.coeff)
  | .negInf => if a.coeff = 0 then none else some (infinity (-a.coeff))
  | .nan => some .nan

def div (x : PyDecimal) (d : Decimal) : PyDecimal :=
  match x with
  | .finite a => .finite (a.div d)
  | .inf => infinity d.coeff
  | .negInf => infinity (-d.coeff)
  | .nan => .nan

/-- `none` is an InvalidOperation, which a NaN does not raise. -/
def quantize (x : PyDecimal) (e : Int) : Option PyDecimal :=
  match x with
  | .finite d => (d.quantize e).map fun q => .finite ⟨q, e⟩
  | .inf | .negInf => none
  | .nan => some .nan

def add : PyDecimal → PyDecimal → PyDecimal
  | .finite a, .finite b => .finite (a.add b)
  | .nan, _ | _, .nan | .inf, .negInf | .negInf, .inf => .nan
  | .inf, _ | _, .inf => .inf
  | .negInf, _ | _, .negInf => .negInf

end PyDecimal

end ClickNBack.Numeric
