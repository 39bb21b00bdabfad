/-!
# Scaled integers and nearest integers

Two exact tools that every rounding in the library goes through.  `scaled b m e` is the rational
`m · b ^ e`, for a base `b` and an exponent of either sign: with base two it is the value of a
double, with base ten the value of a decimal.  `nearestEven x` is the integer nearest to the
rational `x`, and of two equally near ones the even one (`nearestEven_intCast`: an integer is its
own nearest integer).
-/

namespace ChargingSite

/-! ### Powers -/

/-- The rational `m · b ^ e`. -/
def scaled (b : Nat) (m : Int) (e : Int) : Rat :=
  if 0 ≤ e then ((m * (Nat.pow b e.toNat : Nat) : Int) : Rat)
  else mkRat m (Nat.pow b (-e).toNat)

/-! ### The nearest integer -/

/-- The integer nearest to `x`; halfway between two integers, the even one of them. -/
def nearestEven (x : Rat) : Int :=
  let q := x.num / x.den
  let r := x.num % x.den
  if 2 * r < x.den then q
  else if x.den < 2 * r then q + 1
  else if q % 2 = 0 then q
  else q + 1

/-- An integer is its own nearest integer. -/
theorem nearestEven_intCast (n : Int) : nearestEven (n : Rat) = n := by
  simp [nearestEven]

/-- A tie goes to the even neighbour, on both sides of zero. -/
example : nearestEven (5 / 2) = 2 ∧ nearestEven (7 / 2) = 4 ∧ nearestEven (-5 / 2) = -2 := by
  decide +kernel

/-- `x` cut off toward zero. -/
def truncated (x : Rat) : Int :=
  x.num.tdiv x.den

end ChargingSite
