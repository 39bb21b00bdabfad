import ChargingSite.Number.Scaled

/-!
# Double-precision floating-point numbers

`Binary64` is the set of IEEE 754 double-precision values with one representation each: not a
number, the two infinities, and `± m · 2 ^ e` with a significand `m` below `2 ^ 53` and an exponent
`e` between `-1074` and `971`, where a significand below `2 ^ 52` occurs only with the least
exponent.  `Binary64.toRat` is the exact value of a finite double, and `Binary64.round` the double
nearest to a rational, with ties to the even significand: every operation of the library on
doubles is one exact operation on rationals followed by one `round`.
-/

namespace ChargingSite

/-- Which significands go with which exponents: at most 53 bits, exactly 53 unless the exponent is
the least one.  The two bounds are `2 ^ 53` and `2 ^ 52`. -/
def Canonical (significand : Nat) (exponent : Int) : Prop :=
  significand < 9007199254740992 ∧ -1074 ≤ exponent ∧ exponent ≤ 971 ∧
    (4503599627370496 ≤ significand ∨ exponent = -1074)

instance (m : Nat) (e : Int) : Decidable (Canonical m e) := by
  unfold Canonical
  infer_instance

/-- A double-precision floating-point number. -/
inductive Binary64 where
  /-- Not a number. -/
  | nan
  /-- An infinity, with its sign. -/
  | infinity (negative : Bool)
  /-- `± significand · 2 ^ exponent`. -/
  | finite (negative : Bool) (significand : Nat) (exponent : Int)
      (canonical : Canonical significand exponent)
  deriving DecidableEq

namespace Binary64

/-! ### Values -/

/-- Zero, with its sign. -/
def zero (negative : Bool) : Binary64 :=
  finite negative 0 (-1074) (by decide)

instance : Inhabited Binary64 := ⟨zero false⟩

/-- The value of a finite double; `0` for the others. -/
def toRat : Binary64 → Rat
  | finite s m e _ => scaled 2 (if s then -(m : Int) else m) e
  | _ => 0

/-- Neither an infinity nor not a number. -/
def isFinite : Binary64 → Bool
  | finite .. => true
  | _ => false

/-- Whether the value is not a number. -/
def isNaN : Binary64 → Bool
  | nan => true
  | _ => false

/-- Whether the sign is a minus; it is one also for a negative zero. -/
def isNegative : Binary64 → Bool
  | nan => false
  | infinity s => s
  | finite s .. => s

/-! ### Rounding -/

/-- The exponent `e` with `2 ^ e ≤ x < 2 ^ (e + 1)`, for a positive `x`.  The bit lengths of the
numerator and the denominator leave two candidates, and one comparison decides. -/
def binaryExponent (x : Rat) : Int :=
  let e : Int := (x.num.natAbs.log2 : Int) - x.den.log2
  if scaled 2 1 e ≤ x then e else e - 1

/-- `± m · 2 ^ e`, where exponents above the greatest one leave only an infinity. -/
def ofParts (negative : Bool) (m : Nat) (e : Int) : Binary64 :=
  if h : Canonical m e then finite negative m e h else infinity negative

/-- The double nearest to the positive rational `x`, with the given sign.  The significand is the
integer nearest to `x` in units of the last of its 53 bits; where that gives `2 ^ 53`, the last bit
is dropped again. -/
def roundMagnitude (negative : Bool) (x : Rat) : Binary64 :=
  let e := max (binaryExponent x - 52) (-1074)
  let m := (nearestEven (x * scaled 2 1 (-e))).toNat
  if m = 9007199254740992 then ofParts negative 4503599627370496 (e + 1)
  else ofParts negative m e

/-- The double nearest to `x`, ties to even; beyond the greatest finite double an infinity.  A zero
has no sign of its own and takes `negativeZero`. -/
def round (x : Rat) (negativeZero : Bool := false) : Binary64 :=
  if x.num = 0 then zero negativeZero
  else if x.num < 0 then roundMagnitude true (-x)
  else roundMagnitude false x

end Binary64

end ChargingSite
