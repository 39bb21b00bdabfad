import ChargingSite.Number.Binary64
import ChargingSite.Number.Error

/-!
# Arithmetic and comparison of doubles

The four operations on finite doubles are the exact operation on the values followed by one
rounding (`Binary64.round`).  What is left are the rules for signed zeros and for the values that
are not finite.  A comparison with something that is not a number is false, equality included, and
the two zeros are equal.
-/

namespace ChargingSite

namespace Binary64

/-! ### The four operations -/

/-- The number with the opposite sign. -/
protected def neg : Binary64 → Binary64
  | nan => nan
  | infinity s => infinity !s
  | finite s m e h => finite (!s) m e h

/-- The rounded sum.  A zero sum is negative only if both terms are negative. -/
protected def add : Binary64 → Binary64 → Binary64
  | nan, _ | _, nan => nan
  | infinity s, infinity t => if s = t then infinity s else nan
  | infinity s, finite .. => infinity s
  | finite .., infinity t => infinity t
  | x@(finite s ..), y@(finite t ..) => round (x.toRat + y.toRat) (s && t)

/-- The rounded difference. -/
protected def sub (x y : Binary64) : Binary64 :=
  x.add y.neg

/-- The rounded product.  Zero times infinity is not a number. -/
protected def mul : Binary64 → Binary64 → Binary64
  | nan, _ | _, nan => nan
  | infinity s, infinity t => infinity (s ^^ t)
  | infinity s, finite t m .. | finite t m .., infinity s =>
    if m = 0 then nan else infinity (s ^^ t)
  | x@(finite s ..), y@(finite t ..) => round (x.toRat * y.toRat) (s ^^ t)

/-- The rounded quotient.  A number other than zero divided by zero is infinite, and zero divided by
zero is not a number. -/
protected def div : Binary64 → Binary64 → Binary64
  | nan, _ | _, nan => nan
  | infinity _, infinity _ => nan
  | infinity s, finite t .. => infinity (s ^^ t)
  | finite s .., infinity t => zero (s ^^ t)
  | x@(finite s m ..), y@(finite t n ..) =>
    if n = 0 then (if m = 0 then nan else infinity (s ^^ t))
    else round (x.toRat / y.toRat) (s ^^ t)

instance : Neg Binary64 := ⟨Binary64.neg⟩
instance : Add Binary64 := ⟨Binary64.add⟩
instance : Sub Binary64 := ⟨Binary64.sub⟩
instance : Mul Binary64 := ⟨Binary64.mul⟩
instance : Div Binary64 := ⟨Binary64.div⟩

/-! ### Comparison -/

/-- `x < y`; false if one of them is not a number. -/
def lt : Binary64 → Binary64 → Bool
  | nan, _ | _, nan => false
  | infinity s, infinity t => s && !t
  | infinity s, finite .. => s
  | finite .., infinity t => !t
  | x@(finite ..), y@(finite ..) => x.toRat < y.toRat

/-- `x = y` as numbers: the zeros are equal, and not a number equals nothing. -/
def eq : Binary64 → Binary64 → Bool
  | nan, _ | _, nan => false
  | infinity s, infinity t => s == t
  | infinity _, finite .. | finite .., infinity _ => false
  | x@(finite ..), y@(finite ..) => x.toRat = y.toRat

/-- `x ≤ y`; false if one of them is not a number. -/
def le (x y : Binary64) : Bool :=
  x.lt y || x.eq y

/-- The greater of two doubles, the first one if they are equal; not a number if one of them is
none. -/
protected def max (x y : Binary64) : Binary64 :=
  if x.isNaN || y.isNaN then nan else if x.lt y then y else x

/-! ### Integers -/

/-- The double nearest to an integer, an infinity beyond the greatest one. -/
def ofInt (n : Int) : Binary64 :=
  round n

instance (n : Nat) : OfNat Binary64 n := ⟨ofInt n⟩

/-- The double nearest to an integer, if it is finite. -/
def ofInt? (n : Int) : Except NumberError Binary64 :=
  let x := ofInt n
  if x.isFinite then .ok x else .error .integerTooLarge

/-- The double nearest to the exact quotient of two integers, if it is finite. -/
def quotient? (a : Int) (b : Nat) : Except NumberError Binary64 :=
  let x := round (mkRat a b)
  if x.isFinite then .ok x else .error .quotientTooLarge

/-- The double nearest to the exact quotient of two integers of any sign, refusing a zero divisor.
Zero divided by a negative integer is the negative zero. -/
def intQuotient? (a b : Int) : Except NumberError Binary64 :=
  if b = 0 then .error .quotientByZero
  else (quotient? a b.natAbs).map fun x => if b < 0 then -x else x

/-- The quotient of two doubles, refusing a zero divisor. -/
def div? (x y : Binary64) : Except NumberError Binary64 :=
  if y.eq 0 then .error .doubleByZero else .ok (x / y)

/-- The exact value, as a ratio of integers. -/
def ratio? : Binary64 → Except NumberError Rat
  | nan => .error .nanToRatio
  | infinity _ => .error .infinityToRatio
  | x@(finite ..) => .ok x.toRat

/-- An integer read off the exact value by `f`: cut off, or rounded. -/
def toIntBy (f : Rat → Int) : Binary64 → Except NumberError Int
  | nan => .error .nanToInteger
  | infinity _ => .error .infinityToInteger
  | x@(finite ..) => .ok (f x.toRat)

/-- The number cut off toward zero. -/
def truncate? (x : Binary64) : Except NumberError Int :=
  x.toIntBy truncated

/-- The nearest integer, ties to even. -/
def nearestInt? (x : Binary64) : Except NumberError Int :=
  x.toIntBy nearestEven

end Binary64

end ChargingSite
