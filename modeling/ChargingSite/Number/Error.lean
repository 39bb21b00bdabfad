/-!
# Numbers that do not exist

The conversions between integers and doubles and the divisions are partial, and durations have a
range.  `NumberError` names the causes and `NumberError.message` words them.
-/

namespace ChargingSite

/-- Why a conversion, a division or a duration has no result. -/
inductive NumberError where
  /-- An infinity has no integer. -/
  | infinityToInteger
  /-- Not a number has no integer. -/
  | nanToInteger
  /-- An infinity is no ratio of integers. -/
  | infinityToRatio
  /-- Not a number is no ratio of integers. -/
  | nanToRatio
  /-- An integer beyond the greatest double. -/
  | integerTooLarge
  /-- A quotient of integers beyond the greatest double. -/
  | quotientTooLarge
  /-- A whole number of parts of size zero. -/
  | integerByZero
  /-- The quotient of an integer and the integer zero. -/
  | quotientByZero
  /-- A number divided by a zero double. -/
  | doubleByZero
  /-- A duration of too many whole days, rounded down. -/
  | daysOutOfRange (days : Int)
  deriving DecidableEq

/-- The wording of each cause.  A count of days beyond 32 bits is not repeated. -/
def NumberError.message : NumberError → String
  | infinityToInteger => "cannot convert float infinity to integer"
  | nanToInteger => "cannot convert float NaN to integer"
  | infinityToRatio => "cannot convert Infinity to integer ratio"
  | nanToRatio => "cannot convert NaN to integer ratio"
  | integerTooLarge => "int too large to convert to float"
  | quotientTooLarge => "integer division result too large for a float"
  | integerByZero => "integer division or modulo by zero"
  | quotientByZero => "division by zero"
  | doubleByZero => "float division by zero"
  | daysOutOfRange days =>
    if -2147483648 ≤ days ∧ days ≤ 2147483647 then
      "days=" ++ toString days ++ "; must have magnitude <= 999999999"
    else "Python int too large to convert to C int"

end ChargingSite
