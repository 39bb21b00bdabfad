import ChargingSite.Number.Binary64

/-!
# Numbers to a fixed number of decimal places

`Binary64.fixed n x` writes the exact value of `x` to `n` places, and `Binary64.roundPlaces n x` is
the double nearest to that decimal.  Both take a tie to the even digit; as the exact binary value is
rounded, a tie is a true one.
-/

namespace ChargingSite

/-- The natural number of `10 ^ -places` units, written with a point. -/
def pointed (units places : Nat) : String :=
  let cs := Nat.toDigits 10 units
  let cs := List.replicate (places + 1 - cs.length) '0' ++ cs
  let whole := cs.length - places
  String.ofList (cs.take whole) ++
    (if places = 0 then "" else "." ++ String.ofList (cs.drop whole))

namespace Binary64

/-- The text of a double to `places` decimal places.  A minus sign stays also where only zeros are
left. -/
def fixed (places : Nat) : Binary64 → String
  | nan => "nan"
  | infinity s => if s then "-inf" else "inf"
  | x@(finite s ..) =>
    let units := nearestEven (x.toRat * scaled 10 1 places)
    (if s then "-" else "") ++ pointed units.natAbs places

/-- The double nearest to the exact value rounded to `places` decimal places. -/
def roundPlaces (places : Nat) : Binary64 → Binary64
  | x@(finite s ..) =>
    round (scaled 10 (nearestEven (x.toRat * scaled 10 1 places)) (-(places : Int))) s
  | x => x

end Binary64

end ChargingSite
