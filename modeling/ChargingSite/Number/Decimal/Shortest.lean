import ChargingSite.Number.Binary64

/-!
# The shortest decimal of a double

`Shortest.digits` finds, for a positive double, a decimal with as few digits as possible that reads
back as the same double, and of those the nearest one.  The numbers that read back are those between
the two midpoints with the neighbouring doubles (the midpoints count when the significand is even,
because a tie is read to the even side).  For one digit, two digits, and so on, the two decimals
around the value are tried; seventeen digits always suffice.

`Binary64.shortest` lays the digits out: positionally for decimal exponents from `-4` to `15`, with
at least one digit after the point, and in exponent notation otherwise.
-/

namespace ChargingSite

/-- The decimal `coefficient · 10 ^ exponent`. -/
structure Decimal where
  coefficient : Nat
  exponent : Int
  deriving DecidableEq

/-! ### Finding the digits -/

namespace Shortest

/-- The decimal exponent `k` with `10 ^ k ≤ x < 10 ^ (k + 1)`, for a positive `x`: an estimate from
the binary exponent, put right by at most one. -/
def decimalExponent (x : Rat) : Int :=
  let k := Binary64.binaryExponent x * 30103 / 100000
  if scaled 10 1 (k + 1) ≤ x then k + 1
  else if x < scaled 10 1 k then k - 1
  else k

/-- The double `m · 2 ^ e` among the decimals whose last digit stands for `10 ^ u`.  All comparisons
are between naturals: four times the value in the finer of the two units is `value`, and `unit` is
four times `10 ^ u`. -/
structure Grid where
  /-- Four times the value. -/
  value : Nat
  /-- Four times the distance to the midpoint below. -/
  below : Nat
  /-- Four times the distance to the midpoint above. -/
  above : Nat
  /-- Four times the distance between two decimals. -/
  unit : Nat
  /-- Whether the midpoints themselves read back as the value. -/
  closed : Bool

/-- The double `m · 2 ^ e` on the grid of `10 ^ u`.  Below a power of two the neighbouring double is
only half as far away, unless the doubles are at their least exponent already. -/
def Grid.of (m : Nat) (e u : Int) : Grid :=
  let two := Nat.pow 2 e.toNat * Nat.pow 10 (-u).toNat
  let ten := Nat.pow 10 u.toNat * Nat.pow 2 (-e).toNat
  { value := 4 * m * two
    below := if m = 4503599627370496 ∧ e ≠ -1074 then two else 2 * two
    above := 2 * two
    unit := 4 * ten
    closed := m % 2 = 0 }

/-- Whether `c` units read back as the value. -/
def Grid.readsBack (g : Grid) (c : Nat) : Bool :=
  let x := c * g.unit
  if g.closed then g.value ≤ x + g.below && x ≤ g.value + g.above
  else g.value < x + g.below && x < g.value + g.above

/-- The nearer of the two decimals around the value that read back; on a tie the even one. -/
def Grid.best? (g : Grid) : Option Nat :=
  let low := g.value / g.unit
  let rest := g.value % g.unit
  let lowFirst := 2 * rest < g.unit || (2 * rest == g.unit && low % 2 == 0)
  let (first, second) := if lowFirst then (low, low + 1) else (low + 1, low)
  if g.readsBack first then some first
  else if g.readsBack second then some second
  else none

/-- The shortest decimal that reads back as `m · 2 ^ e`: the first hit on the grids of one digit,
two digits, and so on to seventeen, the last of which always has one. -/
def digits (m : Nat) (e : Int) : Decimal :=
  let top := decimalExponent (scaled 2 m e)
  let hit? := (List.range 17).findSome? fun (i : Nat) =>
    (Grid.of m e (top - i)).best?.map fun c => (⟨c, top - i⟩ : Decimal)
  if m = 0 then ⟨0, 0⟩ else hit?.getD ⟨0, 0⟩

end Shortest

/-! ### Laying the digits out -/

/-- The digits of a coefficient without trailing zeros, and the exponent of ten of its first
digit. -/
def Decimal.scientific (d : Decimal) : List Char × Int :=
  let cs := Nat.toDigits 10 d.coefficient
  let kept := (cs.reverse.dropWhile (· == '0')).reverse
  (if kept.isEmpty then ['0'] else kept, d.exponent + cs.length - 1)

/-- An exponent in at least two digits, with its sign. -/
def exponentText (e : Int) : String :=
  let n := e.natAbs
  (if e < 0 then "e-" else "e+") ++ (if n < 10 then "0" else "") ++ toString n

/-- The digits of a number in positional notation from `1e-4` to below `1e16`, otherwise with an
exponent.  `top` is the exponent of ten of the first digit. -/
def layOut (cs : List Char) (top : Int) : String :=
  if top < -4 ∨ 16 ≤ top then
    match cs with
    | [] => ""
    | [c] => String.ofList [c] ++ exponentText top
    | c :: rest => String.ofList (c :: '.' :: rest) ++ exponentText top
  else if top < 0 then
    "0." ++ String.ofList (List.replicate (-top - 1).toNat '0' ++ cs)
  else
    let whole := top.toNat + 1
    let fraction := cs.drop whole
    String.ofList (cs.take whole ++ List.replicate (whole - cs.length) '0') ++ "." ++
      (if fraction.isEmpty then "0" else String.ofList fraction)

/-- The shortest text of a double that reads back as it. -/
def Binary64.shortest : Binary64 → String
  | .nan => "nan"
  | .infinity s => if s then "-inf" else "inf"
  | .finite s m e _ =>
    let (cs, top) := (Shortest.digits m e).scientific
    (if s then "-" else "") ++ layOut cs top

end ChargingSite
