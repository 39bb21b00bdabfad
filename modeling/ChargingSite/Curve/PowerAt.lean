import ChargingSite.Curve.Basic

/-!
# The power a curve allows

A state of charge is found among the calibration points by binary search (`ChargeCurve.locate`).
Between two of them the power is interpolated linearly (`ChargeCurve.powerAt?`): the quotient is one
correctly rounded division of integers, cut off toward zero.  The mean power of a curve
(`ChargeCurve.averagePower?`) is the area under it, added up in doubles trapezoid by trapezoid,
divided by the span of states of charge that it covers.
-/

namespace ChargingSite

/-! ### Finding a state of charge -/

/-- How many points lie below `s`, if those before `low` do and those from `high` on do not.  The
range between the two is halved until nothing is left of it. -/
def insertionPoint (points : List CurvePoint) (s : Percentage) (low high : Nat)
    (h : high ≤ points.length) : Nat :=
  if hrange : low < high then
    let middle := (low + high) / 2
    if points[middle].stateOfCharge < s then insertionPoint points s (middle + 1) high h
    else insertionPoint points s low middle (by omega)
  else low
termination_by high - low

/-- Where a state of charge lies on a curve. -/
inductive CurveLocation where
  | outside
  /-- At a calibration point. -/
  | sample (point : CurvePoint)
  /-- Strictly between two neighbouring calibration points. -/
  | segment (left right : CurvePoint)
  deriving DecidableEq

/-- The number of points of a curve below `s`. -/
def ChargeCurve.countBelow (c : ChargeCurve) (s : Percentage) : Nat :=
  insertionPoint c.points s 0 c.points.length (Nat.le_refl _)

/-- Finds a state of charge on a curve: it is that of the first point that does not lie below it,
or it lies between that point and the one before. -/
def ChargeCurve.locate (c : ChargeCurve) (s : Percentage) : CurveLocation :=
  if h : c.countBelow s < c.points.length then
    if c.points[c.countBelow s].stateOfCharge = s then .sample c.points[c.countBelow s]
    else if c.countBelow s = 0 then .outside
    else .segment c.points[c.countBelow s - 1] c.points[c.countBelow s]
  else .outside

/-! ### Interpolation -/

/-- The power at `s` on the straight line from `a` to `b`. -/
def interpolate? (a b : CurvePoint) (s : Percentage) : Except NumberError Power := do
  let offset : Int := s.hundredths - a.stateOfCharge.hundredths
  let span := b.stateOfCharge.hundredths - a.stateOfCharge.hundredths
  let delta ← Binary64.quotient? ((b.power.watts - a.power.watts) * offset) span
  let n ← delta.truncate?
  return a.power + ⟨n⟩

namespace ChargeCurve

/-- The power that the curve allows at a state of charge. -/
def powerAt? (c : ChargeCurve) (s : Percentage) : Except SiteError Power :=
  match c.locate s with
  | .outside => .error (.outsideCurve s c.first.stateOfCharge c.last.stateOfCharge)
  | .sample p => .ok p.power
  | .segment a b => liftNumber (interpolate? a b s)

/-! ### The mean power -/

/-- The area under the line from `a` to `b`, over fractions of the state of charge. -/
def trapezoid? (a b : CurvePoint) : Except NumberError Binary64 := do
  let height ← Binary64.quotient? (a.power.watts + b.power.watts) 2
  return height * (b.stateOfCharge.fraction - a.stateOfCharge.fraction)

/-- The area under a curve: its trapezoids, added up from left to right. -/
def area? (c : ChargeCurve) : Except NumberError Binary64 :=
  c.segments.foldlM (fun area (a, b) => do return area + (← trapezoid? a b)) 0

/-- The mean power over the states of charge that the curve covers. -/
def averagePower? (c : ChargeCurve) : Except NumberError Power := do
  let area ← c.area?
  let span := c.last.stateOfCharge.fraction - c.first.stateOfCharge.fraction
  let n ← (area / span).truncate?
  return ⟨n⟩

end ChargeCurve

end ChargingSite
