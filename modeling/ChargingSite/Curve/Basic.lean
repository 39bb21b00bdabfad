import ChargingSite.Error

/-!
# Charge curves

A charge curve says with how much power a battery can be charged at which state of charge.  It is a
list of at least two calibration points whose states of charge increase strictly
(`ChargeCurve.increasing`); `ChargeCurve.ofPoints?` accepts exactly such lists.  A curve need not
reach from 0 % to 100 %: a part of a curve is one, too.
-/

namespace ChargingSite

/-- The power at one state of charge. -/
structure CurvePoint where
  stateOfCharge : Percentage
  power : Power
  deriving DecidableEq

/-- The point as a record. -/
def CurvePoint.recordText (p : CurvePoint) : String :=
  "CurvePoint(state_of_charge=" ++ p.stateOfCharge.recordText ++ ", power=" ++
    p.power.recordText ++ ")"

/-- The first two neighbours whose states of charge do not increase. -/
def firstDisorder? : List CurvePoint → Option (CurvePoint × CurvePoint)
  | a :: b :: rest =>
    if a.stateOfCharge < b.stateOfCharge then firstDisorder? (b :: rest) else some (a, b)
  | _ => none

/-- Without such neighbours every point lies below all that follow. -/
theorem pairwise_of_firstDisorder?_eq_none :
    ∀ {ps : List CurvePoint}, firstDisorder? ps = none →
      ps.Pairwise fun a b => a.stateOfCharge < b.stateOfCharge
  | [], _ => .nil
  | [_], _ => List.pairwise_singleton ..
  | a :: b :: rest, h => by
    unfold firstDisorder? at h
    split at h
    · next hab =>
      have ih := pairwise_of_firstDisorder?_eq_none h
      refine .cons (fun c hc => ?_) ih
      rcases List.mem_cons.1 hc with rfl | hc
      · exact hab
      · exact Nat.lt_trans hab (List.rel_of_pairwise_cons ih hc)
    · cases h

/-- Where every point lies below all that follow there are no such neighbours. -/
theorem firstDisorder?_eq_none_of_pairwise :
    ∀ {ps : List CurvePoint}, (ps.Pairwise fun a b => a.stateOfCharge < b.stateOfCharge) →
      firstDisorder? ps = none
  | [], _ => rfl
  | [_], _ => rfl
  | a :: b :: rest, h => by
    have hab := List.rel_of_pairwise_cons h (List.mem_cons_self ..)
    unfold firstDisorder?
    rw [if_pos hab]
    exact firstDisorder?_eq_none_of_pairwise h.of_cons

/-- At least two points with strictly increasing states of charge. -/
structure ChargeCurve where
  points : List CurvePoint
  two_le_length : 2 ≤ points.length
  increasing : points.Pairwise fun a b => a.stateOfCharge < b.stateOfCharge
  deriving DecidableEq

namespace ChargeCurve

/-! ### Making curves -/

/-- The curve through the given points. -/
def ofPoints? (points : List CurvePoint) : Except SiteError ChargeCurve :=
  if length : 2 ≤ points.length then
    match order : firstDisorder? points with
    | some (a, b) => .error (.notIncreasing a.stateOfCharge b.stateOfCharge)
    | none => .ok ⟨points, length, pairwise_of_firstDisorder?_eq_none order⟩
  else .error (.tooFewPoints points.length)

/-- A curve has the points that it was made from. -/
theorem points_of_ofPoints? {ps : List CurvePoint} {c : ChargeCurve} (h : ofPoints? ps = .ok c) :
    c.points = ps := by
  unfold ofPoints? at h
  split at h
  · split at h
    · cases h
    · cases h
      rfl
  · cases h

/-- A curve can be made from its own points. -/
theorem ofPoints?_points (c : ChargeCurve) : ofPoints? c.points = .ok c := by
  unfold ofPoints?
  rw [dif_pos c.two_le_length]
  split
  · next h =>
    rw [firstDisorder?_eq_none_of_pairwise c.increasing] at h
    cases h
  · rfl

/-- A point from a number of percent and a number of kilowatts. -/
def pointOfPair? (pair : Binary64 × Binary64) : Except NumberError CurvePoint := do
  let stateOfCharge ← Percentage.ofPercent? pair.1
  let power ← Power.ofKilowatts? pair.2
  return ⟨stateOfCharge, power⟩

/-- The curve through points given in percent and kilowatts. -/
def ofPairs? (pairs : List (Binary64 × Binary64)) : Except SiteError ChargeCurve := do
  let points ← liftNumber (pairs.mapM pointOfPair?)
  ofPoints? points

/-! ### Its ends -/

/-- A curve has points. -/
theorem points_ne_nil (c : ChargeCurve) : c.points ≠ [] :=
  List.ne_nil_of_length_pos (Nat.lt_of_lt_of_le (by decide) c.two_le_length)

/-- The point with the least state of charge. -/
def first (c : ChargeCurve) : CurvePoint :=
  c.points.head c.points_ne_nil

/-- The point with the greatest state of charge. -/
def last (c : ChargeCurve) : CurvePoint :=
  c.points.getLast c.points_ne_nil

/-- Whether the curve reaches from 0 % to 100 %. -/
def spansFully (c : ChargeCurve) : Bool :=
  c.first.stateOfCharge.hundredths = 0 && c.last.stateOfCharge.hundredths = 10000

/-- The neighbouring points, in order. -/
def segments (c : ChargeCurve) : List (CurvePoint × CurvePoint) :=
  c.points.zip c.points.tail

/-! ### Texts -/

/-- The two texts of a point. -/
def pointTexts? (p : CurvePoint) : Except NumberError (String × String) := do
  let power ← p.power.text?
  return (p.stateOfCharge.text, power)

/-- The points in one line. -/
def text? (c : ChargeCurve) : Except NumberError String := do
  let points ← c.points.mapM fun p => do
    let (soc, power) ← pointTexts? p
    return "(" ++ soc ++ ", " ++ power ++ ")"
  return "ChargeCurve([" ++ ", ".intercalate points ++ "])"

end ChargeCurve

end ChargingSite
