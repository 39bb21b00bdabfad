import ChargingSite.Curve.PowerAt

/-!
# Parts of a curve

`ChargeCurve.window?` is the part of a curve between two states of charge: its ends are
interpolated, and the calibration points strictly between them are kept.  Two scans of the segments
look for the one in which the window starts and the one in which it stops; there is no window if
it is empty or if one of the scans finds nothing.
-/

namespace ChargingSite

namespace ChargeCurve

/-- The position of the first segment into which a window can start: `start` lies in it and is not
its right end. -/
def startSegment? (c : ChargeCurve) (start : Percentage) : Option Nat :=
  c.segments.findIdx? fun (a, b) => a.stateOfCharge ≤ start && start < b.stateOfCharge

/-- The position of the first segment in which a window can stop: `stop` lies in it and is not its
left end. -/
def stopSegment? (c : ChargeCurve) (stop : Percentage) : Option Nat :=
  c.segments.findIdx? fun (a, b) => a.stateOfCharge < stop && stop ≤ b.stateOfCharge

/-- The part of the curve from `start` to `stop`.  The points that it keeps are those from the right
end of the segment in which it starts to the left end of the one in which it stops; if that is the
same segment, there are none. -/
def window? (c : ChargeCurve) (start stop : Percentage) :
    Except SiteError (Option ChargeCurve) :=
  if start < stop then
    match c.startSegment? start, c.stopSegment? stop with
    | some i, some j => do
      let p ← c.powerAt? start
      let q ← c.powerAt? stop
      let part ← ofPoints? (⟨start, p⟩ :: c.points.extract (i + 1) (j + 1) ++ [⟨stop, q⟩])
      return some part
    | _, _ => .ok none
  else .ok none

end ChargeCurve

end ChargingSite
