import ChargingSite.Curve.Window
import ChargingSite.Quantity.Energy
import ChargingSite.Scenario

/-!
# Vehicle models

A vehicle model is what all vehicles of one kind share: a battery capacity and a charge curve.  The
curve reaches from 0 % to 100 % and the capacity is not zero or less, so that every state of charge
a vehicle can report has a charge power.
-/

namespace ChargingSite

/-- A kind of vehicle. -/
structure VehicleModel where
  name : String
  /-- Usable battery capacity. -/
  capacity : Energy
  curve : ChargeCurve
  /-- Rated range in miles. -/
  epaMiles : Binary64 := 0
  /-- Every state of charge has a power. -/
  spansFully : curve.spansFully = true
  /-- The battery can hold something. -/
  capacity_not_le_zero : capacity.le .zero = false
  deriving DecidableEq

namespace VehicleModel

/-- The model with the given data, if its curve and its capacity are those of a vehicle. -/
def create? (name : String) (capacity : Energy) (curve : ChargeCurve) (epaMiles : Binary64 := 0) :
    Except SiteError VehicleModel :=
  if spans : curve.spansFully = true then
    if holds : capacity.le .zero = false then
      .ok ⟨name, capacity, curve, epaMiles, spans, holds⟩
    else .error (.emptyBattery name)
  else .error (.partialCurve name curve.first.stateOfCharge curve.last.stateOfCharge)

/-- The model that a catalog entry describes. -/
def ofSpec? (spec : VehicleSpec) : Except SiteError VehicleModel := do
  let curve ← ChargeCurve.ofPairs? spec.chargeCurve
  create? spec.name (.ofKilowattHours spec.batteryCapacityKwh) curve spec.epaMiles

/-- The energy stored at a state of charge. -/
def energyAt (m : VehicleModel) (s : Percentage) : Energy :=
  s.of m.capacity

end VehicleModel

end ChargingSite
