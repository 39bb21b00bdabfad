import ChargingSite.Vehicle.Model

/-!
# Figures of a vehicle model

What a catalog shows next to a vehicle model: its mean charge power, over the whole curve and over
the usual window from 10 % to 80 %, and the time that charging takes at the mean power of a window,
if no charger limits it.
-/

namespace ChargingSite

/-- The headline figures of a vehicle model. -/
structure ModelFigures where
  name : String
  batteryCapacityKwh : Binary64
  /-- Mean power over the whole curve. -/
  averagePowerKw : Binary64
  /-- Mean power from 10 % to 80 %. -/
  windowPowerKw : Option Binary64
  epaMiles : Binary64
  deriving DecidableEq

namespace VehicleModel

/-- The time to charge from one state of charge to another at the mean power of that window; none if
there is no such window or no power in it. -/
def chargeTime? (m : VehicleModel) (start stop : Percentage) :
    Except SiteError (Option Duration) := do
  match ← m.curve.window? start stop with
  | none => return none
  | some window =>
    let average ← liftNumber window.averagePower?
    if average.watts ≤ 0 then return none
    let time ← liftNumber ((m.energyAt (stop - start)).timeAt? average)
    return some time

/-- The mean power from 10 % to 80 % in kilowatts. -/
def windowPower? (m : VehicleModel) : Except SiteError (Option Binary64) := do
  match ← m.curve.window? (.ofHundredths 1000) (.ofHundredths 8000) with
  | none => return none
  | some window =>
    let average ← liftNumber window.averagePower?
    let kilowatts ← liftNumber average.kilowatts?
    return some kilowatts

/-- The headline figures. -/
def figures? (m : VehicleModel) : Except SiteError ModelFigures := do
  let windowPowerKw ← m.windowPower?
  let average ← liftNumber m.curve.averagePower?
  let averagePowerKw ← liftNumber average.kilowatts?
  return {
    name := m.name
    batteryCapacityKwh := m.capacity.kilowattHours.roundPlaces 4
    averagePowerKw, windowPowerKw, epaMiles := m.epaMiles }

end VehicleModel

end ChargingSite
