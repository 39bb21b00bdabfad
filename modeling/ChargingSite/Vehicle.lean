import ChargingSite.Vehicle.Model

/-!
# Vehicles

A vehicle stores energy and leaves its plug once it has stored as much as it came for.  While it is
plugged in it answers an offer of power with the power that it wants (`Vehicle.request?`), and then
charges at the power that it is granted (`Vehicle.charge?`).
-/

namespace ChargingSite

/-- A vehicle. -/
structure Vehicle where
  model : VehicleModel
  /-- The energy stored now. -/
  energy : Energy
  /-- The stored energy at which it leaves its plug. -/
  unplugAt : Energy
  deriving DecidableEq

namespace Vehicle

/-- A vehicle that arrives at one state of charge and leaves at another. -/
def atSoc (model : VehicleModel) (start unplug : Percentage) : Vehicle :=
  ⟨model, model.energyAt start, model.energyAt unplug⟩

/-- A line that names the vehicle and its two energies. -/
def text (v : Vehicle) : String :=
  "Vehicle(" ++ quoted v.model.name ++ ", current=" ++ v.energy.text ++ ", unplug_at=" ++
    v.unplugAt.text ++ ")"

/-! ### State of charge -/

/-- At most this much stored energy counts as an empty battery. -/
def emptyBelow : Energy := ⟨1⟩

/-- The state of charge at which the battery stores the given energy. -/
def socOf? (v : Vehicle) (a : Energy) : Except NumberError Percentage :=
  if a.le emptyBelow then .ok (.ofHundredths 0)
  else Percentage.ofFraction? (a.wattHours / v.model.capacity.wattHours)

/-- The state of charge now. -/
def soc? (v : Vehicle) : Except NumberError Percentage :=
  v.socOf? v.energy

/-- The state of charge at which it leaves its plug. -/
def unplugSoc? (v : Vehicle) : Except NumberError Percentage :=
  v.socOf? v.unplugAt

/-- Whether it has stored as much as it came for. -/
def isFinished (v : Vehicle) : Bool :=
  v.unplugAt.le v.energy

/-! ### Charging -/

/-- The power that the vehicle wants of an offer, or nothing if it wants to leave: what its curve
allows, at most the offer, but always at least the least charge power. -/
def request? (v : Vehicle) (offer : Power) : Except SiteError (Option Power) :=
  if v.isFinished then .ok none
  else do
    let soc ← liftNumber v.soc?
    let allowed ← v.model.curve.powerAt? soc
    return some (max (min allowed offer) minimumCharge)

/-- The vehicle after charging at a power for a duration, and the energy that was added. -/
def charge? (v : Vehicle) (p : Power) (d : Duration) : Except SiteError (Vehicle × Energy) :=
  if p.watts < 0 then do
    let kilowatts ← liftNumber p.kilowatts?
    .error (.negativePower v.model.name kilowatts)
  else do
    let added ← liftNumber (p.over? d)
    return ({ v with energy := v.energy + added }, added)

end Vehicle

end ChargingSite
