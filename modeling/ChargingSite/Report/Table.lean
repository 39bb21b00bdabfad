import ChargingSite.Report.Series

/-!
# The table of a run

`tableOf?` writes the frames as one long table: for each step a row for every charger, and then one
for every plugged-in vehicle.  Some columns apply to one kind of row only and are empty in the
other.
-/

namespace ChargingSite

/-- What a row of the table is about. -/
inductive Entity where
  | charger
  | vehicle
  deriving DecidableEq

/-- The word for it. -/
def Entity.word : Entity → String
  | charger => "charger"
  | vehicle => "vehicle"

/-- A row of the table. -/
structure TableRow where
  step : Int
  minutes : Binary64
  entity : Entity
  /-- The number of the vehicle or the position of the charger. -/
  id : Int
  powerKw : Binary64
  /-- For chargers. -/
  unusedKw : Option Binary64
  /-- For vehicles. -/
  stateOfCharge : Option Binary64
  deriving DecidableEq

/-- The headings of the columns. -/
def tableColumns : List String :=
  ["step", "minutes", "entity", "entity_id", "power_kw", "unused_kw", "state_of_charge_pct"]

/-- The row of a charger's part of a frame. -/
def chargerRow? (f : Frame) (c : ChargerFrame) : Except NumberError TableRow := do
  let power ← kilowattsOf? c.activeWatts
  let unused ← kilowattsOf? c.unusedWatts
  return ⟨f.step, f.minutes, .charger, c.charger, power, some unused, none⟩

/-- The row of a vehicle's part of a frame. -/
def vehicleRow? (f : Frame) (v : VehicleFrame) : Except NumberError TableRow := do
  let power ← kilowattsOf? v.allocatedWatts
  return ⟨f.step, f.minutes, .vehicle, v.vehicle, power, none, some v.stateOfCharge⟩

/-- The rows of a frame. -/
def frameRows? (f : Frame) : Except NumberError (List TableRow) := do
  let chargers ← f.chargers.mapM (chargerRow? f)
  let vehicles ← f.vehicles.mapM (vehicleRow? f)
  return chargers ++ vehicles

/-- The table of all frames. -/
def tableOf? (frames : List Frame) : Except NumberError (List TableRow) := do
  let rows ← frames.mapM frameRows?
  return rows.flatten

end ChargingSite
