import ChargingSite.Strategy

/-!
# Scenarios

A scenario is the configuration of one run: a catalog of vehicle models, the vehicles that arrive
and wait in line, the chargers, and the length of a step.  The fields hold the numbers as they were
configured, in percent, kilowatts and seconds; the simulation converts them.
-/

namespace ChargingSite

/-- A catalog entry: one model of vehicle. -/
structure VehicleSpec where
  /-- Its name, by which vehicles refer to it. -/
  name : String
  /-- Usable battery capacity in kilowatt-hours. -/
  batteryCapacityKwh : Binary64
  /-- Samples of the charge power in kilowatts at states of charge in percent. -/
  chargeCurve : List (Binary64 × Binary64)
  /-- Rated range in miles. -/
  epaMiles : Binary64 := 0
  deriving DecidableEq

/-- A vehicle that joins the waiting line. -/
structure VehicleRequest where
  /-- The name of its catalog entry. -/
  spec : String
  /-- State of charge on arrival, in percent. -/
  startSocPct : Binary64 := 10
  /-- State of charge at which it leaves, in percent. -/
  unplugSocPct : Binary64 := 80
  deriving DecidableEq

/-- A charger. -/
structure ChargerConfig where
  /-- A label. -/
  name : String := "DC Fast Charger"
  /-- The grid connection in kilowatts. -/
  gridConnectionKw : Binary64 := 600
  /-- How its plugs share the connection. -/
  strategy : Strategy := .exclusive
  deriving DecidableEq

/-- The settings of the simulation. -/
structure SimulationConfig where
  /-- Simulated seconds per step. -/
  stepSeconds : Binary64 := 1
  deriving DecidableEq

/-- The configuration of one run. -/
structure Scenario where
  catalog : List VehicleSpec
  /-- The waiting line, in order of arrival. -/
  vehicles : List VehicleRequest := []
  chargers : List ChargerConfig := []
  simulation : SimulationConfig := {}
  deriving DecidableEq

/-- The catalog entry with the given name, the first one if there are several. -/
def lookUpSpec (catalog : List VehicleSpec) (name : String) : Except SiteError VehicleSpec :=
  match catalog.find? fun spec => spec.name = name with
  | some spec => .ok spec
  | none => .error (.unknownSpec name)

end ChargingSite
