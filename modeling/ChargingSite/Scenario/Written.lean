import ChargingSite.Document
import ChargingSite.Scenario

/-!
# Configurations written out

The document of each sort of record, with all its fields, those that had their default value
included.
-/

namespace ChargingSite

/-- The samples of the charge curve are pairs. -/
def VehicleSpec.toDocument (spec : VehicleSpec) : Document :=
  .record [
    ("name", .text spec.name),
    ("battery_capacity_kwh", .decimal spec.batteryCapacityKwh),
    ("charge_curve",
      .list (spec.chargeCurve.map fun (soc, kw) => .list [.decimal soc, .decimal kw])),
    ("epa_miles", .decimal spec.epaMiles)]

/-- A vehicle that joins the line. -/
def VehicleRequest.toDocument (request : VehicleRequest) : Document :=
  .record [
    ("spec", .text request.spec),
    ("start_soc_pct", .decimal request.startSocPct),
    ("unplug_soc_pct", .decimal request.unplugSocPct)]

/-- The kind, and the settings that a strategy of this kind has. -/
def Strategy.toDocument (strategy : Strategy) : Document :=
  .record (("kind", .text strategy.kind) ::
    match strategy with
    | .exclusive => []
    | .paired plugs | .split plugs | .custom _ plugs _ => [("number_of_plugs", .integer plugs)]
    | .granular plugs stepKw capKw =>
      [("number_of_plugs", .integer plugs), ("power_step_kw", .decimal stepKw),
        ("max_per_plug_kw", .decimal capKw)])

/-- The strategy is a record of its own. -/
def ChargerConfig.toDocument (config : ChargerConfig) : Document :=
  .record [
    ("name", .text config.name),
    ("grid_connection_kw", .decimal config.gridConnectionKw),
    ("strategy", config.strategy.toDocument)]

/-- The settings of the simulation. -/
def SimulationConfig.toDocument (config : SimulationConfig) : Document :=
  .record [("step_seconds", .decimal config.stepSeconds)]

/-- The catalog is written in full, also the built-in one. -/
def Scenario.toDocument (scenario : Scenario) : Document :=
  .record [
    ("catalog", .list (scenario.catalog.map VehicleSpec.toDocument)),
    ("vehicles", .list (scenario.vehicles.map VehicleRequest.toDocument)),
    ("chargers", .list (scenario.chargers.map ChargerConfig.toDocument)),
    ("simulation", scenario.simulation.toDocument)]

end ChargingSite
