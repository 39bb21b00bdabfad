import ChargingSite.Scenario.Catalog
import ChargingSite.Scenario.Reading
import ChargingSite.Scenario.Rules

/-!
# Validating configurations

A reader for each sort of record of a configuration.  The fields are checked in a fixed order, and
the faults are reported in that order; the rules about a record as a whole are only applied to
records with valid fields.  Fields that a record should not have are ignored.
-/

namespace ChargingSite

/-! ### Vehicles -/

/-- A sample of a charge curve: a pair of numbers. -/
def readSample : Document → Verdict (Binary64 × Binary64)
  | .list [] => .faulty [⟨.missing, [.index 0]⟩, ⟨.missing, [.index 1]⟩]
  | .list [x] =>
    ((readNumber x).under (.index 0)).both ((Verdict.fault .missing).under (.index 1))
  | .list [x, y] => ((readNumber x).under (.index 0)).both ((readNumber y).under (.index 1))
  | .list items => .fault (.tooLong 2 items.length)
  | _ => .fault .notTuple

/-- Samples one by one: the valid ones and the faults of the others. -/
def sortSamples : (position : Nat) → List Document → List (Binary64 × Binary64) × List Fault
  | _, [] => ([], [])
  | position, d :: rest =>
    let (samples, faults) := sortSamples (position + 1) rest
    match (readSample d).under (.index position) with
    | .valid sample => (sample :: samples, faults)
    | .faulty fs => (samples, fs ++ faults)
    | .aborted _ => (samples, faults)

/-- A charge curve: at least two valid samples. -/
def readCurve : Document → Verdict (List (Binary64 × Binary64))
  | .list items =>
    let (samples, faults) := sortSamples 0 items
    let faults := faults ++
      (if samples.length < 2 then [⟨.tooShort 2 samples.length, []⟩] else [])
    if faults.isEmpty then .valid samples else .faulty faults
  | _ => .fault .notTuple

/-- A catalog entry. -/
def readVehicleSpec : Document → Verdict VehicleSpec :=
  readRecord "VehicleSpec" fun fields =>
    ((readField fields "name" none readText).both
      ((readField fields "battery_capacity_kwh" none readPositive).both
        ((readField fields "charge_curve" none readCurve).both
          (readField fields "epa_miles" (some 0) readNonNegative)))).map
      (fun (name, capacity, curve, miles) => VehicleSpec.mk name capacity curve miles)
    |>.obeying fun spec => .ok spec.brokenRule?

/-- A vehicle that joins the line. -/
def readVehicleRequest : Document → Verdict VehicleRequest :=
  readRecord "VehicleRequest" fun fields =>
    ((readField fields "spec" none readText).both
      ((readField fields "start_soc_pct" (some 10) readPercent).both
        (readField fields "unplug_soc_pct" (some 80) readPercent))).map
      (fun (spec, start, unplug) => VehicleRequest.mk spec start unplug)
    |>.obeying fun request => .ok request.brokenRule?

/-! ### Strategies -/

/-- The word that a text has to be. -/
def readWord (expected : String) : Document → Verdict Unit
  | .text s => if s = expected then .valid () else .fault (.wrongWord expected)
  | _ => .fault (.wrongWord expected)

/-- The kind of a strategy, which need not be written where only one is possible. -/
def readKind (fields : List (String × Document)) (kind : String) : Verdict Unit :=
  readField fields "kind" (some ()) (readWord kind)

/-- A strategy of one plug. -/
def readExclusive : Document → Verdict Strategy :=
  readRecord "ExclusiveStrategy" fun fields =>
    (readKind fields "exclusive").map fun () => .exclusive

/-- A strategy of equal shares that are doubled while most plugs are free. -/
def readPaired : Document → Verdict Strategy :=
  readRecord "PairedStrategy" fun fields =>
    ((readKind fields "paired").both (readField fields "number_of_plugs" (some 2) readCount)).map
      fun ((), plugs) => .paired plugs

/-- A strategy of equal shares. -/
def readSplit : Document → Verdict Strategy :=
  readRecord "SplitStrategy" fun fields =>
    ((readKind fields "split").both (readField fields "number_of_plugs" (some 2) readCount)).map
      fun ((), plugs) => .split plugs

/-- A strategy of whole steps. -/
def readGranular : Document → Verdict Strategy :=
  readRecord "GranularStrategy" fun fields =>
    ((readKind fields "granular").both
      ((readField fields "number_of_plugs" (some 8) readCount).both
        ((readField fields "power_step_kw" (some 25) readPositive).both
          (readField fields "max_per_plug_kw" (some 400) readPositive)))).map
      (fun ((), plugs, step, cap) => Strategy.granular plugs step cap)
    |>.obeying fun strategy => .ok strategy.brokenRule?

/-- Any of the known strategies, by its kind. -/
def readStrategy (d : Document) : Verdict Strategy :=
  match d with
  | .record fields =>
    match Document.lookUp fields "kind" with
    | none => .fault .noKind
    | some (.text "exclusive") => (readExclusive d).under (.field "exclusive")
    | some (.text "paired") => (readPaired d).under (.field "paired")
    | some (.text "split") => (readSplit d).under (.field "split")
    | some (.text "granular") => (readGranular d).under (.field "granular")
    | some kind => .fault (.unknownKind kind.messageText)
  | _ => .fault .notStrategy

/-! ### Chargers and scenarios -/

/-- A charger. -/
def readChargerConfig : Document → Verdict ChargerConfig :=
  readRecord "ChargerConfig" fun fields =>
    ((readField fields "name" (some "DC Fast Charger") readText).both
      ((readField fields "grid_connection_kw" (some 600) readPositive).both
        (readField fields "strategy" (some .exclusive) readStrategy))).map
      (fun (name, grid, strategy) => ChargerConfig.mk name grid strategy)
    |>.obeying ChargerConfig.brokenRule?

/-- The settings of the simulation. -/
def readSimulationConfig : Document → Verdict SimulationConfig :=
  readRecord "SimulationConfig" fun fields =>
    (readField fields "step_seconds" (some 1) readPositive).map SimulationConfig.mk

/-- The configuration of a run. -/
def readScenario : Document → Verdict Scenario :=
  readRecord "Scenario" fun fields =>
    ((readField fields "catalog" (some builtInCatalog) (readList readVehicleSpec)).both
      ((readField fields "vehicles" (some []) (readList readVehicleRequest)).both
        ((readField fields "chargers" (some []) (readList readChargerConfig)).both
          (readField fields "simulation" (some {}) readSimulationConfig)))).map
      (fun (catalog, vehicles, chargers, simulation) =>
        Scenario.mk catalog vehicles chargers simulation)
    |>.obeying fun scenario => .ok scenario.brokenRule?

end ChargingSite
