import ChargingSite.Scenario
import ChargingSite.Scenario.Fault

/-!
# Rules of a configuration

What the fields of one record must satisfy together, once each of them is valid.  Each function
answers the first rule that is broken, if any.
-/

namespace ChargingSite

/-- Whether some number is at or below the one before it. -/
def stallsSomewhere : List Binary64 → Bool
  | a :: b :: rest => b.le a || stallsSomewhere (b :: rest)
  | _ => false

/-- A charge curve increases strictly in state of charge, reaches from 0 to 100, and has no negative
power. -/
def VehicleSpec.brokenRule? (spec : VehicleSpec) : Option BrokenRule :=
  let socs := spec.chargeCurve.map Prod.fst
  if stallsSomewhere socs then some .curveNotIncreasing
  else if !(socs.headD 0).eq 0 || !(socs.getLastD 0).eq 100 then
    some (.curveSpan (socs.headD 0) (socs.getLastD 0))
  else if spec.chargeCurve.any fun sample => sample.2.lt 0 then some .curveNegative
  else none

/-- A vehicle leaves with no less than it arrives with. -/
def VehicleRequest.brokenRule? (request : VehicleRequest) : Option BrokenRule :=
  if request.unplugSocPct.lt request.startSocPct then
    some (.windowReversed request.unplugSocPct request.startSocPct)
  else none

/-- The ceiling for one plug is at least one step. -/
def Strategy.brokenRule? : Strategy → Option BrokenRule
  | .granular _ stepKw capKw => if capKw.lt stepKw then some (.capBelowStep capKw stepKw) else none
  | _ => none

/-- A granular charger can serve at least one vehicle. -/
def ChargerConfig.brokenRule? (config : ChargerConfig) : Except NumberError (Option BrokenRule) :=
  match config.strategy with
  | .granular _ stepKw _ => do
    let grid ← Power.ofKilowatts? config.gridConnectionKw
    let step ← Power.ofKilowatts? stepKw
    match checkBudget grid.watts step.watts with
    | .ok () => return none
    | .error (.number e) => .error e
    | .error cause => return some (.budget cause)
  | _ => .ok none

/-- The names that vehicles use and the catalog does not have, each once and in order. -/
def Scenario.unknownNames (scenario : Scenario) : List String :=
  let known := scenario.catalog.map VehicleSpec.name
  let used := (scenario.vehicles.map VehicleRequest.spec).eraseDups
  (used.filter fun name => !known.contains name).mergeSort fun a b => a ≤ b

/-- Catalog names are unique, and vehicles use none but these. -/
def Scenario.brokenRule? (scenario : Scenario) : Option BrokenRule :=
  if ¬ (scenario.catalog.map VehicleSpec.name).Nodup then some .namesNotUnique
  else if scenario.unknownNames.isEmpty then none
  else some (.unknownSpecs scenario.unknownNames)

end ChargingSite
