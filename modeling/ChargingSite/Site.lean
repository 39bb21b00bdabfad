import ChargingSite.Scenario.Catalog
import ChargingSite.Simulation.Run

/-!
# From a scenario to a simulation

`Site.ofScenario?` builds the simulation that a scenario describes: the chargers in their order, and
the vehicles as one waiting line.  The catalog is turned into a directory of its names.  An entry is
turned into a vehicle model when the first vehicle asks for it, and all vehicles that name the entry
share the model; entries that nobody names are left alone.
-/

namespace ChargingSite

/-- Catalog entries by their names.  Of two entries of one name the front one counts. -/
abbrev SpecDirectory := List (String × VehicleSpec)

namespace SpecDirectory

/-- The entries of a catalog, filed one after the other. -/
def ofCatalog (catalog : List VehicleSpec) : SpecDirectory :=
  catalog.foldl (fun directory spec => (spec.name, spec) :: directory) []

/-- The entry of the given name. -/
def spec? (directory : SpecDirectory) (name : String) : Except SiteError VehicleSpec :=
  match directory.lookup name with
  | some spec => .ok spec
  | none => .error (.unknownSpec name)

end SpecDirectory

/-- Vehicle models in the order in which they were first asked for, by the names of their catalog
entries. -/
abbrev ModelShelf := List (String × VehicleModel)

/-- The model of a catalog entry, its place on the shelf, and the shelf with the model on it. -/
def ModelShelf.fetch? (shelf : ModelShelf) (directory : SpecDirectory) (name : String) :
    Except SiteError (VehicleModel × Nat × ModelShelf) :=
  match shelf.zipIdx.find? fun entry => entry.1.1 = name with
  | some ((_, model), place) => .ok (model, place, shelf)
  | none => do
    let spec ← directory.spec? name
    let model ← VehicleModel.ofSpec? spec
    return (model, shelf.length, shelf ++ [(name, model)])

/-- The vehicles that requests describe, each with the place of its model on the shelf. -/
def vehiclesOf? (directory : SpecDirectory) : List VehicleRequest → ModelShelf →
    Except SiteError (List (Vehicle × Nat) × ModelShelf)
  | [], shelf => .ok ([], shelf)
  | request :: rest, shelf => do
    let (model, place, shelf) ← shelf.fetch? directory request.spec
    let start ← liftNumber (Percentage.ofPercent? request.startSocPct)
    let unplug ← liftNumber (Percentage.ofPercent? request.unplugSocPct)
    let (later, shelf) ← vehiclesOf? directory rest shelf
    return ((.atSoc model start unplug, place) :: later, shelf)

/-- A simulation that is ready to run, and where its vehicles come from. -/
structure Site where
  /-- The number of vehicles. -/
  size : Nat
  simulation : Simulation size
  /-- The models in use, each once, in the order of their first use. -/
  models : List VehicleModel
  /-- For each vehicle the place of its model among them. -/
  modelPlaces : List Nat

namespace Site

/-- The names of the vehicles' models, by handle. -/
def names (site : Site) : List (Int × String) :=
  site.simulation.fleet.toList.zipIdx.map fun (v, handle) => (handle, v.model.name)

/-- The simulation that a scenario describes. -/
def ofScenario? (scenario : Scenario) : Except SiteError Site := do
  let installations ← scenario.chargers.mapM Installation.ofConfig?
  let length ← liftNumber (Duration.ofSeconds? scenario.simulation.stepSeconds)
  let stepDuration ← StepDuration.ofDuration? length
  let directory := SpecDirectory.ofCatalog scenario.catalog
  let (vehicles, shelf) ← vehiclesOf? directory scenario.vehicles []
  let fleet : Fleet vehicles.length := ⟨(vehicles.map Prod.fst).toArray, by simp⟩
  return {
    size := vehicles.length
    simulation :=
      (Simulation.create fleet installations stepDuration).enqueueAll
        (List.finRange vehicles.length)
    models := shelf.map Prod.snd
    modelPlaces := vehicles.map Prod.snd }

end Site

end ChargingSite
