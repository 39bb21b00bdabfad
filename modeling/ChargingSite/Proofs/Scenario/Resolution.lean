import ChargingSite.Proofs.Scenario.Shelf
import ChargingSite.Proofs.Scenario.Site
import ChargingSite.Proofs.Simulation.Sound
import ChargingSite.Proofs.Vehicle.Model

/-!
# How a site resolves the names of its scenario

A vehicle refers to its catalog entry by name.  The site looks names up in a directory, and builds
a model only for the first vehicle that uses a name.  For a valid scenario this is as good as
searching the catalog for every vehicle (`Site.resolves_of_readScenario`): catalog names are unique,
so that it does not matter which of the entries of a name a look-up prefers, and vehicles use no
other names, so that no look-up fails.  Two vehicles share a model exactly if they use one name, and
entries that nobody names do not matter.
-/

namespace ChargingSite

/-! ### Names in the catalog -/

theorem name_of_lookUpSpec {catalog : List VehicleSpec} {name : String} {spec : VehicleSpec}
    (h : lookUpSpec catalog name = .ok spec) : spec.name = name := by
  unfold lookUpSpec at h
  split at h
  · next found hfind =>
    cases h
    simpa using List.find?_some hfind
  · cases h

/-- The name of every vehicle is found, in the directory as in the catalog. -/
theorem Scenario.NamesResolve.exists_spec {scenario : Scenario} (h : scenario.NamesResolve)
    {request : VehicleRequest} (hrequest : request ∈ scenario.vehicles) :
    ∃ spec, lookUpSpec scenario.catalog request.spec = .ok spec ∧
      (SpecDirectory.ofCatalog scenario.catalog).spec? request.spec = .ok spec := by
  obtain ⟨spec, hspec, hname⟩ := List.mem_map.mp (h.known request hrequest)
  simp only [SpecDirectory.spec?_ofCatalog h.nodup, and_self_iff]
  unfold lookUpSpec
  cases hfind : scenario.catalog.find? fun spec => spec.name = request.spec with
  | some found => exact ⟨found, rfl⟩
  | none =>
    have := List.find?_eq_none.mp hfind spec hspec
    simp [hname] at this

/-! ### The site -/

/-- A vehicle as a request describes it, with the values of the entry that it names. -/
structure VehicleRequest.Describes (request : VehicleRequest) (catalog : List VehicleSpec)
    (v : Vehicle) : Prop extends VehicleRequest.SetsEnergies request v where
  exists_spec : ∃ spec, lookUpSpec catalog request.spec = .ok spec ∧ spec.Describes v.model

/-- An idle charger with the values of a configuration. -/
structure ChargerConfig.Describes {n : ℕ} (config : ChargerConfig) (c : Charger n) : Prop where
  grid_eq : Power.ofKilowatts? config.gridConnectionKw = .ok c.grid
  strategy_eq : c.strategy = config.strategy
  occupants_eq : c.occupants = []

theorem ChargerConfig.describes_of_ofConfig? {n : ℕ} {config : ChargerConfig} {i : Installation}
    (h : Installation.ofConfig? config = .ok i) : config.Describes (.idle i : Charger n) := by
  simp only [Installation.ofConfig?, bind_eq_ok_iff, liftNumber_eq_ok_iff] at h
  obtain ⟨grid, hgrid, hcreate⟩ := h
  cases Installation.eq_of_create? hcreate
  exact ⟨hgrid, rfl, rfl⟩

namespace Site

/-- The site is the one that the scenario describes. -/
structure Resolves (site : Site) (scenario : Scenario) : Prop where
  size_eq : site.size = scenario.vehicles.length
  /-- The handles are the positions of the requests. -/
  registry_eq : site.simulation.registry = List.finRange site.size
  /-- All vehicles wait, in the order of their handles. -/
  queue_eq : site.simulation.queue = (List.finRange site.size).map fun i => ⟨i, i⟩
  names_eq : site.names = scenario.vehicles.zipIdx.map fun (request, handle) =>
    ((handle : ℤ), request.spec)
  vehicle : ∀ (i : Fin site.size) (request : VehicleRequest),
    scenario.vehicles[(i : ℕ)]? = some request →
      request.Describes scenario.catalog site.simulation.fleet[i]
  /-- Every vehicle has one of the models of the site. -/
  model : ∀ i : Fin site.size, ∃ place, site.modelPlaces[(i : ℕ)]? = some place ∧
    site.models[place]? = some site.simulation.fleet[i].model
  /-- Vehicles have the same one exactly if their requests name the same entry. -/
  shares : ∀ (i j : Fin site.size) (request request' : VehicleRequest),
    scenario.vehicles[(i : ℕ)]? = some request → scenario.vehicles[(j : ℕ)]? = some request' →
      (site.modelPlaces[(i : ℕ)]? = site.modelPlaces[(j : ℕ)]? ↔ request.spec = request'.spec)
  /-- Models are made of the entries that some request names, and of no others. -/
  models : List.Forall₂
    (fun name m => ∃ spec, lookUpSpec scenario.catalog name = .ok spec ∧ spec.Describes m)
    (scenario.vehicles.map VehicleRequest.spec).eraseDups site.models
  chargers : List.Forall₂ ChargerConfig.Describes scenario.chargers site.simulation.chargers
  stepDuration_eq : Duration.ofSeconds? scenario.simulation.stepSeconds =
    .ok site.simulation.stepDuration.toDuration

variable {scenario : Scenario} {site : Site}

/-- What the vehicles of a site are made of. -/
structure IsFilled (site : Site) (scenario : Scenario) (vehicles : List (Vehicle × ℕ))
    (shelf : ModelShelf) : Prop where
  holds : shelf.Holds (.ofCatalog scenario.catalog) (scenario.vehicles.map VehicleRequest.spec)
  yields : List.Forall₂ (fun request v => request.Yields shelf v) scenario.vehicles vehicles
  fleet_eq : site.simulation.fleet.toList = vehicles.map Prod.fst
  modelPlaces_eq : site.modelPlaces = vehicles.map Prod.snd
  models_eq : site.models = shelf.map Prod.snd

theorem exists_isFilled_of_ofScenario? (h : ofScenario? scenario = .ok site) :
    ∃ vehicles shelf, site.IsFilled scenario vehicles shelf := by
  simp only [ofScenario?, bind_eq_ok_iff, pure_eq_ok_iff] at h
  obtain ⟨installations, -, length, -, stepDuration, -, ⟨vehicles, shelf⟩, hvehicles, rfl⟩ := h
  obtain ⟨hholds, -, hyields⟩ := (ModelShelf.holds_nil _).vehicles hvehicles
  obtain ⟨-, -, hfleet, -⟩ := Simulation.enqueueAll_spec
    (.create ⟨(vehicles.map Prod.fst).toArray, by simp⟩ installations stepDuration)
    (List.finRange vehicles.length)
  refine ⟨vehicles, shelf, hholds, hyields, ?_, rfl, rfl⟩
  show Vector.toList (Simulation.fleet _) = _
  rw [hfleet]
  simp [Simulation.create]

namespace IsFilled

variable {vehicles : List (Vehicle × ℕ)} {shelf : ModelShelf} {request : VehicleRequest}

/-- The vehicle of a request and the place of its model. -/
theorem exists_place (h : site.IsFilled scenario vehicles shelf) {i : Fin site.size}
    (hrequest : scenario.vehicles[(i : ℕ)]? = some request) :
    ∃ place, site.modelPlaces[(i : ℕ)]? = some place ∧
      request.Yields shelf (site.simulation.fleet[i], place) := by
  obtain ⟨⟨v, place⟩, hv, hyields⟩ := exists_getElem?_of_forall₂ h.yields hrequest
  have hplace : site.modelPlaces[(i : ℕ)]? = some place := by
    rw [h.modelPlaces_eq, List.getElem?_map, hv, Option.map_some]
  have hvehicle : site.simulation.fleet.toList[(i : ℕ)]? = some v := by
    rw [h.fleet_eq, List.getElem?_map, hv, Option.map_some]
  have hfleet : site.simulation.fleet[i] = v := by
    simpa using hvehicle
  rw [hfleet]
  exact ⟨place, hplace, hyields⟩

/-- The models of a site are those of the catalog. -/
theorem exists_spec (h : site.IsFilled scenario vehicles shelf) (hnames : scenario.NamesResolve)
    {entry : String × VehicleModel} (hentry : entry ∈ shelf) :
    ∃ spec, lookUpSpec scenario.catalog entry.1 = .ok spec ∧ spec.Describes entry.2 := by
  obtain ⟨spec, hspec, hmodel⟩ := h.holds.built entry hentry
  rw [SpecDirectory.spec?_ofCatalog hnames.nodup] at hspec
  exact ⟨spec, hspec, VehicleModel.describes_of_ofSpec? hmodel⟩

theorem describes (h : site.IsFilled scenario vehicles shelf) (hnames : scenario.NamesResolve)
    {v : Vehicle × ℕ} (hyields : request.Yields shelf v) :
    request.Describes scenario.catalog v.1 :=
  ⟨hyields.toSetsEnergies, h.exists_spec hnames (List.mem_of_getElem? hyields.model_eq)⟩

theorem names_eq (h : site.IsFilled scenario vehicles shelf) (hnames : scenario.NamesResolve) :
    site.names = scenario.vehicles.zipIdx.map fun (request, handle) =>
      ((handle : ℤ), request.spec) := by
  have hspecs : site.simulation.fleet.toList.map (fun v => v.model.name) =
      scenario.vehicles.map VehicleRequest.spec := by
    rw [h.fleet_eq, List.map_map]
    refine (map_eq_map_of_forall₂ h.yields fun request v hyields => ?_).symm
    obtain ⟨spec, hspec, hmodel⟩ := (h.describes hnames hyields).exists_spec
    exact (name_of_lookUpSpec hspec).symm.trans hmodel.name_eq.symm
  have hswap := congrArg (fun names : List String => names.zipIdx.map fun (name, handle) =>
    ((handle : ℤ), name)) hspecs
  simpa [List.zipIdx_map, Function.comp_def, names] using hswap

theorem models (h : site.IsFilled scenario vehicles shelf) (hnames : scenario.NamesResolve) :
    List.Forall₂
      (fun name m => ∃ spec, lookUpSpec scenario.catalog name = .ok spec ∧ spec.Describes m)
      (scenario.vehicles.map VehicleRequest.spec).eraseDups site.models := by
  rw [← h.holds.names_eq, h.models_eq, List.forall₂_map_left_iff, List.forall₂_map_right_iff,
    List.forall₂_same]
  exact fun entry hentry => h.exists_spec hnames hentry

/-- Two vehicles have their models in one place exactly if their requests name the same entry. -/
theorem shares (h : site.IsFilled scenario vehicles shelf) {i j : Fin site.size}
    {request' : VehicleRequest} (hi : scenario.vehicles[(i : ℕ)]? = some request)
    (hj : scenario.vehicles[(j : ℕ)]? = some request') :
    site.modelPlaces[(i : ℕ)]? = site.modelPlaces[(j : ℕ)]? ↔ request.spec = request'.spec := by
  obtain ⟨place, hplace, hyields⟩ := h.exists_place hi
  obtain ⟨place', hplace', hyields'⟩ := h.exists_place hj
  rw [hplace, hplace', Option.some_inj]
  exact h.holds.place_eq_iff hyields.model_eq hyields'.model_eq

end IsFilled

theorem resolves_of_ofScenario? (hnames : scenario.NamesResolve)
    (h : ofScenario? scenario = .ok site) : site.Resolves scenario := by
  obtain ⟨vehicles, shelf, hfilled⟩ := exists_isFilled_of_ofScenario? h
  obtain ⟨installations, stepDuration, fleet, hdescribes⟩ := exists_of_ofScenario? h
  obtain ⟨hregistry, -, -, hchargers, hstep⟩ := Simulation.enqueueAll_spec
    (.create fleet installations stepDuration) (List.finRange site.size)
  rw [← hdescribes.simulation_eq] at hregistry hchargers hstep
  have hlength : site.size = scenario.vehicles.length := hdescribes.size_eq
  exact {
    size_eq := hlength
    registry_eq := hregistry
    queue_eq := by
      rw [hdescribes.simulation_eq, Simulation.queue_enqueueAll]
      -- vehicle `i` is given handle `i`, because nobody was in the line before
      refine List.ext_getElem (by simp [Simulation.create]) fun i hi hi' => ?_
      simp [Simulation.create]
    names_eq := hfilled.names_eq hnames
    vehicle := by
      intro i request hrequest
      obtain ⟨place, -, hyields⟩ := hfilled.exists_place hrequest
      exact hfilled.describes hnames hyields
    model := by
      intro i
      have hi : (i : ℕ) < scenario.vehicles.length := hlength ▸ i.isLt
      obtain ⟨place, hplace, hyields⟩ := hfilled.exists_place (List.getElem?_eq_getElem hi)
      refine ⟨place, hplace, ?_⟩
      rw [hfilled.models_eq, List.getElem?_map, hyields.model_eq, Option.map_some]
    shares := fun i j request request' hi hj => hfilled.shares hi hj
    models := hfilled.models hnames
    chargers := by
      rw [hchargers, Simulation.create, List.forall₂_map_right_iff]
      exact hdescribes.installations_eq.imp fun config i => ChargerConfig.describes_of_ofConfig?
    stepDuration_eq := by
      rw [hstep]
      exact hdescribes.stepDuration_eq
  }

end Site

/-! ### Look-ups that do not fail -/

/-- The computation does not fail for want of a catalog entry. -/
def FindsNames {α : Type} (x : Except SiteError α) : Prop :=
  ∀ name, x ≠ .error (.unknownSpec name)

section FindsNames

variable {α β : Type} {x : Except SiteError α}

theorem findsNames_ok {a : α} : FindsNames (.ok a) := by
  intro name h
  cases h

theorem findsNames_error {e : SiteError} (h : ∀ name, e ≠ .unknownSpec name) :
    FindsNames (.error e : Except SiteError α) :=
  fun name heq => h name (Except.error.inj heq)

theorem FindsNames.bind {f : α → Except SiteError β} (hx : FindsNames x)
    (hf : ∀ a, FindsNames (f a)) : FindsNames (x >>= f) := by
  intro name h
  obtain h | ⟨a, -, h⟩ := bind_eq_error_iff.mp h
  · exact hx name h
  · exact hf a name h

theorem findsNames_mapM {f : α → Except SiteError β} {as : List α} (hf : ∀ a, FindsNames (f a)) :
    FindsNames (as.mapM f) := by
  intro name h
  obtain ⟨a, -, ha⟩ := exists_of_mapM_eq_error h
  exact hf a name ha

theorem findsNames_liftNumber {x : Except NumberError α} : FindsNames (liftNumber x) := by
  intro name h
  obtain ⟨cause, -, hcause⟩ := liftNumber_eq_error_iff.mp h
  cases hcause

/-- An entry that has been found can be faulty, but names no other entry. -/
theorem findsNames_ofSpec? (spec : VehicleSpec) : FindsNames (VehicleModel.ofSpec? spec) := by
  refine (findsNames_liftNumber.bind fun points => ?_).bind fun curve => ?_
  · -- the curve has too few points, or they are out of order
    unfold ChargeCurve.ofPoints?
    split
    · split
      · exact findsNames_error (by simp)
      · exact findsNames_ok
    · exact findsNames_error (by simp)
  · -- the model has a partial curve, or a battery that holds nothing
    unfold VehicleModel.create?
    split_ifs
    · exact findsNames_ok
    · exact findsNames_error (by simp)
    · exact findsNames_error (by simp)

theorem findsNames_ofConfig? (config : ChargerConfig) :
    FindsNames (Installation.ofConfig? config) := by
  refine findsNames_liftNumber.bind fun grid => ?_
  unfold Installation.create?
  split
  · -- only the granular strategy has a step and a budget that can be refused
    refine findsNames_liftNumber.bind fun step => .bind ?_ fun _ => findsNames_ok
    unfold checkBudget
    split_ifs
    · exact findsNames_error (by simp)
    · exact findsNames_liftNumber.bind fun _ => findsNames_error (by simp)
    · exact findsNames_ok
  · exact findsNames_ok

theorem findsNames_vehiclesOf? {directory : SpecDirectory} {requests : List VehicleRequest}
    (h : ∀ request ∈ requests, ∃ spec, directory.spec? request.spec = .ok spec)
    (shelf : ModelShelf) : FindsNames (vehiclesOf? directory requests shelf) := by
  induction requests generalizing shelf with
  | nil => exact findsNames_ok
  | cons request rest ih =>
    obtain ⟨⟨spec, hspec⟩, hrest⟩ := List.forall_mem_cons.mp h
    refine .bind ?_ fun _ => findsNames_liftNumber.bind fun _ => findsNames_liftNumber.bind fun _ =>
      (ih hrest _).bind fun _ => findsNames_ok
    unfold ModelShelf.fetch?
    split
    · -- the model is on the shelf already
      exact findsNames_ok
    · -- the directory has the entry, of which a model is made
      rw [hspec]
      exact findsNames_ok.bind fun _ => (findsNames_ofSpec? _).bind fun _ => findsNames_ok

/-- **The site of a scenario** with valid names is not in want of a catalog entry. -/
theorem Site.findsNames_ofScenario? {scenario : Scenario} (h : scenario.NamesResolve) :
    FindsNames (ofScenario? scenario) := by
  refine (findsNames_mapM findsNames_ofConfig?).bind fun _ => findsNames_liftNumber.bind fun _ =>
    .bind ?_ fun _ => (findsNames_vehiclesOf? (fun request hrequest => ?_) []).bind fun _ =>
      findsNames_ok
  · -- steps that take no time are refused, but not for want of an entry
    unfold StepDuration.ofDuration?
    split_ifs
    · exact findsNames_ok
    · exact findsNames_error (by simp)
  · obtain ⟨spec, -, hspec⟩ := h.exists_spec hrequest
    exact ⟨spec, hspec⟩

end FindsNames

/-! ### Entries that nobody names -/

/-- The catalog entries that vehicles name. -/
def Scenario.namedSpecs (scenario : Scenario) : List VehicleSpec :=
  scenario.catalog.filter fun spec => spec.name ∈ scenario.vehicles.map VehicleRequest.spec

theorem vehiclesOf?_congr {directory directory' : SpecDirectory} {requests : List VehicleRequest}
    (h : ∀ request ∈ requests, directory.spec? request.spec = directory'.spec? request.spec)
    (shelf : ModelShelf) :
    vehiclesOf? directory requests shelf = vehiclesOf? directory' requests shelf := by
  induction requests generalizing shelf with
  | nil => rfl
  | cons request rest ih =>
    obtain ⟨hrequest, hrest⟩ := List.forall_mem_cons.mp h
    -- both look on the same shelf first, and ask their directories for the same name
    have hfetch : shelf.fetch? directory request.spec = shelf.fetch? directory' request.spec := by
      rw [ModelShelf.fetch?, ModelShelf.fetch?, hrequest]
    simp only [vehiclesOf?, hfetch, ih hrest]

namespace Site

variable {scenario : Scenario}

/-- **Entries that nobody names** matter neither for the site nor for whether there is one. -/
theorem ofScenario?_congr {catalog : List VehicleSpec}
    (h : { scenario with catalog }.namedSpecs = scenario.namedSpecs) :
    ofScenario? { scenario with catalog } = ofScenario? scenario := by
  have hspec : ∀ request ∈ scenario.vehicles,
      (SpecDirectory.ofCatalog catalog).spec? request.spec =
        (SpecDirectory.ofCatalog scenario.catalog).spec? request.spec := by
    intro request hrequest
    -- leaving out what nobody names keeps every entry of a name that is asked for
    have hnamed : ∀ spec : VehicleSpec, spec.name = request.spec →
        decide (spec.name ∈ scenario.vehicles.map VehicleRequest.spec) = true := by
      intro spec hname
      rw [decide_eq_true_eq, hname]
      exact List.mem_map_of_mem hrequest
    calc (SpecDirectory.ofCatalog catalog).spec? request.spec
        = (SpecDirectory.ofCatalog { scenario with catalog }.namedSpecs).spec? request.spec :=
          (SpecDirectory.spec?_ofCatalog_filter hnamed).symm
      _ = (SpecDirectory.ofCatalog scenario.namedSpecs).spec? request.spec := by rw [h]
      _ = (SpecDirectory.ofCatalog scenario.catalog).spec? request.spec :=
          SpecDirectory.spec?_ofCatalog_filter hnamed
  simp only [ofScenario?, vehiclesOf?_congr hspec]

/-- **A valid scenario is resolved faithfully.**  Where the site can be built, its vehicles, models
and chargers are those that the scenario describes.  Each name is found, in the directory as in the
catalog; and a catalog that agrees on the entries that vehicles name, whatever else it has, makes no
difference. -/
theorem resolves_of_readScenario {d : Document} (h : readScenario d = .valid scenario) :
    (∀ site, ofScenario? scenario = .ok site → site.Resolves scenario) ∧
    (∀ request ∈ scenario.vehicles, ∃ spec, lookUpSpec scenario.catalog request.spec = .ok spec ∧
      (SpecDirectory.ofCatalog scenario.catalog).spec? request.spec = .ok spec) ∧
    (∀ name, ofScenario? scenario ≠ .error (.unknownSpec name)) ∧
    ∀ catalog, { scenario with catalog }.namedSpecs = scenario.namedSpecs →
      ofScenario? { scenario with catalog } = ofScenario? scenario := by
  have hnames := (Scenario.isValid_of_readScenario h).names
  exact ⟨fun site => resolves_of_ofScenario? hnames, fun request => hnames.exists_spec,
    findsNames_ofScenario? hnames, fun catalog => ofScenario?_congr⟩

/-- The configuration of three vehicles of two kinds in turn.  The catalog has a third entry, of
which no model can be made. -/
def interleavedDocument : Document :=
  let entry (name : String) (kilowatts : ℤ) : Document := .record [
    ("name", .text name), ("battery_capacity_kwh", .integer 40),
    ("charge_curve", .list [.list [.integer 0, .integer kilowatts],
      .list [.integer 100, .integer kilowatts]])]
  let request (name : String) (start : ℤ) : Document := .record [
    ("spec", .text name), ("start_soc_pct", .integer start)]
  .record [
    ("catalog", .list [entry "A" 11,
      VehicleModel.entryThrough [50001 / 1000, 50002 / 1000], entry "B" 22]),
    ("vehicles", .list [request "A" 50, request "B" 60, request "A" 70]),
    ("chargers", .list [.record [("grid_connection_kw", .integer 22)]])]

/-- The scenario of the configuration. -/
def interleaved : Scenario where
  catalog := [⟨"A", 40, [(0, 11), (100, 11)], 0⟩,
    ⟨"X", 50, [(0, 10), (.round (50001 / 1000), 20), (.round (50002 / 1000), 20), (100, 10)], 0⟩,
    ⟨"B", 40, [(0, 22), (100, 22)], 0⟩]
  vehicles := [⟨"A", 50, 80⟩, ⟨"B", 60, 80⟩, ⟨"A", 70, 80⟩]
  chargers := [{ gridConnectionKw := 22 }]

/-- The first vehicle and the third share a model.  The site is built although an entry of the
catalog is spoilt, and is the same without that entry. -/
theorem interleaved_resolves :
    readScenario interleavedDocument = .valid interleaved ∧
    ¬ (∃ models, interleaved.catalog.mapM VehicleModel.ofSpec? = .ok models) ∧
    interleaved.namedSpecs ≠ interleaved.catalog ∧
    ∃ site, ofScenario? interleaved = .ok site ∧ site.Resolves interleaved ∧
      site.names = [(0, "A"), (1, "B"), (2, "A")] ∧ site.modelPlaces = [0, 1, 0] ∧
      ofScenario? { interleaved with catalog := interleaved.namedSpecs } = .ok site := by
  have hvalid : readScenario interleavedDocument = .valid interleaved := by decide +kernel
  have hspoilt : interleaved.catalog.mapM VehicleModel.ofSpec? =
      .error (.notIncreasing (.ofHundredths 5000) (.ofHundredths 5000)) := by
    decide +kernel
  have hplaces : (ofScenario? interleaved).map modelPlaces = .ok [0, 1, 0] := by decide +kernel
  obtain ⟨hresolves, -, -, hsame⟩ := resolves_of_readScenario hvalid
  obtain ⟨site, hsite, hmodels⟩ := map_eq_ok_iff.mp hplaces
  refine ⟨hvalid, ?_, by decide +kernel, site, hsite, hresolves site hsite, ?_, hmodels, ?_⟩
  · -- of two samples of the entry that is spoilt, both are at 50.00 % once rounded
    rintro ⟨models, hbuilt⟩
    rw [hspoilt] at hbuilt
    cases hbuilt
  · rw [(hresolves site hsite).names_eq]
    rfl
  · rw [hsame _ (by decide +kernel), hsite]

end Site

end ChargingSite
