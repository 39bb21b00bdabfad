import ChargingSite.Site
import ChargingSite.Proofs.Charger.FlatStation
import ChargingSite.Proofs.Scenario.Validity

/-!
# The site of a valid scenario

Validation lets only strategies through that have a plug and a rule for sharing
(`Scenario.obeysRules_of_readScenario`).  The site of a scenario is a simulation with one idle
charger for each of its chargers and one waiting vehicle for each of its vehicles
(`Site.exists_of_ofScenario?`).
-/

namespace ChargingSite

/-! ### Valid chargers -/

/-- What validation guarantees of a strategy: it has a plug, and a rule for sharing. -/
structure Strategy.ObeysRules (s : Strategy) : Prop where
  plugs_pos : 1 ≤ s.plugs
  known : ∀ kind plugs shown, s ≠ .custom kind plugs shown

theorem Strategy.IsValid.obeysRules {s : Strategy} (h : s.IsValid) : s.ObeysRules := by
  cases s with
  | exclusive => exact ⟨le_rfl, nofun⟩
  | paired plugs => exact ⟨h, nofun⟩
  | split plugs => exact ⟨h, nofun⟩
  | granular plugs stepKw capKw => exact ⟨h.1, nofun⟩
  | custom kind plugs shown => cases h

/-- The chargers of a valid scenario have strategies that obey the rules. -/
theorem Scenario.obeysRules_of_readScenario {d : Document} {scenario : Scenario}
    (h : readScenario d = .valid scenario) :
    ∀ config ∈ scenario.chargers, config.strategy.ObeysRules := by
  intro config hconfig
  exact ((isValid_of_readScenario h).chargers config hconfig).strategy.obeysRules

/-! ### The simulation of a site -/

theorem length_vehiclesOf? {directory : SpecDirectory} {requests : List VehicleRequest}
    {shelf shelf' : ModelShelf} {vehicles : List (Vehicle × ℕ)}
    (h : vehiclesOf? directory requests shelf = .ok (vehicles, shelf')) :
    vehicles.length = requests.length := by
  induction requests generalizing shelf vehicles with
  | nil =>
    cases h
    rfl
  | cons request rest ih =>
    simp only [vehiclesOf?, bind_eq_ok_iff, pure_eq_ok_iff] at h
    obtain ⟨⟨model, place, shelf₁⟩, -, start, -, unplug, -, ⟨later, shelf₂⟩, hlater, heq⟩ := h
    cases heq
    rw [List.length_cons, List.length_cons, ih hlater]

/-- The simulation of a site: idle chargers as the scenario describes them, in order, and all
vehicles in the line. -/
structure Site.Describes (site : Site) (scenario : Scenario) (installations : List Installation)
    (stepDuration : StepDuration) (fleet : Fleet site.size) : Prop where
  installations_eq :
    List.Forall₂ (fun config i => Installation.ofConfig? config = .ok i) scenario.chargers
      installations
  stepDuration_eq :
    Duration.ofSeconds? scenario.simulation.stepSeconds = .ok stepDuration.toDuration
  size_eq : site.size = scenario.vehicles.length
  simulation_eq : site.simulation =
    (Simulation.create fleet installations stepDuration).enqueueAll (List.finRange site.size)

theorem Site.exists_of_ofScenario? {scenario : Scenario} {site : Site}
    (h : Site.ofScenario? scenario = .ok site) :
    ∃ installations stepDuration fleet,
      site.Describes scenario installations stepDuration fleet := by
  simp only [Site.ofScenario?, bind_eq_ok_iff, pure_eq_ok_iff, liftNumber_eq_ok_iff,
    mapM_eq_ok_iff] at h
  obtain ⟨installations, hinstallations, length, hlength, stepDuration, hduration,
    ⟨vehicles, shelf⟩, hvehicles, rfl⟩ := h
  refine ⟨installations, stepDuration, _, hinstallations, ?_, length_vehiclesOf? hvehicles, rfl⟩
  rw [hlength]
  unfold StepDuration.ofDuration? at hduration
  split at hduration
  · -- the steps take some time
    cases hduration
    rfl
  · -- steps that take no time are refused, and there is no site
    cases hduration

end ChargingSite
