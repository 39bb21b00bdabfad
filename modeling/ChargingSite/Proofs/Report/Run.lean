import ChargingSite.Report.Run
import ChargingSite.Scenario.Validation
import ChargingSite.Proofs.Report.Summary
import ChargingSite.Proofs.Scenario.Site
import ChargingSite.Proofs.Simulation.Load

/-!
# Bounds of a whole run

A run of a valid scenario that returns frames is a history of the installations and vehicles that
the scenario describes (`Scenario.exists_history`).  Therefore its frames show no more vehicles than
there are plugs (`History.length_vehicles_le`), no negative power (`History.addUp`), and no more
power at a charger than its grid connection has, if that serves a plug at all
(`History.wattsAt_le`).  The summary adds these frames up without an error, and its bounds follow
from theirs (`Scenario.run_summary`).
-/

namespace ChargingSite

/-! ### The history of a run -/

/-- The installation of a charger that obeys the rules can be run. -/
theorem Installation.isUsable_of_ofConfig? {config : ChargerConfig} {i : Installation}
    (hconfig : config.strategy.ObeysRules) (h : ofConfig? config = .ok i) :
    i.IsUsable ∧ i.strategy = config.strategy ∧
      Power.ofKilowatts? config.gridConnectionKw = .ok i.grid := by
  simp only [ofConfig?, bind_eq_ok_iff, liftNumber_eq_ok_iff] at h
  obtain ⟨grid, hgrid, hi⟩ := h
  obtain rfl := eq_of_create? hi
  refine ⟨⟨hi, hconfig.plugs_pos, ?_⟩, rfl, hgrid⟩
  have hknown := hconfig.known
  show config.strategy.IsFlat ∨ config.strategy.IsGranular
  -- a strategy without a rule for sharing has not been let through
  cases hstrategy : config.strategy with
  | exclusive | paired | split => exact .inl trivial
  | granular => exact .inr trivial
  | custom kind plugs shown => exact absurd hstrategy (hknown kind plugs shown)

namespace Scenario

/-- The frames are those of a history of the installations and vehicles that the scenario
describes. -/
structure History (scenario : Scenario) {n : ℕ} (fleet : Fleet n)
    (installations : List Installation) (stepDuration : StepDuration) (frames : List Frame)
    (t : Simulation n) : Prop where
  obeysRules : ∀ config ∈ scenario.chargers, config.strategy.ObeysRules
  installations_eq : List.Forall₂ (fun config i => Installation.ofConfig? config = .ok i)
    scenario.chargers installations
  stepDuration_eq :
    Duration.ofSeconds? scenario.simulation.stepSeconds = .ok stepDuration.toDuration
  evolves : Simulation.Evolves (.create fleet installations stepDuration) frames t
  length_registry : t.registry.length = scenario.vehicles.length
  last_eq : frames.getLast?.map Frame.elapsedSeconds = some t.elapsed.seconds

variable {scenario : Scenario} {result : RunResult}

theorem exists_of_run_eq_ok (h : scenario.run.1 = .ok result) :
    ∃ site, Site.ofScenario? scenario = .ok site ∧
      site.simulation.run.result = .ok result.frames ∧
      summarise? result.frames scenario site.simulation.run.simulation.isValid =
        .ok result.summary := by
  unfold run at h
  split at h
  · -- without a site there is nothing to run
    cases h
  · next site hsite =>
    refine ⟨site, hsite, ?_⟩
    dsimp only at h
    split at h
    · -- a run that fails has no summary
      cases h
    · next result' hsummed =>
      cases h
      simp only [bind_eq_ok_iff, pure_eq_ok_iff] at hsummed
      obtain ⟨frames, hframes, summary, hsummary, rfl⟩ := hsummed
      exact ⟨hframes, hsummary⟩

theorem exists_history (hrules : ∀ config ∈ scenario.chargers, config.strategy.ObeysRules)
    (h : scenario.run.1 = .ok result) (hne : result.frames ≠ []) :
    ∃ (n : ℕ) (fleet : Fleet n) (installations : List Installation) (stepDuration : StepDuration)
      (t : Simulation n) (isValid : Bool),
      scenario.History fleet installations stepDuration result.frames t ∧
        summarise? result.frames scenario isValid = .ok result.summary := by
  obtain ⟨site, hsite, hrun, hsummary⟩ := exists_of_run_eq_ok h
  obtain ⟨installations, stepDuration, fleet, hdescribes⟩ := Site.exists_of_ofScenario? hsite
  -- a run that returns frames has made steps, and there is something to step
  obtain ⟨-, hnone, -⟩ | hruns := Simulation.run_eq_ok hrun
  · exact absurd hnone hne
  have hjoined : Simulation.Evolves (.create fleet installations stepDuration) []
      site.simulation := by
    rw [hdescribes.simulation_eq]
    exact Simulation.Evolves.start.enqueueAll _
  have hevolves := hjoined.steps hruns.steps
  rw [List.nil_append] at hevolves
  refine ⟨site.size, fleet, installations, stepDuration, _, _,
    ⟨hrules, hdescribes.installations_eq, hdescribes.stepDuration_eq, hevolves, ?_, ?_⟩, hsummary⟩
  · -- steps leave the registry as it is, and everybody has joined the line before
    have hregistry := hruns.steps.invariant (P := fun t => t.registry = site.simulation.registry)
      (fun s frame hs hstep => by
        obtain ⟨filled, delivered, hstepped⟩ := Simulation.stepped_of_step hstep
        rw [hstepped.registry_eq, hs]) rfl
    obtain ⟨hline, -⟩ := Simulation.enqueueAll_spec (.create fleet installations stepDuration)
      (List.finRange site.size)
    rw [hregistry, hdescribes.simulation_eq, hline, ← hdescribes.size_eq]
    simp [Simulation.create]
  · obtain ⟨last, hlast⟩ := Option.isSome_iff_exists.mp (List.getLast?_isSome.mpr hne)
    obtain ⟨u, hstep, hend⟩ := hruns.exists_last hlast
    obtain ⟨filled, delivered, hstepped⟩ := Simulation.stepped_of_step hstep
    rw [hlast, Option.map_some, hstepped.frame_totals.2.1, hend]

/-! ### What a history shows -/

namespace History

variable {n : ℕ} {fleet : Fleet n} {installations : List Installation} {stepDuration : StepDuration}
  {frames : List Frame} {t : Simulation n}

theorem isUsable (h : scenario.History fleet installations stepDuration frames t) :
    ∀ i ∈ installations, i.IsUsable := by
  intro i hi
  obtain ⟨config, hconfig, hmade⟩ := exists_left_of_forall₂ h.installations_eq hi
  exact (Installation.isUsable_of_ofConfig? (h.obeysRules config hconfig) hmade).1

/-- Frames list no more vehicles than there are, nor more than there are plugs. -/
theorem length_vehicles_le (h : scenario.History fleet installations stepDuration frames t)
    {f : Frame} (hf : f ∈ frames) :
    f.vehicles.length ≤ scenario.vehicles.length ∧
      (f.vehicles.length : ℤ) ≤
        (scenario.chargers.map fun config => config.strategy.plugs).sum := by
  obtain ⟨hregistry, hplugs⟩ := h.evolves.length_vehicles_le h.isUsable hf
  rw [h.length_registry] at hregistry
  refine ⟨hregistry, ?_⟩
  have hmade := forall₂_imp_of_mem (S := fun config i => i.strategy = config.strategy)
    h.installations_eq fun config hconfig i hi =>
      (Installation.isUsable_of_ofConfig? (h.obeysRules config hconfig) hi).2.1
  rwa [map_eq_map_of_forall₂ (g := fun i => i.strategy.plugs) hmade fun config i hi => by rw [hi]]

/-- The clock shows how long the steps take. -/
theorem microseconds_elapsed (h : scenario.History fleet installations stepDuration frames t) :
    t.elapsed.microseconds = frames.length * stepDuration.microseconds := by
  rw [h.evolves.counts.2]
  exact zero_add _

theorem seconds_elapsed (h : scenario.History fleet installations stepDuration frames t) :
    t.elapsed.seconds = .round (mkRat (frames.length * stepDuration.microseconds) 1000000) := by
  rw [Duration.seconds, h.microseconds_elapsed]

/-- There is no time for more steps. -/
theorem length_le (h : scenario.History fleet installations stepDuration frames t) :
    frames.length ≤ 2 ^ 67 := by
  have hrange := t.elapsed.inRange.2
  rw [h.microseconds_elapsed] at hrange
  have hlength : (frames.length : ℤ) * 1 ≤ frames.length * stepDuration.microseconds :=
    mul_le_mul_of_nonneg_left stepDuration.positive (Int.natCast_nonneg _)
  omega

theorem addUp (h : scenario.History fleet installations stepDuration frames t)
    {f : Frame} (hf : f ∈ frames) (hlt : f.watts.sum < 2 ^ 53) : AddUp f.watts := by
  refine ⟨List.forall_mem_map.mpr fun shown hshown => ?_, hlt⟩
  obtain ⟨i, -, hbears⟩ := exists_left_of_forall₂ (h.evolves.bears h.isUsable hf) hshown
  exact hbears.nonneg

/-- The watts of one charger add up as well. -/
theorem addUp_wattsAt {position : ℕ} (hadd : ∀ f ∈ frames, AddUp f.watts)
    (hposition : ∀ f ∈ frames, position < f.watts.length)
    (hlt : (frames.map (Frame.wattsAt position)).sum < 2 ^ 53) :
    AddUp (frames.map (Frame.wattsAt position)) := by
  refine ⟨List.forall_mem_map.mpr fun f hf => ?_, hlt⟩
  rw [Frame.wattsAt_eq (hposition f hf)]
  exact (hadd f hf).nonneg _ (List.getElem_mem _)

/-- A charger that serves its plugs never has more than its grid connection. -/
theorem wattsAt_le (h : scenario.History fleet installations stepDuration frames t)
    {position : ℕ} {i : Installation} (hi : installations[position]? = some i)
    (hserves : i.Serves) {f : Frame} (hf : f ∈ frames) :
    ((f.wattsAt position).toNat : ℤ) ≤ i.grid.watts := by
  obtain ⟨shown, hshown, hbears⟩ :=
    exists_getElem?_of_forall₂ (h.evolves.bears h.isUsable hf) hi
  have hwatts : f.wattsAt position = shown.activeWatts := by
    rw [Frame.wattsAt, Frame.watts, List.getD_eq_getElem?_getD, List.getElem?_map, hshown,
      Option.map_some, Option.getD_some]
  rw [hwatts, Int.toNat_of_nonneg hbears.nonneg]
  exact hbears.le_grid hserves

end History

end Scenario

/-! ### The summary of a run -/

/-- The bounds on the load on a charger: the mean lies between zero and the peak, and the
utilisation between zero and one, unless the charger is not granular and the share of a plug is less
than the least charge power. -/
structure ChargerUtilisation.IsBounded (load : ChargerUtilisation) (config : ChargerConfig) :
    Prop where
  mean_nonneg : Binary64.le 0 load.meanActiveKw = true
  mean_le_peak : load.meanActiveKw.le load.peakActiveKw = true
  utilisation_mem : (config.strategy.IsGranular ∨ ∃ grid,
      Power.ofKilowatts? config.gridConnectionKw = .ok grid ∧
        5000 ≤ grid.watts.tdiv config.strategy.plugs) →
    Binary64.le 0 load.utilisation = true ∧ load.utilisation.le 1 = true

namespace Scenario

variable {scenario : Scenario} {result : RunResult}

/-- The load on a charger is that of its watts, and bounded, if they add up. -/
theorem History.exists_load {n : ℕ} {fleet : Fleet n} {installations : List Installation}
    {stepDuration : StepDuration} {frames : List Frame} {t : Simulation n}
    (h : scenario.History fleet installations stepDuration frames t)
    (hne : frames ≠ []) {summary : RunSummary} {reported : ℕ} {rows : List (List Binary64)}
    (hsums : summary.SumsUp frames scenario reported rows) (hadd : ∀ f ∈ frames, AddUp f.watts)
    {position : ℕ} (hlt : (frames.map (Frame.wattsAt position)).sum < 2 ^ 53)
    {config : ChargerConfig} (hconfig : scenario.chargers[position]? = some config) :
    ∃ load, summary.chargers[position]? = some load ∧
      load.Measures position config (frames.map (Frame.wattsAt position)) ∧
      load.IsBounded config := by
  obtain ⟨hreported, hload⟩ := hsums.exists_load hconfig
  obtain ⟨i, hi, hmade⟩ := exists_getElem?_of_forall₂ h.installations_eq hconfig
  obtain ⟨husable, hstrategy, hgrid⟩ :=
    Installation.isUsable_of_ofConfig? (h.obeysRules config (List.mem_of_getElem? hconfig)) hmade
  have hposition : ∀ f ∈ frames, position < f.watts.length := by
    intro f hf
    rwa [Frame.watts, List.length_map, hsums.even f hf]
  have hcounts := counts_activeColumn (counts_activeRows hadd hsums.rows_eq) hposition
  have hwatts := History.addUp_wattsAt hadd hposition hlt
  have htally : Tally (activeColumn position rows)
      ((frames.map (Frame.wattsAt position)).map Int.toNat) :=
    { counts := hcounts
      ne_nil := by simpa using hne
      length_le := by simpa using h.length_le
      sum_lt := hwatts.sum_toNat_lt }
  have hmeasures := utilisationOf_measures reported position config hwatts (by simpa using hne)
    hcounts
  obtain ⟨hnonneg, hpeak⟩ := utilisationOf_mean_le_peak reported position config htally
  refine ⟨_, hload, hmeasures, hnonneg, hpeak, fun hserves => ?_⟩
  -- the condition on the configuration is one on the installation made of it
  have hserves : i.Serves := by
    rw [Installation.Serves, Installation.share, hstrategy]
    refine hserves.imp_right ?_
    rintro ⟨grid, hgrid', hshare⟩
    rw [hgrid] at hgrid'
    cases hgrid'
    exact hshare
  refine utilisationOf_mem_unit reported position config htally hgrid
    (husable.minimumCharge_le_grid hserves) ?_
  rw [List.map_map, List.forall_mem_map]
  intro f hf
  exact h.wattsAt_le hi hserves hf

/-- **The summary of a run** of a valid scenario that returns frames, as long as neither the watts
of a frame nor those of a charger over all frames add up to `2 ^ 53`: the steps are the frames, and
they take as long as so many steps of whole microseconds; the most vehicles and the peak power are
those of the frames; no more vehicles charge at once than there are, nor more than there are plugs;
the peak power is no less than the power of any charger in any frame; and the load on every charger
is that of its watts in the frames, and bounded. -/
theorem run_summary {d : Document} (hvalid : readScenario d = .valid scenario)
    (hrun : scenario.run.1 = .ok result) (hne : result.frames ≠ [])
    (hsite : ∀ f ∈ result.frames, f.watts.sum < 2 ^ 53)
    (hcharger : ∀ position, (result.frames.map (Frame.wattsAt position)).sum < 2 ^ 53) :
    result.summary.numSteps = result.frames.length ∧
    (∃ step, Duration.ofSeconds? scenario.simulation.stepSeconds = .ok step ∧
      result.summary.totalSeconds =
        .round (mkRat (result.summary.numSteps * step.microseconds) 1000000)) ∧
    result.summary.numVehicles = scenario.vehicles.length ∧
    result.summary.Measures result.frames ∧
    (result.summary.maxVehiclesCharging : ℤ) ≤ min (result.summary.numVehicles : ℤ)
      (scenario.chargers.map fun config => config.strategy.plugs).sum ∧
    (∀ f ∈ result.frames, ∀ shown ∈ f.chargers, ∃ kilowatts,
      kilowattsOf? shown.activeWatts = .ok kilowatts ∧
        kilowatts.le result.summary.peakPowerKw = true) ∧
    ∀ (position : ℕ) (config : ChargerConfig), scenario.chargers[position]? = some config →
      ∃ load, result.summary.chargers[position]? = some load ∧
        load.Measures position config (result.frames.map (Frame.wattsAt position)) ∧
        load.IsBounded config := by
  obtain ⟨n, fleet, installations, stepDuration, t, isValid, h, hsummary⟩ :=
    exists_history (obeysRules_of_readScenario hvalid) hrun hne
  obtain ⟨reported, rows, hsums⟩ := RunSummary.exists_sumsUp hsummary hne
  have hadd : ∀ f ∈ result.frames, AddUp f.watts := fun f hf => h.addUp hf (hsite f hf)
  have hmeasures := hsums.measures hne hadd
  refine ⟨hsums.numSteps_eq, ⟨_, h.stepDuration_eq, ?_⟩, hsums.numVehicles_eq, hmeasures, ?_, ?_,
    ?_⟩
  · have htotal := h.last_eq.symm.trans hsums.totalSeconds_eq
    rw [hsums.numSteps_eq, ← Option.some.inj htotal, h.seconds_elapsed]
  · obtain ⟨f, hf, -, hmost⟩ := hmeasures.exists_most
    obtain ⟨hvehicles, hplugs⟩ := h.length_vehicles_le hf
    rw [hmost, hsums.numVehicles_eq]
    exact le_min (Int.ofNat_le.mpr hvehicles) hplugs
  · intro f hf shown hshown
    exact hsums.kilowatts_le_peak hadd hf (List.mem_map_of_mem hshown)
  · intro position config hconfig
    exact h.exists_load hne hsums hadd (hcharger position) hconfig

/-- The configuration of three vehicles at a single plug and a paired charger that is short of
power. -/
def sampleDocument : Document :=
  .record [
    ("catalog", .list [.record [
      ("name", .text "Sample"), ("battery_capacity_kwh", .integer 40),
      ("charge_curve",
        .list [.list [.integer 0, .integer 11], .list [.integer 100, .integer 11]])]]),
    ("vehicles", .list (.replicate 3 (.record [
      ("spec", .text "Sample"), ("start_soc_pct", .integer 50), ("unplug_soc_pct", .integer 55)]))),
    ("chargers", .list [
      .record [("grid_connection_kw", .integer 11)],
      .record [("grid_connection_kw", .integer 9),
        ("strategy", .record [("kind", .text "paired")])]]),
    ("simulation", .record [("step_seconds", .integer 1800)])]

/-- The scenario of the configuration. -/
def sample : Scenario where
  catalog := [⟨"Sample", 40, [(0, 11), (100, 11)], 0⟩]
  vehicles := List.replicate 3 ⟨"Sample", 50, 55⟩
  chargers := [{ gridConnectionKw := 11 }, { gridConnectionKw := 9, strategy := .paired 2 }]
  simulation := ⟨1800⟩

/-- The three vehicles charge for half an hour, the paired charger gives more than its grid
connection has, and the second frame is empty.  So the single plug is in full use for half of the
time. -/
theorem sample_run_summary :
    ∃ result, readScenario sampleDocument = .valid sample ∧ sample.run.1 = .ok result ∧
      result.frames.map Frame.watts = [[11000, 10000], [0, 0]] ∧ result.summary.numSteps = 2 ∧
      result.summary.maxVehiclesCharging ≤ 3 ∧
      ∃ load, result.summary.chargers[0]? = some load ∧ load.meanActiveKw = 11 / 2 ∧
        load.peakActiveKw = 11 ∧ load.utilisation = 1 / 2 ∧
        load.meanActiveKw.le load.peakActiveKw = true ∧ load.utilisation.le 1 = true := by
  have hvalid : readScenario sampleDocument = .valid sample := by decide +kernel
  have hshown : (sample.run.1.map fun result => result.frames.map Frame.watts) =
      .ok [[11000, 10000], [0, 0]] := by
    decide +kernel
  cases hrun : sample.run.1 with
  | error e => rw [hrun] at hshown; cases hshown
  | ok result =>
    rw [hrun] at hshown
    have hwatts : result.frames.map Frame.watts = [[11000, 10000], [0, 0]] := Except.ok.inj hshown
    have hne : result.frames ≠ [] := by
      intro hnone
      rw [hnone] at hwatts
      cases hwatts
    have hsite : ∀ f ∈ result.frames, f.watts.sum < 2 ^ 53 := by
      rw [← List.forall_mem_map (P := fun watts : List ℤ => watts.sum < 2 ^ 53), hwatts]
      decide
    have hcolumn (position : ℕ) : result.frames.map (Frame.wattsAt position) =
        [[11000, 10000], [0, 0]].map (·.getD position 0) := by
      rw [← hwatts, List.map_map]
      rfl
    have hcharger : ∀ position, (result.frames.map (Frame.wattsAt position)).sum < 2 ^ 53 := by
      intro position
      rw [hcolumn]
      match position with
      | 0 => decide
      | 1 => decide
      | _ + 2 => exact Nat.ofNat_pos
    obtain ⟨hsteps, -, hvehicles, -, hmost, -, hloads⟩ :=
      run_summary hvalid hrun hne hsite hcharger
    obtain ⟨load, hload, hmeasures, hbounded⟩ := hloads 0 _ rfl
    rw [hcolumn] at hmeasures
    obtain ⟨peak, hmem, hpeak_le, hpeak⟩ := hmeasures.exists_peak
    have hpeak_eq : peak = 11000 := by
      have hlow := hpeak_le 11000 (by decide)
      simp only [List.map_cons, List.map_nil, List.getD_cons_zero, List.mem_cons,
        List.not_mem_nil, or_false] at hmem
      omega
    refine ⟨result, hvalid, rfl, hwatts, ?_, ?_, load, hload, ?_, ?_, ?_, hbounded.mean_le_peak,
      (hbounded.utilisation_mem (.inr ⟨⟨11000⟩, by decide +kernel, by decide⟩)).2⟩
    · rw [hsteps, ← List.length_map Frame.watts, hwatts]
      rfl
    · rw [hvehicles] at hmost
      exact_mod_cast hmost.trans (min_le_left _ _)
    · rw [hmeasures.mean_eq]
      decide +kernel
    · rw [hpeak, hpeak_eq]
      decide +kernel
    · rw [hmeasures.utilisation_eq]
      decide +kernel

end Scenario

end ChargingSite
