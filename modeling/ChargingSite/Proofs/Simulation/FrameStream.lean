import ChargingSite.Proofs.Charger.FlatStation
import ChargingSite.Proofs.Simulation.Replay
import ChargingSite.Proofs.Simulation.Sound

/-!
# The frames of a run

Every frame of a history is well formed (`Frame.WellFormed`, `Evolves.wellFormed`): it carries its
number and the time that so many steps take, shows every charger in order with the two parts of its
grid connection, and lists the vehicles in blocks, one for the occupants of each charger, which add
up to the power of the charger.  A run steps as long as the simulation is not done
(`RunsTo.exists_step`) and its last step leaves it done (`RunsTo.exists_last`), so the last frame is
empty (`Stepped.frame_of_isDone`).
-/

namespace ChargingSite

variable {n : ℕ}

/-- The frame of the step with the given number, made at the given installations, that leaves the
chargers as they are given. -/
structure Frame.WellFormed (installations : List Installation) (stepDuration : StepDuration)
    (number : ℕ) (chargers : List (Charger n)) (frame : Frame) : Prop where
  step_eq : frame.step = number
  elapsed_eq :
    frame.elapsedSeconds = .round (mkRat (number * stepDuration.microseconds) 1000000)
  /-- There is one entry for each charger, in order, whose powers add up to the grid connection. -/
  chargers_eq : frame.chargers.map (fun shown =>
      (shown.charger, shown.activeWatts + shown.unusedWatts)) =
    installations.mapIdx fun position i => ((position : ℤ), i.grid.watts)
  /-- The entries of the vehicles fall into one block for each charger, that of its occupants, which
  adds up to the power of the charger. -/
  exists_blocks : ∃ blocks : List (List VehicleFrame), blocks.flatten = frame.vehicles ∧
    blocks.map (·.map VehicleFrame.grant) =
      chargers.map (fun c => c.occupants.map Occupant.grant) ∧
    blocks.map (fun block => (block.map VehicleFrame.allocatedWatts).sum) =
      frame.chargers.map ChargerFrame.activeWatts
  sum_eq : (frame.chargers.map ChargerFrame.activeWatts).sum =
    (frame.vehicles.map VehicleFrame.allocatedWatts).sum

namespace Simulation

/-! ### The frame of a step -/

namespace Stepped

variable {s t : Simulation n} {filled : List (Charger n)} {delivered : Energy} {frame : Frame}

theorem exists_blocks (h : s.Stepped filled delivered frame t) :
    ∃ blocks : List (List VehicleFrame), blocks.flatten = frame.vehicles ∧
      blocks.map (·.map VehicleFrame.grant) =
        t.chargers.map (fun c => c.occupants.map Occupant.grant) ∧
      blocks.map (fun block => (block.map VehicleFrame.allocatedWatts).sum) =
        frame.chargers.map ChargerFrame.activeWatts := by
  obtain ⟨blocks, hflatten, hgrants, -⟩ := h.exists_groups
  refine ⟨blocks, hflatten, hgrants, ?_⟩
  have hsums := congrArg (List.map fun grants : List (ℤ × Power) =>
    (grants.map fun grant => grant.2.watts).sum) hgrants
  rw [List.map_map, List.map_map] at hsums
  rw [h.activeWatts_eq]
  simp only [Charger.watts_allocated]
  simpa [Function.comp_def, VehicleFrame.grant, Occupant.grant] using hsums

/-- The frame of a step that leaves nobody plugged in. -/
theorem frame_of_isDone (h : s.Stepped filled delivered frame t) (hdone : t.isDone = true) :
    frame.vehicles = [] ∧ frame.dispensedWh = 0 ∧
      ∀ shown ∈ frame.chargers, shown.activeWatts = 0 := by
  obtain ⟨-, hidle⟩ := isDone_iff.mp hdone
  have hnobody : t.chargers.flatMap Charger.occupants = [] := List.flatMap_eq_nil_iff.mpr hidle
  refine ⟨?_, ?_, fun shown hshown => ?_⟩
  · -- nobody is listed
    have hlisted := h.frames_occupants
    rw [hnobody] at hlisted
    exact List.forall₂_nil_left_iff.mp hlisted
  · -- nobody is charged
    have hnothing : ∀ ps ∈ t.chargers.map fun c => c.occupants.map Occupant.allocated,
        ps = [] := by
      rw [List.forall_mem_map]
      exact fun c hc => List.map_eq_nil_iff.mpr (hidle c hc)
    have hdelivered := (chargeAll_eq_ok_iff.mp h.charging).2
    rw [delivered?_of_forall_nil hnothing] at hdelivered
    obtain rfl := Except.ok.inj hdelivered
    exact h.frame_totals.2.2
  · -- nobody holds a power
    obtain ⟨c, hc, position, rfl⟩ := exists_left_of_forall₂ h.chargers_shown hshown
    show c.allocated.watts = 0
    rw [Charger.watts_allocated, hidle c hc]
    rfl

end Stepped

/-! ### The frames of a history -/

namespace Evolves

variable {s t u : Simulation n} {frames later : List Frame}

theorem steps (h : Evolves s frames t) (hsteps : Steps t later u) :
    Evolves s (frames ++ later) u := by
  induction hsteps generalizing frames with
  | done => rwa [List.append_nil]
  | @next _ _ frame later head _ ih =>
    rw [List.append_cons]
    exact ih (h.step head)

/-- Steps are counted, and the clock shows how long they take. -/
theorem counts (h : Evolves s frames t) : t.steps = s.steps + frames.length ∧
    t.elapsed.microseconds =
      s.elapsed.microseconds + frames.length * s.stepDuration.microseconds := by
  induction h with
  | start => simp
  | join _ _ ih => exact ih
  | step h hstep ih =>
    obtain ⟨hsteps, helapsed⟩ := ih
    obtain ⟨filled, delivered, hstepped⟩ := stepped_of_step hstep
    have hclock := Duration.microseconds_of_add? hstepped.clock
    rw [hstepped.steps_eq, hclock, hsteps, helapsed, h.stepDuration_eq, List.length_append,
      List.length_singleton]
    constructor
    · omega
    · push_cast
      ring

variable {fleet : Fleet n} {installations : List Installation} {stepDuration : StepDuration}

/-- The chargers are always those of the installations, with others plugged in. -/
theorem installations_eq (h : Evolves (create fleet installations stepDuration) frames t) :
    t.chargers.map Charger.toInstallation = installations := by
  have hkept := h.chargers_invariant (P := fun _ => True) (fun _ => trivial)
    (fun _ _ _ _ _ => trivial) fun _ _ _ _ _ => trivial
  rw [← List.map_id installations]
  exact (map_eq_map_of_forall₂ hkept fun i c hc => hc.1.symm).symm

/-- **The next step of a history leaves a well-formed frame.** -/
theorem wellFormed (h : Evolves (create fleet installations stepDuration) frames t) {frame : Frame}
    (hstep : t.step.result = .ok frame) :
    frame.WellFormed installations stepDuration (frames.length + 1)
      t.step.simulation.chargers := by
  obtain ⟨filled, delivered, hstepped⟩ := stepped_of_step hstep
  have hafter := h.step hstep
  obtain ⟨hsteps, helapsed⟩ := hafter.counts
  obtain ⟨hnumber, htime, -⟩ := hstepped.frame_totals
  obtain ⟨blocks, hflatten, hgrants, hblocks⟩ := hstepped.exists_blocks
  rw [List.length_append, List.length_singleton] at hsteps helapsed
  refine ⟨?_, ?_, ?_, ⟨blocks, hflatten, hgrants, hblocks⟩, ?_⟩
  · -- the steps made so far, and this one
    rw [hnumber, hsteps, create, Nat.zero_add]
  · -- their time, to the nearest double of seconds
    rw [htime, Duration.seconds, helapsed, create]
    show Binary64.round (mkRat (0 + _) _) = _
    rw [zero_add]
  · -- one entry for every charger, at its position
    rw [hstepped.chargers_eq, ← hafter.installations_eq]
    refine List.ext_getElem (by simp) fun position _ _ => ?_
    simp [Charger.frame]
  · -- what the chargers show adds up to what the vehicles show
    rw [← hflatten, ← hblocks, List.map_flatten, List.sum_flatten, List.map_map]
    rfl

end Evolves

/-! ### The frames of a run -/

/-- Somebody waits in a new simulation that is valid. -/
theorem isDone_eq_false_of_isValid {fleet : Fleet n} {installations : List Installation}
    {stepDuration : StepDuration} {vehicles : List (Fin n)} {s : Simulation n}
    (hs : s = (create fleet installations stepDuration).enqueueAll vehicles)
    (hvalid : s.isValid = true) : s.isDone = false := by
  by_contra hdone
  obtain ⟨hqueue, -⟩ := isDone_iff.mp (Bool.not_eq_false _ ▸ hdone)
  obtain ⟨hregistry, hline, -⟩ :=
    enqueueAll_spec (create fleet installations stepDuration) vehicles
  rw [← hs] at hregistry hline
  rw [hqueue] at hline
  have hnobody : s.registry = [] := hregistry.trans hline.symm
  rw [isValid, hnobody, List.isEmpty_nil, Bool.not_true, Bool.and_false] at hvalid
  cases hvalid

/-- **The frames of a run** of a valid simulation with idle chargers: there is one at least; each is
well formed and comes from a step of a simulation that is not done; and the simulation is done after
the last one, which lists no vehicle and shows neither energy nor power. -/
theorem run_frames {fleet : Fleet n} {installations : List Installation}
    {stepDuration : StepDuration} {vehicles : List (Fin n)} {s : Simulation n}
    (hs : s = (create fleet installations stepDuration).enqueueAll vehicles)
    (hvalid : s.isValid = true) {frames : List Frame} (hrun : s.run.result = .ok frames) :
    frames ≠ [] ∧
    (∀ (i : ℕ) (hi : i < frames.length),
      ∃ t, Steps s (frames.take i) t ∧ t.isDone = false ∧ t.step.result = .ok frames[i] ∧
        frames[i].WellFormed installations stepDuration (i + 1) t.step.simulation.chargers) ∧
    (Steps s frames s.run.simulation ∧ s.run.simulation.isDone = true) ∧
    ∀ last ∈ frames.getLast?, last.vehicles = [] ∧ last.dispensedWh = 0 ∧
      ∀ shown ∈ last.chargers, shown.activeWatts = 0 := by
  have hruns : RunsTo s frames s.run.simulation := by
    rcases run_eq_ok hrun with ⟨hinvalid, -⟩ | hruns
    · rw [hvalid] at hinvalid
      cases hinvalid
    · exact hruns
  have hjoined : Evolves (create fleet installations stepDuration) [] s := by
    rw [hs]
    exact Evolves.start.enqueueAll vehicles
  refine ⟨?_, fun i hi => ?_, ⟨hruns.steps, hruns.isDone⟩, fun last hlast => ?_⟩
  · -- somebody waits, so a run without steps would not have ended
    rintro rfl
    generalize s.run.simulation = t at hruns
    cases hruns with
    | done hdone =>
      rw [isDone_eq_false_of_isValid hs hvalid] at hdone
      cases hdone
  · obtain ⟨t, hsteps, hdone, hstep⟩ := hruns.exists_step hi
    refine ⟨t, hsteps, hdone, hstep, ?_⟩
    have hwell := (hjoined.steps hsteps).wellFormed hstep
    rwa [List.nil_append, List.length_take_of_le hi.le] at hwell
  · obtain ⟨u, hstep, hend⟩ := hruns.exists_last hlast
    obtain ⟨filled, delivered, hstepped⟩ := stepped_of_step hstep
    refine hstepped.frame_of_isDone ?_
    rw [hend]
    exact hruns.isDone

/-- Three sample vehicles in the line of a single plug and a paired charger that is short of
power. -/
def sampleStream : Simulation 3 :=
  (create #v[.sample, .sample, .sample] [⟨⟨11000⟩, .exclusive⟩, ⟨⟨9000⟩, .paired 2⟩]
    halfHour).enqueueAll (List.finRange 3)

/-- Everybody charges for half an hour, the paired charger beyond its grid connection, and the
second frame is empty. -/
theorem sampleStream_run_frames :
    ∃ first last, sampleStream.run.result = .ok [first, last] ∧
      first.chargers.map (fun c => (c.activeWatts, c.unusedWatts)) =
        [(11000, 0), (10000, -1000)] ∧
      (first.vehicles.map VehicleFrame.allocatedWatts).sum = 21000 ∧
      first.step = 1 ∧ last.vehicles = [] ∧ last.dispensedWh = 0 := by
  have hshown : (sampleStream.run.result.map fun frames =>
      frames.map fun f => f.chargers.map fun c => (c.activeWatts, c.unusedWatts)) =
        .ok [[(11000, 0), (10000, -1000)], [(0, 11000), (0, 9000)]] := by
    decide +kernel
  cases hresult : sampleStream.run.result with
  | error e => rw [hresult] at hshown; cases hshown
  | ok frames =>
    rw [hresult] at hshown
    obtain ⟨-, hframes, -, hlast⟩ := run_frames rfl (by decide) hresult
    obtain ⟨first, rest, rfl, hfirst, hrest⟩ := List.map_eq_cons_iff.mp (Except.ok.inj hshown)
    obtain ⟨last, rfl, -⟩ := List.map_eq_singleton_iff.mp hrest
    obtain ⟨_, -, -, -, hwell⟩ := hframes 0 Nat.zero_lt_two
    rw [List.getElem_cons_zero] at hwell
    obtain ⟨hnobody, hnothing, -⟩ := hlast last rfl
    refine ⟨first, last, rfl, hfirst, ?_, hwell.step_eq, hnobody, hnothing⟩
    have hactive := congrArg (List.map Prod.fst) hfirst
    rw [List.map_map] at hactive
    have hpowers : first.chargers.map ChargerFrame.activeWatts = [11000, 10000] := hactive
    rw [← hwell.sum_eq, hpowers]
    rfl

end Simulation

end ChargingSite
