import ChargingSite.Proofs.Simulation.Lockstep

/-!
# Split and exclusive chargers

A split charger and as many exclusive chargers as it has plugs, each with its part of the grid
connection, are banks with the same offer (`sameBank_split`).  So one can stand for the other in any
simulation of distinct vehicles, whatever the other chargers are (`split_interchangeable`).
-/

namespace ChargingSite

variable {n : ℕ}

/-- As many exclusive chargers as there are plugs, each with its part of the grid connection, cut
off toward zero. -/
def exclusiveParts (grid : Power) (plugs : ℤ) : List (Charger n) :=
  List.replicate plugs.toNat (.idle ⟨⟨grid.watts.tdiv plugs⟩, .exclusive⟩)

theorem flatMap_exclusiveParts (grid : Power) (plugs : ℤ) :
    (exclusiveParts grid plugs : List (Charger n)).flatMap Charger.occupants = [] := by
  refine List.flatMap_eq_nil_iff.mpr fun c hc => ?_
  rw [List.eq_of_mem_replicate hc]
  rfl

theorem isBank_split (grid : Power) {plugs : ℤ} (hplugs : 1 ≤ plugs) :
    IsBank ⟨grid.watts.tdiv plugs⟩ plugs.toNat
      [(.idle ⟨grid, .split plugs⟩ : Charger n)] where
  offers := by
    rw [List.forall_mem_singleton]
    exact offers_split grid (by omega)
  length_le := by
    rw [List.forall_mem_singleton]
    exact Nat.zero_le _
  plugs_eq := List.sum_singleton

theorem isBank_exclusiveParts (grid : Power) (plugs : ℤ) :
    IsBank ⟨grid.watts.tdiv plugs⟩ plugs.toNat (exclusiveParts grid plugs : List (Charger n)) where
  offers c hc := by
    rw [List.eq_of_mem_replicate hc]
    exact offers_exclusive _
  length_le c hc := by
    rw [List.eq_of_mem_replicate hc]
    exact Nat.zero_le _
  plugs_eq := by
    have hone : (Charger.idle (n := n) ⟨⟨grid.watts.tdiv plugs⟩, .exclusive⟩).strategy.plugs.toNat =
        1 := rfl
    rw [exclusiveParts, List.map_replicate, hone, List.sum_replicate_nat, mul_one]

/-- **A split charger** and its exclusive parts are banks with the same plugs and offer. -/
theorem sameBank_split (grid : Power) {plugs : ℤ} (hplugs : 1 ≤ plugs) :
    SameBank ⟨grid.watts.tdiv plugs⟩ plugs.toNat [(.idle ⟨grid, .split plugs⟩ : Charger n)]
      (exclusiveParts grid plugs) where
  left := isBank_split grid hplugs
  right := isBank_exclusiveParts grid plugs
  perm := by
    rw [flatMap_exclusiveParts]
    rfl

namespace Simulation

variable {fleet : Fleet n} {stepDuration : StepDuration} {vehicles : List (Fin n)}

/-- The simulation of the given chargers in which the given vehicles have joined the line. -/
def withLine (fleet : Fleet n) (stepDuration : StepDuration) (vehicles : List (Fin n))
    (chargers : List (Charger n)) : Simulation n :=
  ({ fleet, chargers, stepDuration } : Simulation n).enqueueAll vehicles

theorem enqueueAll_chargers (s : Simulation n) (chargers : List (Charger n))
    (vehicles : List (Fin n)) :
    ({ s with chargers } : Simulation n).enqueueAll vehicles =
      { s.enqueueAll vehicles with chargers } := by
  induction vehicles generalizing s with
  | nil => rfl
  | cons v vehicles ih => exact ih (s.enqueue v)

/-- Who joins the line does so whatever the chargers are. -/
theorem withLine_eq (chargers chargers' : List (Charger n)) :
    withLine fleet stepDuration vehicles chargers' =
      { withLine fleet stepDuration vehicles chargers with chargers := chargers' } :=
  enqueueAll_chargers ({ fleet, chargers, stepDuration } : Simulation n) chargers' vehicles

theorem lockstep_withLine {offer : Power} {plugs : ℕ} {as bs : List (Charger n)}
    (hsame : SameBank offer plugs as bs) (hidle : as.flatMap Charger.occupants = [])
    (hdistinct : vehicles.Nodup) (before after : List (Charger n)) :
    Lockstep offer plugs (withLine fleet stepDuration vehicles (before ++ as ++ after))
      (withLine fleet stepDuration vehicles (before ++ bs ++ after)) := by
  rw [withLine_eq (before ++ as ++ after) (before ++ bs ++ after)]
  obtain ⟨-, hqueue, -, hchargers, -⟩ := enqueueAll_spec
    ({ fleet, chargers := before ++ as ++ after, stepDuration } : Simulation n) vehicles
  refine ⟨rfl, rfl, rfl, rfl, rfl, rfl, ?_⟩
  -- nobody is plugged in yet, so the vehicles that are distinct are those of the line
  show Exchanged offer plugs _ (withLine fleet stepDuration vehicles _).chargers _
  rw [withLine, hchargers]
  refine .bank before after hsame ?_
  rw [hidle, hqueue]
  exact hdistinct

/-- Whatever the first simulation does successfully, the second one does as well, with frames that
tell the same, and the same vehicles wait and have the same energy afterwards. -/
structure MatchedBy (s s' : Simulation n) : Prop where
  steps : ∀ frames t, Steps s frames t → ∃ frames' t', Steps s' frames' t' ∧
    List.Forall₂ Frame.Alike frames frames' ∧ t'.queue = t.queue ∧ t'.registry = t.registry ∧
    t'.fleet = t.fleet ∧ t'.isDone = t.isDone
  run : ∀ frames, s.run.result = .ok frames → ∃ frames', s'.run.result = .ok frames' ∧
    List.Forall₂ Frame.Alike frames frames' ∧ s'.run.simulation.fleet = s.run.simulation.fleet

theorem Lockstep.matchedBy {offer : Power} {plugs : ℕ} {s s' : Simulation n}
    (h : Lockstep offer plugs s s') (hplugs : 1 ≤ plugs) : s.MatchedBy s' where
  steps frames t hsteps := by
    obtain ⟨frames', t', hsteps', halike, hend⟩ := h.steps hplugs hsteps
    exact ⟨frames', t', hsteps', halike, hend.queue_eq, hend.registry_eq, hend.fleet_eq,
      hend.isDone_eq⟩
  run frames hrun := by
    obtain ⟨frames', hrun', halike, hend⟩ := h.run hplugs hrun
    exact ⟨frames', hrun', halike, hend.fleet_eq⟩

/-- **A split charger is as good as exclusive chargers.**  Between any other chargers, a split
charger can be replaced with as many exclusive chargers as it has plugs, each with its part of the
grid connection, and the other way round: with distinct vehicles in the line, the two simulations
make the same successful steps, frame by frame with the same entries and the same watts altogether,
and after each of them the same vehicles wait, all have the same energy, and both are done or
neither is. -/
theorem split_interchangeable (grid : Power) {plugs : ℤ} (hplugs : 1 ≤ plugs)
    (before after : List (Charger n)) (fleet : Fleet n) (stepDuration : StepDuration)
    {vehicles : List (Fin n)} (hdistinct : vehicles.Nodup) :
    let split := withLine fleet stepDuration vehicles
      (before ++ [.idle ⟨grid, .split plugs⟩] ++ after)
    let parts := withLine fleet stepDuration vehicles
      (before ++ exclusiveParts grid plugs ++ after)
    split.MatchedBy parts ∧ parts.MatchedBy split := by
  have hlockstep : Lockstep _ _ (withLine fleet stepDuration vehicles _)
      (withLine fleet stepDuration vehicles _) :=
    lockstep_withLine (sameBank_split grid hplugs) rfl hdistinct before after
  have hpos : 1 ≤ plugs.toNat := by omega
  exact ⟨hlockstep.matchedBy hpos, hlockstep.symm.matchedBy hpos⟩

/-- Two sample vehicles at a split charger of 11 kW, before which there is a granular charger that
serves one of them: the run ends, and so does the run with two exclusive chargers of 5.5 kW, with
frames that tell the same. -/
theorem sampleSplit_interchangeable :
    ∃ frames frames', (withLine samplePair.fleet halfHour [0, 1]
        [.idle ⟨⟨9000⟩, .granular 1 5 11⟩, .idle ⟨⟨11000⟩, .split 2⟩]).run.result = .ok frames ∧
      (withLine samplePair.fleet halfHour [0, 1]
        [.idle ⟨⟨9000⟩, .granular 1 5 11⟩, .idle ⟨⟨5500⟩, .exclusive⟩,
          .idle ⟨⟨5500⟩, .exclusive⟩]).run.result = .ok frames' ∧
      frames.length = 2 ∧ List.Forall₂ Frame.Alike frames frames' := by
  have htwo : (1 : ℤ) ≤ 2 := by decide
  have hdistinct : ([0, 1] : List (Fin 2)).Nodup := by decide
  have hmatched := (split_interchangeable ⟨11000⟩ htwo [.idle ⟨⟨9000⟩, .granular 1 5 11⟩] []
    samplePair.fleet halfHour hdistinct).1
  have hlength : (withLine samplePair.fleet halfHour [0, 1]
      [.idle ⟨⟨9000⟩, .granular 1 5 11⟩, .idle ⟨⟨11000⟩, .split 2⟩]).run.result.map List.length =
        .ok 2 := by
    decide +kernel
  cases hrun : (withLine samplePair.fleet halfHour [0, 1]
      [.idle ⟨⟨9000⟩, .granular 1 5 11⟩, .idle ⟨⟨11000⟩, .split 2⟩]).run.result with
  | error e => rw [hrun] at hlength; cases hlength
  | ok frames =>
    rw [hrun] at hlength
    obtain ⟨frames', hrun', halike, -⟩ := hmatched.run frames hrun
    exact ⟨frames, frames', rfl, hrun', Except.ok.inj hlength, halike⟩

end Simulation

end ChargingSite
