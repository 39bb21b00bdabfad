import ChargingSite.Proofs.Simulation.Ceiling
import ChargingSite.Proofs.Simulation.FrameStream
import ChargingSite.Proofs.Simulation.LifeCycle
import ChargingSite.Proofs.Simulation.NeverBack

/-!
# Loads in the frames of a history

A frame shows every charger with a power that is not negative and, if the installation can serve a
plug within its grid connection (`Installation.Serves`), with no more than that (`Evolves.bears`).
It lists no more vehicles than have joined the line, nor more than there are plugs
(`Evolves.length_vehicles_le`).
-/

namespace ChargingSite

variable {n : ℕ}

/-- Power is handed out in whole steps. -/
def Strategy.IsGranular : Strategy → Prop
  | .granular .. => True
  | .exclusive | .paired _ | .split _ | .custom .. => False

theorem Strategy.IsFlat.not_isGranular {s : Strategy} (h : s.IsFlat) : ¬s.IsGranular := by
  cases s with
  | granular => exact absurd h id
  | exclusive | paired | split | custom => exact id

theorem Strategy.IsGranular.exists_eq {s : Strategy} (h : s.IsGranular) :
    ∃ plugs stepKw capKw, s = .granular plugs stepKw capKw := by
  cases s with
  | granular plugs stepKw capKw => exact ⟨plugs, stepKw, capKw, rfl⟩
  | exclusive | paired | split | custom => cases h

/-! ### Grid connections -/

/-- A sound granular charger does not overdraw its grid connection. -/
theorem Charger.IsSound.allocated_le {c : Charger n} (hc : c.IsSound)
    (hgranular : c.strategy.IsGranular) : c.allocated.watts ≤ c.grid.watts := by
  obtain ⟨plugs, stepKw, capKw, hstrategy⟩ := hgranular.exists_eq
  have haccepted := hc.accepted
  rw [hstrategy] at haccepted
  obtain ⟨-, step, hstep, hs, -⟩ := create?_granular_eq_ok_iff.mp haccepted
  have hinUse := (hc.orderly plugs stepKw capKw step hstrategy hstep).inUse_le
  calc c.allocated.watts
      ≤ stepsInUse step c.occupants * step.watts := allocated_le_stepsInUse hs c
    _ ≤ c.grid.watts / step.watts * step.watts := mul_le_mul_of_nonneg_right hinUse hs.le
    _ ≤ c.grid.watts := Int.ediv_mul_le _ hs.ne'

/-- An installation that can be run: it was accepted, has plugs and has a rule for sharing. -/
structure Installation.IsUsable (i : Installation) : Prop where
  accepted : create? i.grid i.strategy = .ok i
  plugs_pos : 1 ≤ i.strategy.plugs
  shares : i.strategy.IsFlat ∨ i.strategy.IsGranular

/-- A plug can have the least charge power without overdrawing the grid connection: power is handed
out in whole steps, or the shares are large enough. -/
def Installation.Serves (i : Installation) : Prop :=
  i.strategy.IsGranular ∨ minimumCharge.watts ≤ i.share

/-- A grid connection that serves a plug has the least charge power itself. -/
theorem Installation.IsUsable.minimumCharge_le_grid {i : Installation} (hi : i.IsUsable)
    (hserves : i.Serves) : minimumCharge.watts ≤ i.grid.watts := by
  have hmin : minimumCharge.watts = 5000 := rfl
  rcases hserves with hgranular | hshare
  · -- a granular budget is accepted only with room for a first grant
    obtain ⟨plugs, stepKw, capKw, hstrategy⟩ := hgranular.exists_eq
    have haccepted := hi.accepted
    rw [hstrategy] at haccepted
    obtain ⟨-, step, -, hs, hbudget⟩ := create?_granular_eq_ok_iff.mp haccepted
    calc minimumCharge.watts ≤ firstSteps step * step.watts := (stepsFor_le_iff hs).mp le_rfl
      _ ≤ i.grid.watts / step.watts * step.watts := mul_le_mul_of_nonneg_right hbudget hs.le
      _ ≤ i.grid.watts := Int.ediv_mul_le _ hs.ne'
  · -- a share of at least that is a part of the grid
    have hplugs := hi.plugs_pos
    calc minimumCharge.watts ≤ i.share := hshare
      _ = 1 * i.share := (one_mul _).symm
      _ ≤ i.strategy.plugs * i.share := mul_le_mul_of_nonneg_right hplugs (by omega)
      _ ≤ i.grid.watts := plugs_mul_share_le hplugs (by omega)

/-- What a frame shows of the power at an installation. -/
structure Installation.Bears (i : Installation) (shown : ChargerFrame) : Prop where
  nonneg : 0 ≤ shown.activeWatts
  le_grid : i.Serves → shown.activeWatts ≤ i.grid.watts

/-- What a frame shows of a sound charger whose occupants have been granted their power. -/
theorem Charger.IsSound.bears {c : Charger n} (hc : c.IsSound) (hgranted : c.IsGranted)
    (hshares : c.strategy.IsFlat ∨ c.strategy.IsGranular)
    (hwithin : c.strategy.IsFlat → WithinShares c) (position : ℕ) : c.Bears (c.frame position) where
  nonneg := by
    show 0 ≤ c.allocated.watts
    rw [Charger.watts_allocated]
    exact List.sum_nonneg (List.forall_mem_map.mpr hgranted.nonneg)
  le_grid := by
    intro hserves
    show c.allocated.watts ≤ c.grid.watts
    rcases hshares with hflat | hgranular
    · -- a flat charger exceeds its grid only when its share is too small
      have hshare := hserves.resolve_left hflat.not_isGranular
      have hceiling := (hwithin hflat).keepsCeiling hc.plugs_pos
      by_contra hover
      exact absurd (hceiling.share_lt (not_le.mp hover)) (not_lt.mpr hshare)
    · -- a granular charger keeps its budget
      exact hc.allocated_le hgranular

namespace Simulation

variable {fleet : Fleet n} {installations : List Installation} {stepDuration : StepDuration}
  {frames : List Frame} {t : Simulation n}

/-- Usable installations have sound chargers throughout a history. -/
theorem Evolves.isSound (h : Evolves (create fleet installations stepDuration) frames t)
    (husable : ∀ i ∈ installations, i.IsUsable) {c : Charger n} (hc : c ∈ t.chargers) :
    c.IsSound := by
  have hall := h.chargers_invariant (P := fun c => c.IsUsable → c.IsSound) ?idle ?occupy ?reallocate
  case idle =>
    intro i hi
    exact Charger.isSound_idle hi.accepted hi.plugs_pos
  case occupy =>
    intro c vehicle id _ hsound hi
    exact ⟨hi.accepted, hi.plugs_pos, fun plugs stepKw capKw step hstrategy hstep =>
      ((hsound hi).orderly plugs stepKw capKw step hstrategy hstep).occupy vehicle id⟩
  case reallocate =>
    intro c fleet vs hvs hsound hi
    exact ((hsound hi).reallocatesTo ⟨vs, hvs, rfl⟩).1
  obtain ⟨i, hi, rfl, hsound⟩ := exists_left_of_forall₂ hall hc
  exact hsound (husable _ hi)

/-- **Loads in a frame** of a history: at a usable installation the power is not negative, and
within the grid connection if that serves a plug. -/
theorem Evolves.bears (h : Evolves (create fleet installations stepDuration) frames t)
    (husable : ∀ i ∈ installations, i.IsUsable) {frame : Frame} (hframe : frame ∈ frames) :
    List.Forall₂ Installation.Bears installations frame.chargers := by
  obtain ⟨before, u, hu, hstep⟩ := h.exists_step hframe
  obtain ⟨filled, delivered, hstepped⟩ := stepped_of_step hstep
  have hafter := hu.step hstep
  have hwithin := (List.forall₂_and_left _ _).mpr ⟨husable, hafter.withinShares⟩
  have hshown := (List.forall₂_and_left _ _).mpr
    ⟨fun c hc => And.intro (hafter.isSound husable hc) (hafter.isGranted c hc),
      hstepped.chargers_shown⟩
  refine forall₂_trans hwithin hshown ?_
  rintro i c shown ⟨hi, rfl, hc⟩ ⟨⟨hsound, hgranted⟩, position, rfl⟩
  exact hsound.bears hgranted hi.shares (fun hflat => hc hflat hi.plugs_pos) position

end Simulation

/-! ### Vehicles in a frame -/

/-- No more are plugged in than have been let in. -/
theorem LinedUp.length_entries_le {registry : List (Fin n)} {queue : List (Ticket n)}
    {cs : List (Charger n)} {k : ℕ} (h : LinedUp registry queue cs k) :
    (entries cs).length ≤ registry.length := by
  have hsubset : (entries cs).map Prod.fst ⊆ (List.range k).map (Nat.cast : ℕ → ℤ) := by
    intro id hid
    obtain ⟨e, he, rfl⟩ := List.mem_map.mp hid
    obtain ⟨handle, hlt, hid, -⟩ := h.admitted e he
    exact List.mem_map.mpr ⟨handle, List.mem_range.mpr hlt, hid.symm⟩
  have hle := (h.nodup.subperm hsubset).length_le
  rw [List.length_map, List.length_map, List.length_range] at hle
  exact hle.trans h.le_next

/-- Whoever is plugged in has a plug. -/
theorem length_entries_le_sum {cs : List (Charger n)}
    (h : ∀ c ∈ cs, (c.occupants.length : ℤ) ≤ c.strategy.plugs) :
    ((entries cs).length : ℤ) ≤ (cs.map fun c => c.strategy.plugs).sum := by
  induction cs with
  | nil => simp [entries]
  | cons c cs ih =>
    obtain ⟨hc, hcs⟩ := List.forall_mem_cons.mp h
    rw [entries_cons, List.length_append, List.length_map, List.map_cons, List.sum_cons]
    push_cast
    exact add_le_add hc (ih hcs)

namespace Simulation

variable {fleet : Fleet n} {installations : List Installation} {stepDuration : StepDuration}
  {frames : List Frame} {t : Simulation n}

/-- **The vehicles in a frame** of a history are no more than have joined the line, and no more than
there are plugs. -/
theorem Evolves.length_vehicles_le (h : Evolves (create fleet installations stepDuration) frames t)
    (husable : ∀ i ∈ installations, i.IsUsable) {frame : Frame} (hframe : frame ∈ frames) :
    frame.vehicles.length ≤ t.registry.length ∧
      (frame.vehicles.length : ℤ) ≤ (installations.map fun i => i.strategy.plugs).sum := by
  induction h with
  | start => cases hframe
  | @join frames t _ vehicle ih =>
    obtain ⟨hregistry, hplugs⟩ := ih hframe
    refine ⟨hregistry.trans ?_, hplugs⟩
    rw [registry_enqueue, List.length_append]
    exact Nat.le_add_right _ _
  | @step frames last t h hstep ih =>
    obtain ⟨filled, delivered, hstepped⟩ := stepped_of_step hstep
    rcases List.mem_append.mp hframe with hold | hnew
    · -- an earlier frame, while the registry has not changed
      rw [hstepped.registry_eq]
      exact ih hold
    · -- the frame of this step lists those who are plugged in now
      obtain rfl := List.mem_singleton.mp hnew
      obtain ⟨k, hlined⟩ := (h.step hstep).exists_linedUp (.idle installations)
      have hlength : frame.vehicles.length = (entries t.step.simulation.chargers).length := by
        rw [← List.length_map VehicleFrame.vehicle, hstepped.vehicles_eq, plugged, List.length_map]
      rw [hlength]
      refine ⟨hlined.length_entries_le, ?_⟩
      have hplaces := (h.step hstep).installations_eq
      rw [← hplaces, List.map_map]
      refine length_entries_le_sum fun c hc => ?_
      have hi : c.toInstallation ∈ installations := hplaces ▸ List.mem_map_of_mem hc
      have hplugs := (husable _ hi).plugs_pos
      have hle := hlined.length_le c hc
      omega

end Simulation

end ChargingSite
