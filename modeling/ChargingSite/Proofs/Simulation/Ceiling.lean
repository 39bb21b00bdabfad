import ChargingSite.Proofs.Charger.FlatStation
import ChargingSite.Proofs.Simulation.History

/-!
# The grid ceiling

A flat charger may grant more than its grid connection has only because no plug is granted less than
the least charge power.  So a frame shows negative unused watts only at chargers whose plugs have a
share below that power (`flat_keepsCeiling`): neither vehicles that arrive between two
re-allocations nor the doubled share of a paired charger overdraw the grid connection.
-/

namespace ChargingSite

variable {n : ℕ}

/-- What a frame shows of the charger at an installation, if it is a flat one with plugs. -/
def Installation.Shows (i : Installation) (shown : ChargerFrame) : Prop :=
  i.strategy.IsFlat → 1 ≤ i.strategy.plugs →
    i.KeepsCeiling shown.activeWatts ∧ (shown.unusedWatts < 0 → i.share < minimumCharge.watts)

theorem WithinShares.shows_frame {c : Charger n} (hc : WithinShares c)
    (hplugs : 1 ≤ c.strategy.plugs) (position : ℕ) :
    c.KeepsCeiling (c.frame position).activeWatts ∧
      ((c.frame position).unusedWatts < 0 → c.share < minimumCharge.watts) := by
  have hceiling := hc.keepsCeiling hplugs
  refine ⟨hceiling, fun hnegative => hceiling.share_lt ?_⟩
  exact sub_neg.mp hnegative

namespace Simulation

variable {fleet : Fleet n} {installations : List Installation} {stepDuration : StepDuration}
  {frames : List Frame} {s : Simulation n}

/-- The allocations of flat chargers are paid for by their shares throughout a history. -/
theorem Evolves.withinShares (h : Evolves (create fleet installations stepDuration) frames s) :
    List.Forall₂ (fun i c => c.toInstallation = i ∧
      (i.strategy.IsFlat → 1 ≤ i.strategy.plugs → WithinShares c)) installations s.chargers := by
  refine (h.chargers_invariant
    (P := fun c => c.strategy.IsFlat → 1 ≤ c.strategy.plugs → WithinShares c) ?idle ?occupy
    ?reallocate).imp ?_
  case idle =>
    intro i _ hplugs
    exact withinShares_idle hplugs
  case occupy =>
    intro c vehicle id hfree hc hflat hplugs
    exact (hc hflat hplugs).occupy hfree vehicle id
  case reallocate =>
    intro c fleet vs hvs hc hflat hplugs
    exact (hc hflat hplugs).reallocated hflat hvs
  -- the condition is on the installation, which a charger keeps
  rintro i c ⟨rfl, hc⟩
  exact ⟨rfl, hc⟩

theorem Evolves.shows (h : Evolves (create fleet installations stepDuration) frames s)
    {frame : Frame} (hframe : frame ∈ frames) :
    List.Forall₂ Installation.Shows installations frame.chargers := by
  obtain ⟨before, u, hu, hstep⟩ := h.exists_step hframe
  obtain ⟨filled, delivered, hstepped⟩ := stepped_of_step hstep
  refine forall₂_trans (hu.step hstep).withinShares hstepped.chargers_shown ?_
  rintro i c shown ⟨rfl, hc⟩ ⟨position, rfl⟩ hflat hplugs
  exact (hc hflat hplugs).shows_frame hplugs position

end Simulation

/-! ### The ceiling -/

/-- **The grid ceiling of the flat strategies.**  What a flat charger with plugs grants is, after
any successful calls, within its grid connection or within the least charge power of all its plugs,
and overdraws the grid connection only where the share of a plug is less than the least charge
power.  The same holds of what every frame of a simulation shows of such a charger, whose unused
watts are negative only for that reason. -/
theorem flat_keepsCeiling :
    (∀ (i : Installation) (calls : List (Call n)) (t : Station n), i.strategy.IsFlat →
      1 ≤ i.strategy.plugs → Served i calls t →
      t.charger.allocated.watts ≤ max i.grid.watts (i.strategy.plugs * 5000) ∧
      (i.grid.watts < t.charger.allocated.watts → i.grid.watts.tdiv i.strategy.plugs < 5000)) ∧
    ∀ (fleet : Fleet n) (installations : List Installation) (stepDuration : StepDuration)
      (frames : List Frame) (s : Simulation n),
      Simulation.Evolves (.create fleet installations stepDuration) frames s →
      ∀ frame ∈ frames, List.Forall₂ Installation.Shows installations frame.chargers := by
  constructor
  · -- one charger, after any calls
    intro i calls t hflat hplugs h
    obtain ⟨rfl, ht⟩ := h.withinShares hflat hplugs
    obtain ⟨hle, hshare⟩ := ht.keepsCeiling hplugs
    exact ⟨hle, hshare⟩
  · -- any number of chargers, at any step of a simulation
    intro fleet installations stepDuration frames s h frame hframe
    exact h.shows hframe

/-- A paired charger whose shares are 4.5 kW. -/
def sampleShares : Installation :=
  ⟨⟨9000⟩, .paired 2⟩

/-- Two sample vehicles in the line of the paired charger. -/
def Simulation.sampleFloor : Simulation 2 :=
  (create samplePair.fleet [sampleShares] halfHour).enqueueAll (List.finRange 2)

/-- Two sample vehicles at a paired charger: it grants 10 kW, more than it has, and the first frame
of a simulation shows so. -/
theorem samplePair_keepsCeiling :
    (∃ t : Station 2, Served sampleShares [.plugIn 0 0, .plugIn 1 1, .reallocate] t ∧
      t.charger.allocated.watts = 10000 ∧ (9000 : ℤ).tdiv 2 < 5000) ∧
    ∃ frame, Simulation.sampleFloor.step.result = .ok frame ∧
      frame.chargers = [⟨0, 10000, -1000⟩] ∧
      List.Forall₂ Installation.Shows [sampleShares] frame.chargers := by
  constructor
  · have hserved : Served sampleShares [.plugIn 0 0, .plugIn 1 1, .reallocate]
        ({ fleet := samplePair.fleet
           charger := {
            toInstallation := sampleShares
            occupants := [⟨0, 0, ⟨5000⟩⟩, ⟨1, 1, ⟨5000⟩⟩] } } : Station 2) :=
      (((Served.idle samplePair.fleet).call (.plugIn 0 0) rfl).call (.plugIn 1 1) rfl).call
        .reallocate (by decide +kernel)
    have hceiling := flat_keepsCeiling.1 _ _ _ (by decide) (by decide) hserved
    exact ⟨_, hserved, rfl, hceiling.2 (by decide)⟩
  · have hshown : Simulation.sampleFloor.step.result.map Frame.chargers =
        .ok [⟨0, 10000, -1000⟩] := by decide +kernel
    cases hstep : Simulation.sampleFloor.step.result with
    | error e => rw [hstep] at hshown; cases hshown
    | ok frame =>
      rw [hstep] at hshown
      have hjoined : Simulation.Evolves
          (.create samplePair.fleet [sampleShares] Simulation.halfHour) []
          Simulation.sampleFloor :=
        (Simulation.Evolves.start.join 0).join 1
      exact ⟨frame, rfl, Except.ok.inj hshown,
        flat_keepsCeiling.2 _ _ _ _ _ (hjoined.step hstep) frame List.mem_cons_self⟩

end ChargingSite
