import ChargingSite.Proofs.Charger.Grants
import ChargingSite.Proofs.Simulation.LifeCycle

/-!
# No way back

Along a history no vehicle loses energy: nobody is charged with a negative power
(`Evolves.isGranted`, `step_spares`), and adding what is not negative to a double never lowers it
(`Stepped.risesTo_of_hasEnergy`).  A frame shows states of charge that vehicles have at that moment
(`Shows`).  Since a vehicle only rises afterwards, and more energy is no lower a state of charge, no
later frame shows less under the same handle (`never_back`), even where two handles stand for one
vehicle.
-/

namespace ChargingSite

variable {n : ℕ}

/-! ### Grants along a history -/

theorem Filled.isGranted {cs cs' : List (Charger n)} {queue rest : List (Ticket n)}
    (h : Filled cs queue cs' rest) (hcs : ∀ c ∈ cs, c.IsGranted) : ∀ c' ∈ cs', c'.IsGranted := by
  intro c' hc'
  obtain ⟨c, hc, admitted, -, hplugged⟩ := exists_left_of_forall₂ h.forall₂ hc'
  refine (Charger.plugInAll?_invariant (P := Charger.IsGranted) ?_ hplugged (hcs c hc)).2
  intro c vehicle id _ hc
  exact hc.occupy vehicle id

theorem isGranted_of_reallocatesTo {fleet : Fleet n} {cs cs' : List (Charger n)}
    (h : List.Forall₂ (Charger.ReallocatesTo fleet) cs cs') (hcs : ∀ c ∈ cs, c.IsGranted) :
    ∀ c' ∈ cs', c'.IsGranted := by
  intro c' hc'
  obtain ⟨c, hc, vs, hvs, rfl⟩ := exists_left_of_forall₂ h hc'
  exact (hcs c hc).reallocated hvs

namespace Simulation

theorem serve_spares {s : Simulation n} (hs : ∀ c ∈ s.chargers, c.IsGranted) :
    Spares s.serve.result := by
  unfold serve
  cases hreallocated : reallocateAll s.fleet s.chargers with
  | mk chargers made =>
  obtain ⟨result, events⟩ := made
  cases result with
  -- a re-allocation charges nobody
  | error e => exact (reallocateAll_spares s.chargers).of_error (congrArg (·.2.1) hreallocated)
  | ok u =>
  -- whoever is charged has been granted something, or waits with no power
  have hgranted := isGranted_of_reallocatesTo (forall₂_of_reallocateAll hreallocated) hs
  have hspares := chargeAll_spares (d := s.stepDuration.toDuration) s.fleet .zero hgranted
  simp only
  cases hcharged : chargeAll s.stepDuration.toDuration chargers s.fleet .zero with
  | mk fleet result =>
  cases result with
  | error e => exact hspares.of_error (congrArg Prod.snd hcharged)
  | ok delivered =>
    simp only
    split
    · exact fun _ _ => nofun
    · exact spares_liftNumber _

/-- **No step is ended by a negative power.** -/
theorem step_spares {s : Simulation n} (hs : ∀ c ∈ s.chargers, c.IsGranted) :
    Spares s.step.result := by
  unfold step
  by_cases hvalid : s.isValid = true
  · rw [if_pos hvalid]
    exact serve_spares (s := s.fillPlugs.1) ((filled_fillAllPlugs s.chargers s.queue).isGranted hs)
  · rw [if_neg hvalid]
    exact fun _ _ => nofun

theorem Evolves.isGranted {fleet : Fleet n} {installations : List Installation}
    {stepDuration : StepDuration} {frames : List Frame} {t : Simulation n}
    (h : Evolves (create fleet installations stepDuration) frames t) :
    ∀ c ∈ t.chargers, c.IsGranted := by
  intro c hc
  have hall := h.chargers_invariant (P := Charger.IsGranted) Charger.IsGranted.idle
    (fun _ vehicle id _ hc => hc.occupy vehicle id) fun _ _ _ hvs hc => hc.reallocated hvs
  obtain ⟨i, -, -, hgranted⟩ := exists_left_of_forall₂ hall hc
  exact hgranted

end Simulation

/-! ### Energies along a history -/

/-- The stored energy is a number above the lower infinity. -/
def Vehicle.HasEnergy (v : Vehicle) : Prop :=
  (Binary64.infinity true).lt v.energy.wattHours = true

namespace Vehicle.HasEnergy

variable {v v' : Vehicle}

theorem of_isFinite (h : v.energy.wattHours.isFinite = true) : v.HasEnergy :=
  Binary64.lower_infinity_lt h

theorem ne_nan (h : v.HasEnergy) : v.energy.wattHours ≠ .nan :=
  (Binary64.ne_nan_of_lt h).2

theorem ne_lower (h : v.HasEnergy) : v.energy.wattHours ≠ .infinity true := by
  intro hlower
  unfold HasEnergy at h
  rw [hlower] at h
  exact absurd h (by decide)

theorem risesTo (h : v.HasEnergy) (hrises : v.RisesTo v') : v'.HasEnergy :=
  hrises.lt_of_lt_left (x := ⟨.infinity true⟩) h

theorem le (h : v.HasEnergy) (hrises : v.RisesTo v') : v.energy.le v'.energy = true := by
  rcases hrises.energy with heq | hle
  · rw [heq]
    exact Binary64.le_refl h.ne_nan
  · exact hle

end Vehicle.HasEnergy

namespace Simulation

/-- **A successful step lowers no energy**, if all vehicles have one. -/
theorem Stepped.risesTo_of_hasEnergy {s t : Simulation n} {filled : List (Charger n)}
    {delivered : Energy} {frame : Frame} (h : s.Stepped filled delivered frame t)
    (hs : ∀ w, (s.fleet.get w).HasEnergy) (w : Fin n) :
    (s.fleet.get w).RisesTo (t.fleet.get w) :=
  h.charged.risesTo_of_ne s.stepDuration.positive.le (fun o _ => (hs o.vehicle).ne_lower) w

/-- **Nobody loses energy** along a history. -/
theorem Evolves.risesTo {s t : Simulation n} {frames : List Frame} (h : Evolves s frames t)
    (hs : ∀ w, (s.fleet.get w).HasEnergy) (w : Fin n) :
    (s.fleet.get w).RisesTo (t.fleet.get w) := by
  refine h.invariant (P := fun u => ∀ w, (s.fleet.get w).RisesTo (u.fleet.get w))
    (fun w => .refl _) (fun u _ hu => hu) ?_ w
  intro u filled delivered frame u' hstepped hu w
  exact (hu w).trans (hstepped.risesTo_of_hasEnergy (fun w => (hs w).risesTo (hu w)) w)

/-! ### What frames show of a vehicle -/

/-- The entry shows the state of charge of the vehicle at `place`, which its number stands for, as
it is with the given energy. -/
def Shows (t : Simulation n) (place : Fin n) (stored : Energy) (entry : VehicleFrame) : Prop :=
  ∃ (handle : ℕ) (soc : Percentage), entry.vehicle = handle ∧ t.registry[handle]? = some place ∧
    (t.fleet.get place).socOf? stored = .ok soc ∧ entry.stateOfCharge = soc.percent

namespace Shows

variable {s t : Simulation n} {place place' : Fin n} {stored stored' : Energy}
  {entry entry' : VehicleFrame}

/-- The range of what is shown. -/
theorem between (h : t.Shows place stored entry) :
    Binary64.le 0 entry.stateOfCharge = true ∧ entry.stateOfCharge.le 100 = true := by
  obtain ⟨_, soc, -, -, -, hsoc⟩ := h
  rw [hsoc]
  exact soc.percent_between

theorem enqueue (h : t.Shows place stored entry) (vehicle : Fin n) :
    (t.enqueue vehicle).Shows place stored entry := by
  obtain ⟨handle, soc, hhandle, hplace, hsoc, hentry⟩ := h
  refine ⟨handle, soc, hhandle, ?_, hsoc, hentry⟩
  rw [registry_enqueue, List.getElem?_append_left (List.getElem?_eq_some_iff.mp hplace).1]
  exact hplace

theorem stepped {filled : List (Charger n)} {delivered : Energy} {frame : Frame}
    (h : s.Shows place stored entry) (hstepped : s.Stepped filled delivered frame t)
    (hrises : (s.fleet.get place).RisesTo (t.fleet.get place)) :
    t.Shows place stored entry := by
  obtain ⟨handle, soc, hhandle, hplace, hsoc, hentry⟩ := h
  refine ⟨handle, soc, hhandle, hstepped.registry_eq ▸ hplace, ?_, hentry⟩
  rw [Vehicle.socOf?_congr hrises.model_eq]
  exact hsoc

/-- **Under one number, more energy is no lower a state of charge.** -/
theorem le (h : t.Shows place stored entry) (h' : t.Shows place' stored' entry')
    (hsame : entry.vehicle = entry'.vehicle) :
    place = place' ∧ (stored.le stored' = true →
      entry.stateOfCharge.le entry'.stateOfCharge = true) := by
  obtain ⟨handle, soc, hhandle, hplace, hsoc, hentry⟩ := h
  obtain ⟨handle', soc', hhandle', hplace', hsoc', hentry'⟩ := h'
  obtain rfl : handle = handle' := by
    rw [hhandle, hhandle'] at hsame
    exact_mod_cast hsame
  obtain rfl : place = place' := Option.some.inj (hplace.symm.trans hplace')
  refine ⟨rfl, fun hle => ?_⟩
  rw [hentry, hentry']
  exact Percentage.percent_mono (Vehicle.socOf?_mono hle hsoc hsoc')

end Shows

/-- A frame shows the states of charge at the end of its step. -/
theorem Stepped.shows {s t : Simulation n} {filled : List (Charger n)} {delivered : Energy}
    {frame : Frame} {k : ℕ} (h : s.Stepped filled delivered frame t)
    (ht : LinedUp t.registry t.queue t.chargers k) {entry : VehicleFrame}
    (hentry : entry ∈ frame.vehicles) :
    ∃ place, t.Shows place (t.fleet.get place).energy entry := by
  obtain ⟨o, ho, hframe⟩ := exists_left_of_forall₂ h.frames_occupants hentry
  obtain ⟨soc, hsoc, rfl⟩ := Occupant.frame?_eq_ok_iff.mp hframe
  obtain ⟨handle, -, hid, hregistered⟩ := ht.admitted o.entry (List.mem_map_of_mem ho)
  exact ⟨o.vehicle, handle, soc, hid, hregistered, hsoc, rfl⟩

/-! ### No way back -/

section

variable {fleet : Fleet n} {installations : List Installation} {stepDuration : StepDuration}
  {frames : List Frame} {s : Simulation n}

theorem Evolves.hasEnergy (h : Evolves (create fleet installations stepDuration) frames s)
    (hfleet : ∀ w, (fleet.get w).HasEnergy) (w : Fin n) : (s.fleet.get w).HasEnergy :=
  (hfleet w).risesTo (h.risesTo hfleet w)

/-- Each frame shows what vehicles have reached, and later ones show no less. -/
theorem Evolves.frames_shown (h : Evolves (create fleet installations stepDuration) frames s)
    (hfleet : ∀ w, (fleet.get w).HasEnergy) :
    (∀ f ∈ frames, ∀ a ∈ f.vehicles, ∃ place stored, s.Shows place stored a ∧
      stored.le (s.fleet.get place).energy = true) ∧
    frames.Pairwise fun f g => ∀ a ∈ f.vehicles, ∀ b ∈ g.vehicles, a.vehicle = b.vehicle →
      a.stateOfCharge.le b.stateOfCharge = true := by
  induction h with
  | start => exact ⟨by simp, .nil⟩
  | join _ vehicle ih =>
    obtain ⟨hshown, hpairs⟩ := ih
    refine ⟨fun f hf a ha => ?_, hpairs⟩
    obtain ⟨place, stored, hshows, hle⟩ := hshown f hf a ha
    exact ⟨place, stored, hshows.enqueue vehicle, hle⟩
  | @step frames frame t h hstep ih =>
    obtain ⟨hshown, hpairs⟩ := ih
    obtain ⟨filled, delivered, hstepped⟩ := stepped_of_step hstep
    obtain ⟨k, hlined⟩ := (h.step hstep).exists_linedUp (LinedUp.idle installations)
    have hrises := hstepped.risesTo_of_hasEnergy (h.hasEnergy hfleet)
    -- what was shown before has been reached still, and the new frame shows what there is now
    have hold : ∀ f ∈ frames, ∀ a ∈ f.vehicles, ∃ place stored,
        t.step.simulation.Shows place stored a ∧
          stored.le (t.step.simulation.fleet.get place).energy = true := by
      intro f hf a ha
      obtain ⟨place, stored, hshows, hle⟩ := hshown f hf a ha
      exact ⟨place, stored, hshows.stepped hstepped (hrises place),
        Binary64.le_trans hle ((h.hasEnergy hfleet place).le (hrises place))⟩
    have hnew : ∀ b ∈ frame.vehicles, ∃ place,
        t.step.simulation.Shows place (t.step.simulation.fleet.get place).energy b :=
      fun b hb => hstepped.shows hlined hb
    refine ⟨fun f hf => ?_, List.pairwise_append.mpr ⟨hpairs, List.pairwise_singleton _ _, ?_⟩⟩
    · rcases List.mem_append.mp hf with hf | hf
      · exact hold f hf
      · obtain rfl := List.mem_singleton.mp hf
        intro b hb
        obtain ⟨place, hshows⟩ := hnew b hb
        exact ⟨place, _, hshows,
          Binary64.le_refl ((h.step hstep).hasEnergy hfleet place).ne_nan⟩
    · intro f hf g hg a ha b hb hsame
      obtain rfl := List.mem_singleton.mp hg
      obtain ⟨place, stored, hshows, hle⟩ := hold f hf a ha
      obtain ⟨place', hshows'⟩ := hnew b hb
      obtain ⟨rfl, hshown'⟩ := hshows.le hshows' hsame
      exact hshown' hle

/-- **Stored energy and shown states of charge never go back.**  Whatever the chargers, at every
moment of a history from idle chargers and finite energies: every occupant has no power or at least
the least charge power, so neither charging nor the next step fails because of a negative power; no
vehicle loses energy afterwards; and the frames until then show states of charge between 0 and 100
which do not fall from frame to frame under one number. -/
theorem never_back (h : Evolves (create fleet installations stepDuration) frames s)
    (hfleet : ∀ w, (fleet.get w).energy.wattHours.isFinite = true) :
    (∀ c ∈ s.chargers, ∀ o ∈ c.occupants,
      o.allocated.watts = 0 ∨ 5000 ≤ o.allocated.watts) ∧
    (∀ model kilowatts, (∀ c ∈ s.chargers, ∀ d,
        (c.charge s.fleet d).2 ≠ .error (.negativePower model kilowatts)) ∧
      s.step.result ≠ .error (.negativePower model kilowatts)) ∧
    (∀ later t, Evolves s later t → ∀ w,
      (s.fleet.get w).energy.le (t.fleet.get w).energy = true) ∧
    (frames.Pairwise fun f g => ∀ a ∈ f.vehicles, ∀ b ∈ g.vehicles, a.vehicle = b.vehicle →
      a.stateOfCharge.le b.stateOfCharge = true) ∧
    ∀ f ∈ frames, ∀ a ∈ f.vehicles,
      Binary64.le 0 a.stateOfCharge = true ∧ a.stateOfCharge.le 100 = true := by
  have henergy : ∀ w, (fleet.get w).HasEnergy := fun w => .of_isFinite (hfleet w)
  have hgranted := h.isGranted
  have hnow := h.hasEnergy henergy
  obtain ⟨hshown, hpairs⟩ := h.frames_shown henergy
  refine ⟨hgranted, fun model kilowatts => ⟨fun c hc d => ?_, ?_⟩, fun later t ht w => ?_, hpairs,
    fun f hf a ha => ?_⟩
  · -- charging fails only for a power below zero, and none is granted
    exact (hgranted c hc).charge_spares s.fleet d model kilowatts
  · -- nor does a step re-allocate to one
    exact step_spares hgranted model kilowatts
  · -- the energy of whoever has any only rises, whatever happens
    exact (hnow w).le (ht.risesTo hnow w)
  · -- what is shown is a percentage
    obtain ⟨place, stored, hshows, -⟩ := hshown f hf a ha
    exact hshows.between

end

/-! ### A vehicle on two plugs -/

/-- One sample vehicle, twice in the line of a charger with two plugs, in steps of a minute. -/
def sampleTwice : Simulation 1 :=
  (create #v[.sample] [⟨⟨11000⟩, .split 2⟩] ⟨⟨60000000, by decide⟩, by decide⟩).enqueueAll [0, 0]

/-- Two frames list the vehicle under both handles, and it does not fall under either of them. -/
theorem sampleTwice_never_back :
    ∃ first second,
      Evolves (create #v[.sample] [⟨⟨11000⟩, .split 2⟩] sampleTwice.stepDuration) [first, second]
        sampleTwice.step.simulation.step.simulation ∧
      first.vehicles.map VehicleFrame.vehicle = [0, 1] ∧
      second.vehicles.map VehicleFrame.vehicle = [0, 1] ∧
      ∀ a ∈ first.vehicles, ∀ b ∈ second.vehicles, a.vehicle = b.vehicle →
        a.stateOfCharge.le b.stateOfCharge = true := by
  have hjoined : Evolves (create #v[.sample] [⟨⟨11000⟩, .split 2⟩] sampleTwice.stepDuration) []
      sampleTwice :=
    (Evolves.start.join 0).join 0
  have hfirst : (sampleTwice.step.result.map fun f => f.vehicles.map VehicleFrame.vehicle) =
      .ok [0, 1] := by
    decide +kernel
  have hsecond : (sampleTwice.step.simulation.step.result.map
      fun f => f.vehicles.map VehicleFrame.vehicle) = .ok [0, 1] := by
    decide +kernel
  cases hstep : sampleTwice.step.result with
  | error e => rw [hstep] at hfirst; cases hfirst
  | ok first =>
    cases hstep' : sampleTwice.step.simulation.step.result with
    | error e => rw [hstep'] at hsecond; cases hsecond
    | ok second =>
      rw [hstep] at hfirst
      rw [hstep'] at hsecond
      have hevolves := (hjoined.step hstep).step hstep'
      obtain ⟨-, -, -, hpairs, -⟩ := never_back hevolves (by decide +kernel)
      exact ⟨first, second, hevolves, Except.ok.inj hfirst, Except.ok.inj hsecond,
        List.rel_of_pairwise_cons hpairs (List.mem_singleton_self second)⟩

end Simulation

end ChargingSite
