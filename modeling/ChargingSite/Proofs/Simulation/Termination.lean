import ChargingSite.Proofs.Simulation.Sound

/-!
# Every run ends

A sound simulation cannot make successful steps for ever (`Sound.exists_end`).  What runs out is the
potential: the doubles that the energies of the vehicles have yet to pass, twice the length of the
line, and the number of occupied plugs.  A step that ends with somebody plugged in raises an energy,
because somebody is powered then; any other step empties a plug or shortens the line
(`Stepped.potential_lt`).  The bound does not depend on the clock.

For simulations made of accepted chargers and fillable vehicles this says that after so many steps
either the simulation is done or a step fails, and that a run that returns has served everybody
(`run_ends`).
-/

namespace ChargingSite

variable {n : ℕ}

/-! ### The potential -/

/-- The doubles between the energy stored and the energy that the vehicle comes for. -/
noncomputable def Vehicle.distance (v : Vehicle) : ℕ :=
  Binary64.between v.energy.wattHours v.unplugAt.wattHours

/-- The number of occupied plugs. -/
def occupied (cs : List (Charger n)) : ℕ :=
  (cs.map fun c => c.occupants.length).sum

@[simp] theorem occupied_nil : occupied ([] : List (Charger n)) = 0 := rfl

@[simp] theorem occupied_cons (c : Charger n) (cs : List (Charger n)) :
    occupied (c :: cs) = c.occupants.length + occupied cs := by
  rw [occupied, List.map_cons, List.sum_cons, occupied]

theorem occupied_eq_zero {cs : List (Charger n)} (h : ∀ c ∈ cs, c.occupants = []) :
    occupied cs = 0 := by
  rw [occupied]
  refine List.sum_eq_zero fun k hk => ?_
  obtain ⟨c, hc, rfl⟩ := List.mem_map.mp hk
  exact congrArg List.length (h c hc)

theorem length_le_occupied {cs : List (Charger n)} {c : Charger n} (hc : c ∈ cs) :
    c.occupants.length ≤ occupied cs :=
  List.single_le_sum (fun _ _ => Nat.zero_le _) _ (List.mem_map_of_mem hc)

/-- Admission moves from the line to the plugs. -/
theorem Filled.length_add_occupied {cs cs' : List (Charger n)} {queue rest : List (Ticket n)}
    (h : Filled cs queue cs' rest) :
    rest.length + occupied cs' = queue.length + occupied cs := by
  obtain ⟨admitted, rfl, hperm⟩ := h.perm
  have hlength := hperm.length_eq
  rw [List.length_append, List.length_map, List.length_flatMap, List.length_flatMap] at hlength
  rw [List.length_append, occupied, hlength, occupied]
  omega

theorem occupied_le_of_reallocatesTo {fleet : Fleet n} {cs cs' : List (Charger n)}
    (h : List.Forall₂ (Charger.ReallocatesTo fleet) cs cs') : occupied cs' ≤ occupied cs := by
  induction h with
  | nil => exact le_rfl
  | cons head _ ih =>
    obtain ⟨vs, hvs, rfl⟩ := head
    rw [occupied_cons, occupied_cons]
    exact add_le_add (length_staying_le hvs.forall₂) ih

namespace Simulation

/-- What is left to be done before everybody has been served. -/
noncomputable def potential (s : Simulation n) : ℕ :=
  (s.registry.map fun v => (s.fleet.get v).distance).sum + 2 * s.queue.length + occupied s.chargers

theorem length_add_occupied_pos {s : Simulation n} (h : s.isDone = false) :
    0 < s.queue.length + occupied s.chargers := by
  by_contra hzero
  have hqueue : s.queue = [] := List.length_eq_zero_iff.mp (by omega)
  have hidle : ∀ c ∈ s.chargers, c.occupants = [] := by
    intro c hc
    have hle := length_le_occupied hc
    exact List.length_eq_zero_iff.mp (by omega)
  rw [isDone_iff.mpr ⟨hqueue, hidle⟩] at h
  cases h

namespace Stepped

variable {s t : Simulation n} {filled : List (Charger n)} {delivered : Energy} {frame : Frame}

theorem distance_le (h : s.Stepped filled delivered frame t) (hs : s.Sound) (v : Fin n) :
    (t.fleet.get v).distance ≤ (s.fleet.get v).distance := by
  have hrises := h.risesTo hs v
  unfold Vehicle.distance
  rw [hrises.unplugAt_eq]
  exact Binary64.between_mono fun z hz => hrises.le_of_le (x := ⟨z⟩) hz

/-- **Somebody gets nearer**: if anybody is plugged in after a step, the distance of a vehicle has
become less. -/
theorem exists_distance_lt (h : s.Stepped filled delivered frame t) (hs : s.Sound)
    {c : Charger n} (hc : c ∈ t.chargers) (hne : c.occupants ≠ []) :
    ∃ v ∈ s.registry, (t.fleet.get v).distance < (s.fleet.get v).distance := by
  obtain ⟨c₀, hc₀, hrealloc⟩ := exists_left_of_forall₂ h.reallocation hc
  obtain ⟨o, ho, hpowered⟩ :=
    ((h.isSound_filled hs hc₀).1.reallocatesTo hrealloc).2.resolve_left hne
  obtain ⟨hjoined, hunfinished, soc, hsoc⟩ := h.plugged hs hc ho
  have hnumber := Binary64.ne_nan_of_isFinite (hs.fillable o.vehicle hjoined).unplugAt_isFinite
  have hbelow := Vehicle.lt_unplugAt hnumber hsoc hunfinished
  have hmem : o ∈ t.chargers.flatMap Charger.occupants := List.mem_flatMap.mpr ⟨c, hc, ho⟩
  have hlt := h.charged.lt s.stepDuration.positive.le (h.fillable hs) hmem hpowered hbelow
  refine ⟨o.vehicle, hjoined, ?_⟩
  unfold Vehicle.distance
  rw [(h.risesTo hs o.vehicle).unplugAt_eq]
  exact Binary64.between_lt_between hlt hbelow

theorem sum_distance_le (h : s.Stepped filled delivered frame t) (hs : s.Sound) :
    (s.registry.map fun v => (t.fleet.get v).distance).sum ≤
      (s.registry.map fun v => (s.fleet.get v).distance).sum :=
  List.sum_le_sum fun v _ => h.distance_le hs v

theorem occupied_filled_pos (h : s.Stepped filled delivered frame t) (hs : s.Sound)
    (hfull : ∀ c ∈ filled, c.hasFreePlug = false) : 0 < occupied filled := by
  have hlength := h.admission.length_eq
  have hpos := List.length_pos_iff.mpr hs.chargers_ne_nil
  obtain ⟨c, hc⟩ := List.exists_mem_of_length_pos (hlength ▸ hpos)
  have hplugs := (h.isSound_filled hs hc).1.plugs_pos
  have hoccupied := hfull c hc
  rw [Charger.hasFreePlug, decide_eq_false_iff_not, not_lt] at hoccupied
  have hle := length_le_occupied hc
  omega

/-- **Every step uses up some of the potential** while the simulation is not done. -/
theorem potential_lt (h : s.Stepped filled delivered frame t) (hs : s.Sound)
    (hdone : s.isDone = false) : t.potential < s.potential := by
  have hadmission := h.admission.length_add_occupied
  have hkept := occupied_le_of_reallocatesTo h.reallocation
  have hline := h.admission.sublist.length_le
  have hsum := h.sum_distance_le hs
  unfold potential
  rw [h.registry_eq]
  by_cases hidle : ∀ c ∈ t.chargers, c.occupants = []
  · -- nobody is left on a plug, so somebody left one or the line has become shorter
    have hempty := occupied_eq_zero hidle
    rcases h.admission.full with hrest | hfull
    · have hsomebody := length_add_occupied_pos hdone
      rw [hrest, List.length_nil] at hadmission ⊢
      omega
    · have hfilled := h.occupied_filled_pos hs hfull
      omega
  · -- somebody is left on a plug, and somebody has been charged
    push Not at hidle
    obtain ⟨c, hc, hne⟩ := hidle
    have hlt : (s.registry.map fun v => (t.fleet.get v).distance).sum <
        (s.registry.map fun v => (s.fleet.get v).distance).sum :=
      List.sum_lt_sum _ _ (fun v _ => h.distance_le hs v) (h.exists_distance_lt hs hc hne)
    omega

end Stepped

/-! ### The end of a run -/

/-- **A sound simulation comes to an end** within its potential: it is done, or a step fails. -/
theorem Sound.exists_end {s : Simulation n} (hs : s.Sound) :
    ∃ frames t, Steps s frames t ∧ frames.length ≤ s.potential ∧
      (t.isDone = true ∨ ∃ e, t.step.result = .error e) := by
  -- the potential falls by at least one a step, so the steps left are counted by what remains of it
  induction hpotential : s.potential using Nat.strong_induction_on generalizing s with
  | _ k ih =>
    cases hdone : s.isDone with
    | true => exact ⟨[], s, .done s, Nat.zero_le _, .inl hdone⟩
    | false =>
      cases hstep : s.step.result with
      | error e => exact ⟨[], s, .done s, Nat.zero_le _, .inr ⟨e, hstep⟩⟩
      | ok frame =>
        obtain ⟨filled, delivered, hstepped⟩ := stepped_of_step hstep
        have hlt := hstepped.potential_lt hs hdone
        obtain ⟨frames, t, hsteps, hlength, hend⟩ :=
          ih _ (hpotential ▸ hlt) (hstepped.sound hs) rfl
        refine ⟨frame :: frames, t, .next hstep hsteps, ?_, hend⟩
        rw [List.length_cons]
        omega

theorem potential_enqueueAll (fleet : Fleet n) (installations : List Installation)
    (stepDuration : StepDuration) (vehicles : List (Fin n)) :
    ((create fleet installations stepDuration).enqueueAll vehicles).potential =
      (vehicles.map fun v => (fleet.get v).distance).sum + 2 * vehicles.length := by
  obtain ⟨hregistry, hqueue, hfleet, hchargers, -⟩ :=
    enqueueAll_spec (create fleet installations stepDuration) vehicles
  have hlength := congrArg List.length hqueue
  rw [List.length_map] at hlength
  have hidle : occupied (create fleet installations stepDuration).chargers = 0 := by
    refine occupied_eq_zero fun c hc => ?_
    obtain ⟨i, -, rfl⟩ := List.mem_map.mp hc
    rfl
  unfold potential
  rw [hregistry, hfleet, hchargers, hlength, hidle, add_zero]
  simp [create]

/-- **Every run ends.**  Take any simulation on accepted chargers with plugs, in whose line vehicles
with finite thresholds wait, such that the energy of the least charge power over a step adds to
every energy that such a vehicle can have below its threshold.  Then it cannot make successful steps
for ever: after no more steps than the vehicles have doubles to pass, and two for each vehicle, it
is done or a step fails.  If a run returns, nobody waits, nobody is plugged in, and every vehicle
that joined the line has what it came for. -/
theorem run_ends {fleet : Fleet n} {installations : List Installation}
    {stepDuration : StepDuration} {vehicles : List (Fin n)} (hne : installations ≠ [])
    (haccepted : ∀ i ∈ installations,
      Installation.create? i.grid i.strategy = .ok i ∧ 1 ≤ i.strategy.plugs)
    (hfinite : ∀ v ∈ vehicles, (fleet.get v).unplugAt.wattHours.isFinite = true)
    (hadds : ∀ v ∈ vehicles, ∀ least x : Energy,
      minimumCharge.over? stepDuration.toDuration = .ok least → (fleet.get v).energy.le x = true →
        x.lt (fleet.get v).unplugAt = true → x.lt (x + least) = true) :
    let s := (create fleet installations stepDuration).enqueueAll vehicles
    (∃ frames t, Steps s frames t ∧
      frames.length ≤ (vehicles.map fun v => Binary64.between (fleet.get v).energy.wattHours
        (fleet.get v).unplugAt.wattHours).sum + 2 * vehicles.length ∧
      (t.isDone = true ∨ ∃ e, t.step.result = .error e)) ∧
    ∀ frames, s.run.result = .ok frames →
      s.run.simulation.queue = [] ∧ (∀ c ∈ s.run.simulation.chargers, c.occupants = []) ∧
      ∀ v ∈ vehicles, (s.run.simulation.fleet.get v).unplugAt.le
        (s.run.simulation.fleet.get v).energy = true := by
  intro s
  have hs : s.Sound :=
    sound_enqueueAll hne haccepted fun v hv => ⟨hfinite v hv, hadds v hv⟩
  constructor
  · -- every step lowers the potential, so there is a last one
    obtain ⟨frames, t, hsteps, hlength, hend⟩ := hs.exists_end
    rw [potential_enqueueAll] at hlength
    exact ⟨frames, t, hsteps, hlength, hend⟩
  · -- the step limit has not cut the run short, so its end is a real one
    intro frames hrun
    obtain ⟨hsound, hdone, hregistry⟩ := hs.run_eq_ok hrun
    have hjoined : s.registry = vehicles := (enqueueAll_spec _ vehicles).1
    obtain ⟨hqueue, hidle⟩ := isDone_iff.mp hdone
    refine ⟨hqueue, hidle, fun v hv => hsound.isFinished hdone ?_⟩
    rw [hregistry, hjoined]
    exact hv

/-- Two sample vehicles in the line of a granular charger with one step of 5 kW, hour by hour. -/
def sampleLine : Simulation 2 :=
  (create samplePair.fleet [⟨⟨9000⟩, .granular 2 5 11⟩]
    ⟨⟨3600000000, by decide⟩, by decide⟩).enqueueAll (List.finRange 2)

/-- An hour of the least charge power adds to every energy between 20 kWh and 21 kWh. -/
theorem sample_lt_add {least x : Energy}
    (hleast : minimumCharge.over? sampleLine.stepDuration.toDuration = .ok least)
    (hlow : Vehicle.sample.energy.le x = true) (hhigh : x.lt Vehicle.sample.unplugAt = true) :
    x.lt (x + least) = true := by
  have h5000 : minimumCharge.over? sampleLine.stepDuration.toDuration = .ok ⟨5000⟩ := by
    decide +kernel
  rw [h5000] at hleast
  cases hleast
  obtain ⟨h20, h20'⟩ := Binary64.toRat_ofInt_natCast (n := 20000) (by norm_num)
  obtain ⟨h21, h21'⟩ := Binary64.toRat_ofInt_natCast (n := 21000) (by norm_num)
  obtain ⟨h5, h5'⟩ := Binary64.toRat_ofInt_natCast (n := 5000) (by norm_num)
  obtain ⟨hx, hxlow, hxhigh⟩ := Binary64.isFinite_of_le_of_lt h20 h21 hlow hhigh
  rw [h20'] at hxlow
  rw [h21'] at hxhigh
  refine Binary64.lt_add_of_lt_natCast hx h5 (m := 21000) (by norm_num) hxhigh ?_
  rw [show (5000 : Binary64).toRat = _ from h5']
  push_cast at hxlow ⊢
  linarith

/-- One of the two sample vehicles charges while the other waits, and in the end both are served. -/
theorem run_ends_sampleLine :
    (∃ frames t, Steps sampleLine frames t ∧ (t.isDone = true ∨ ∃ e, t.step.result = .error e)) ∧
    ∃ frames, sampleLine.run.result = .ok frames ∧ sampleLine.run.simulation.queue = [] := by
  have haccepted : ∀ i ∈ [(⟨⟨9000⟩, .granular 2 5 11⟩ : Installation)],
      Installation.create? i.grid i.strategy = .ok i ∧ 1 ≤ i.strategy.plugs := by
    decide +kernel
  have hsample : ∀ v : Fin 2, (samplePair.fleet.get v) = .sample := by
    decide +kernel
  have hfinite : ∀ v ∈ List.finRange 2,
      (samplePair.fleet.get v).unplugAt.wattHours.isFinite = true := by
    decide +kernel
  have hadds : ∀ v ∈ List.finRange 2, ∀ least x : Energy,
      minimumCharge.over? sampleLine.stepDuration.toDuration = .ok least →
        (samplePair.fleet.get v).energy.le x = true →
        x.lt (samplePair.fleet.get v).unplugAt = true →
        x.lt (x + least) = true := by
    intro v _ least x hleast hlow hhigh
    rw [hsample] at hlow hhigh
    exact sample_lt_add hleast hlow hhigh
  obtain ⟨⟨frames, t, hsteps, -, hend⟩, hrun⟩ :=
    run_ends (List.cons_ne_nil _ _) haccepted hfinite hadds
  have hreturns : sampleLine.run.result.toBool = true := by decide +kernel
  refine ⟨⟨frames, t, hsteps, hend⟩, ?_⟩
  cases hresult : sampleLine.run.result with
  | error e => rw [hresult] at hreturns; cases hreturns
  | ok frames => exact ⟨frames, rfl, (hrun frames hresult).1⟩

end Simulation

end ChargingSite
