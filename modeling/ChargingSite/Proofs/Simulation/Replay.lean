import ChargingSite.Proofs.Simulation.LifeCycle

/-!
# Replaying frames

The frames of a history tell all that happened to the energy.  Whoever starts from the energy of a
vehicle before the history and adds, frame by frame, what the frame grants to its handle, held for
the duration of a step, ends with the energy that the vehicle has (`Evolves.replay`): the same sums
of doubles in the same order, so the result is the same to the bit.  A vehicle that a frame does not
list is as it was before the step (`Stepped.get_eq`), the energy that a frame shows is what its
entries add up to, charger by charger (`Stepped.exists_groups`), and these energies add up to all
that was delivered (`Evolves.dispensed_eq`).  The main result is `replay_exact`.
-/

namespace ChargingSite

variable {n : ℕ}

/-! ### Replaying -/

/-- The powers that a frame grants to a handle. -/
def Frame.granted (frame : Frame) (handle : ℕ) : List Power :=
  (frame.vehicles.filter fun entry => entry.vehicle = (handle : ℤ)).map fun entry =>
    ⟨entry.allocatedWatts⟩

/-- The energy after the steps of the given duration that the frames show, for the vehicle with the
given handle. -/
def replay? (d : Duration) (handle : ℕ) (start : Energy) (frames : List Frame) :
    Except NumberError Energy :=
  frames.foldlM (fun energy frame => energy.charged? d (frame.granted handle)) start

theorem replay?_concat_eq_ok_iff {d : Duration} {handle : ℕ} {start last : Energy}
    {frames : List Frame} {frame : Frame} :
    replay? d handle start (frames ++ [frame]) = .ok last ↔
      ∃ energy, replay? d handle start frames = .ok energy ∧
        energy.charged? d (frame.granted handle) = .ok last := by
  unfold replay?
  rw [List.foldlM_append, bind_eq_ok_iff]
  simp only [List.foldlM_cons, List.foldlM_nil, bind_pure]

/-- The energy that frames show altogether, added to what was there. -/
def sumDispensed (start : Energy) (frames : List Frame) : Energy :=
  frames.foldl (fun sum frame => sum + ⟨frame.dispensedWh⟩) start

theorem Frame.granted_eq (frame : Frame) (handle : ℕ) :
    frame.granted handle =
      ((frame.vehicles.map VehicleFrame.grant).filter fun g => g.1 = (handle : ℤ)).map
        Prod.snd := by
  rw [List.filter_map, List.map_map]
  rfl

/-! ### Handles and vehicles -/

/-- The handle and the vehicle belong together: neither of them goes with another in the
registry. -/
def IsHandleOf (registry : List (Fin n)) (handle : ℕ) (v : Fin n) : Prop :=
  ∀ (handle' : ℕ) (v' : Fin n), registry[handle']? = some v' → (handle' = handle ↔ v' = v)

theorem isHandleOf_of_nodup {registry : List (Fin n)} (hdistinct : registry.Nodup) {handle : ℕ}
    {v : Fin n} (hv : registry[handle]? = some v) : IsHandleOf registry handle v := by
  intro handle' v' hv'
  constructor
  · -- one handle, one vehicle
    rintro rfl
    exact Option.some.inj (hv'.symm.trans hv)
  · -- two handles of one vehicle would be two places of it in the registry
    rintro rfl
    have hlt := (List.getElem?_eq_some_iff.mp hv').1
    exact (List.getElem?_inj hlt hdistinct).mp (hv'.trans hv.symm)

/-- Who belongs together has done so before others joined. -/
theorem IsHandleOf.of_append {registry later : List (Fin n)} {handle : ℕ} {v : Fin n}
    (h : IsHandleOf (registry ++ later) handle v) : IsHandleOf registry handle v := by
  intro handle' v' hv'
  refine h handle' v' ?_
  rwa [List.getElem?_append_left (List.getElem?_eq_some_iff.mp hv').1]

theorem LinedUp.id_eq_iff {registry : List (Fin n)} {queue : List (Ticket n)}
    {cs : List (Charger n)} {k handle : ℕ} {v : Fin n} (h : LinedUp registry queue cs k)
    (hv : IsHandleOf registry handle v) {o : Occupant n} (ho : o ∈ cs.flatMap Charger.occupants) :
    o.id = handle ↔ o.vehicle = v := by
  obtain ⟨handle', -, hid, hregistered⟩ := h.admitted o.entry (List.mem_map_of_mem ho)
  rw [← hv handle' o.vehicle hregistered, show o.id = handle' from hid, Nat.cast_inj]

namespace Simulation

/-! ### One step -/

namespace Stepped

variable {s t : Simulation n} {filled : List (Charger n)} {delivered : Energy} {frame : Frame}

theorem granted_eq {k handle : ℕ} {v : Fin n} (h : s.Stepped filled delivered frame t)
    (ht : LinedUp t.registry t.queue t.chargers k) (hv : IsHandleOf t.registry handle v) :
    frame.granted handle =
      ((t.chargers.flatMap Charger.occupants).filter fun o => o.vehicle = v).map
        Occupant.allocated := by
  rw [Frame.granted_eq, grants_eq_of_frames h.frames_occupants, List.filter_map, List.map_map]
  show List.map Occupant.allocated _ = _
  congr 1
  refine List.filter_congr fun o ho => ?_
  exact decide_eq_decide.mpr (ht.id_eq_iff hv ho)

/-- **What a vehicle gains in a step** is what the frame grants to its handle, held for the duration
of the step. -/
theorem charged?_granted {k handle : ℕ} {v : Fin n} (h : s.Stepped filled delivered frame t)
    (ht : LinedUp t.registry t.queue t.chargers k) (hv : IsHandleOf t.registry handle v) :
    (s.fleet.get v).energy.charged? s.stepDuration.toDuration (frame.granted handle) =
      .ok (t.fleet.get v).energy := by
  rw [h.granted_eq ht hv]
  exact h.charged.energy_eq v

/-- **A vehicle that the frame does not list** is as it was. -/
theorem get_eq {k : ℕ} {v : Fin n} (h : s.Stepped filled delivered frame t)
    (ht : LinedUp t.registry t.queue t.chargers k)
    (hv : ∀ handle : ℕ, t.registry[handle]? = some v →
      (handle : ℤ) ∉ frame.vehicles.map VehicleFrame.vehicle) :
    t.fleet.get v = s.fleet.get v := by
  refine h.charged.get_eq_of_forall_ne ?_
  rintro o ho rfl
  have hentry := List.mem_map_of_mem (f := Occupant.entry) ho
  obtain ⟨handle, -, hid, hregistered⟩ := ht.admitted o.entry hentry
  refine hv handle hregistered ?_
  rw [h.vehicles_eq, ← hid]
  exact List.mem_map_of_mem hentry

theorem model_eq (h : s.Stepped filled delivered frame t) (v : Fin n) :
    (t.fleet.get v).model = (s.fleet.get v).model := by
  rw [h.charged.get_eq v]

theorem dispensedWh_eq (h : s.Stepped filled delivered frame t) :
    Energy.mk frame.dispensedWh = delivered := by
  rw [h.frame_totals.2.2]

end Stepped

/-! ### The energy of a frame -/

/-- **The energy that a frame shows** is what its entries add up to, charger by charger. -/
theorem Stepped.exists_groups {s t : Simulation n} {filled : List (Charger n)} {delivered : Energy}
    {frame : Frame} (h : s.Stepped filled delivered frame t) :
    ∃ groups : List (List VehicleFrame), groups.flatten = frame.vehicles ∧
      groups.map (·.map VehicleFrame.grant) =
        t.chargers.map (fun c => c.occupants.map Occupant.grant) ∧
      delivered? s.stepDuration.toDuration .zero
          (groups.map fun group => group.map fun entry => ⟨entry.allocatedWatts⟩) =
        .ok ⟨frame.dispensedWh⟩ := by
  obtain ⟨groups, hflatten, hgroups⟩ := exists_groups_of_forall₂ h.frames_occupants
  have hgrants : groups.map (·.map VehicleFrame.grant) =
      t.chargers.map fun c => c.occupants.map Occupant.grant :=
    (map_eq_map_of_forall₂ hgroups fun c group hgroup => (grants_eq_of_frames hgroup).symm).symm
  refine ⟨groups, hflatten, hgrants, ?_⟩
  have hpowers := congrArg (List.map (List.map Prod.snd)) hgrants
  simp only [List.map_map] at hpowers
  have hdelivered := (chargeAll_eq_ok_iff.mp h.charging).2
  rw [h.dispensedWh_eq, ← hdelivered]
  congr 1
  simpa [Function.comp_def, VehicleFrame.grant, Occupant.grant] using hpowers

/-! ### Histories -/

namespace Evolves

variable {s t : Simulation n} {frames : List Frame}

theorem stepDuration_eq (h : Evolves s frames t) : t.stepDuration = s.stepDuration := by
  refine h.invariant (P := fun u => u.stepDuration = s.stepDuration) rfl (fun _ _ hu => hu) ?_
  intro u filled delivered frame u' hstepped hu
  exact hstepped.stepDuration_eq.trans hu

theorem model_eq (h : Evolves s frames t) (v : Fin n) :
    (t.fleet.get v).model = (s.fleet.get v).model := by
  refine h.invariant (P := fun u => (u.fleet.get v).model = (s.fleet.get v).model) rfl
    (fun _ _ hu => hu) ?_
  intro u filled delivered frame u' hstepped hu
  exact (hstepped.model_eq v).trans hu

/-- **All energy delivered** is what the frames show altogether. -/
theorem dispensed_eq (h : Evolves s frames t) : t.dispensed = sumDispensed s.dispensed frames := by
  induction h with
  | start => rfl
  | join _ _ ih => exact ih
  | step _ hstep ih =>
    obtain ⟨filled, delivered, hstepped⟩ := stepped_of_step hstep
    rw [hstepped.dispensed_eq, ih, ← hstepped.dispensedWh_eq, sumDispensed, sumDispensed,
      List.foldl_concat]

/-- **Replaying the frames** of a history gives the energy that the vehicle has at its end. -/
theorem replay {k handle : ℕ} {v : Fin n} (h : Evolves s frames t)
    (hs : LinedUp s.registry s.queue s.chargers k) (hv : IsHandleOf t.registry handle v) :
    replay? s.stepDuration.toDuration handle (s.fleet.get v).energy frames =
      .ok (t.fleet.get v).energy := by
  induction h with
  | start => rfl
  | join _ vehicle ih => exact ih hv.of_append
  | @step frames frame t h hstep ih =>
    obtain ⟨k', hlinedUp⟩ := (h.step hstep).exists_linedUp hs
    obtain ⟨filled, delivered, hstepped⟩ := stepped_of_step hstep
    have hgain := hstepped.charged?_granted hlinedUp hv
    -- the vehicle has gained what this frame shows for its handle, and no more
    rw [h.stepDuration_eq] at hgain
    rw [hstepped.registry_eq] at hv
    exact replay?_concat_eq_ok_iff.mpr ⟨_, ih hv, hgain⟩

end Evolves

/-! ### Exact accounting -/

/-- **Replaying is exact.**  At every moment of a history of distinct vehicles from idle chargers,
replaying the frames from the first energy of a vehicle gives the energy that it has, and the
energies of the frames add up to all that was delivered.  The next step leaves a frame in which
every entry shows the state of charge that replaying gives, whose energy is what the entries of each
charger add up to, summed up in turn, and which does not list the vehicles that are as they were. -/
theorem replay_exact {fleet : Fleet n} {installations : List Installation}
    {stepDuration : StepDuration} {frames : List Frame} {s : Simulation n}
    (h : Evolves (create fleet installations stepDuration) frames s)
    (hdistinct : s.registry.Nodup) :
    (∀ (handle : ℕ) (v : Fin n), s.registry[handle]? = some v →
      replay? stepDuration.toDuration handle (fleet.get v).energy frames =
        .ok (s.fleet.get v).energy) ∧
    s.dispensed = sumDispensed .zero frames ∧
    ∀ frame, s.step.result = .ok frame →
      (∀ entry ∈ frame.vehicles, ∃ (handle : ℕ) (v : Fin n) (energy : Energy) (soc : Percentage),
        entry.vehicle = handle ∧ s.registry[handle]? = some v ∧
        replay? stepDuration.toDuration handle (fleet.get v).energy (frames ++ [frame]) =
          .ok energy ∧
        (fleet.get v).socOf? energy = .ok soc ∧ entry.stateOfCharge = soc.percent) ∧
      (∃ groups : List (List VehicleFrame), groups.flatten = frame.vehicles ∧
        groups.map (·.map VehicleFrame.grant) =
          s.step.simulation.chargers.map (fun c => c.occupants.map Occupant.grant) ∧
        delivered? stepDuration.toDuration .zero
            (groups.map fun group => group.map fun entry => ⟨entry.allocatedWatts⟩) =
          .ok ⟨frame.dispensedWh⟩) ∧
      ∀ v : Fin n, (∀ handle : ℕ, s.registry[handle]? = some v →
          (handle : ℤ) ∉ frame.vehicles.map VehicleFrame.vehicle) →
        s.step.simulation.fleet.get v = s.fleet.get v := by
  have hidle := LinedUp.idle (n := n) installations
  refine ⟨fun handle v hv => h.replay hidle (isHandleOf_of_nodup hdistinct hv), h.dispensed_eq,
    fun frame hstep => ?_⟩
  have hafter := h.step hstep
  obtain ⟨k, hlinedUp⟩ := hafter.exists_linedUp hidle
  obtain ⟨filled, delivered, hstepped⟩ := stepped_of_step hstep
  have hduration : s.stepDuration = stepDuration := h.stepDuration_eq
  refine ⟨fun entry hentry => ?_, ?_, fun v hv => ?_⟩
  · -- the entry is that of an occupant, whose vehicle has a handle
    obtain ⟨o, ho, hframe⟩ := exists_left_of_forall₂ hstepped.frames_occupants hentry
    obtain ⟨soc, hsoc, rfl⟩ := Occupant.frame?_eq_ok_iff.mp hframe
    obtain ⟨handle, -, hid, hregistered⟩ :=
      hlinedUp.admitted o.entry (List.mem_map_of_mem (f := Occupant.entry) ho)
    have hhandle : IsHandleOf s.step.simulation.registry handle o.vehicle := by
      rw [hstepped.registry_eq] at hregistered ⊢
      exact isHandleOf_of_nodup hdistinct hregistered
    refine ⟨handle, o.vehicle, _, soc, hid, hstepped.registry_eq ▸ hregistered,
      hafter.replay hidle hhandle, ?_, rfl⟩
    -- the battery is the same as at the start
    rw [← hsoc, Vehicle.soc?, Vehicle.socOf?, Vehicle.socOf?]
    rw [← show _ = (fleet.get o.vehicle).model from hafter.model_eq o.vehicle]
    rfl
  · rw [← hduration]
    exact hstepped.exists_groups
  · rw [← hstepped.registry_eq] at hv
    exact hstepped.get_eq hlinedUp hv

/-- Half an hour at a single plug gives the first of two sample vehicles 5.5 kWh, and two more steps
leave it as it is. -/
theorem sampleQueue_replay_exact :
    ∃ frames, Evolves (create samplePair.fleet [⟨⟨11000⟩, .exclusive⟩] halfHour) frames
        sampleQueue.step.simulation.step.simulation ∧
      replay? halfHour.toDuration 0 ⟨20000⟩ frames = .ok ⟨25500⟩ ∧
      sumDispensed .zero frames = ⟨5500⟩ ∧
      ∃ frame, sampleQueue.step.simulation.step.simulation.step.result = .ok frame ∧
        frame.vehicles.map VehicleFrame.vehicle = [1] ∧
        sampleQueue.step.simulation.step.simulation.step.simulation.fleet.get 0 =
          sampleQueue.step.simulation.step.simulation.fleet.get 0 := by
  obtain ⟨frames, h⟩ := evolves_sampleQueue
  set s := sampleQueue.step.simulation.step.simulation with hs
  have hregistry : s.registry = [0, 1] := by rw [hs]; decide +kernel
  have henergy : (s.fleet.get 0).energy = ⟨25500⟩ := by rw [hs]; decide +kernel
  have hdispensed : s.dispensed = ⟨5500⟩ := by rw [hs]; decide +kernel
  have hlisted : s.step.result.map (fun frame => frame.vehicles.map VehicleFrame.vehicle) =
      .ok [1] := by rw [hs]; decide +kernel
  have hdistinct : s.registry.Nodup := by rw [hregistry]; decide
  obtain ⟨hreplay, hsum, hnext⟩ := replay_exact h hdistinct
  refine ⟨frames, h, ?_, hsum ▸ hdispensed, ?_⟩
  · rw [← henergy]
    exact hreplay 0 0 (by rw [hregistry]; rfl)
  · cases hstep : s.step.result with
    | error e => rw [hstep] at hlisted; cases hlisted
    | ok frame =>
      rw [hstep] at hlisted
      have hone : frame.vehicles.map VehicleFrame.vehicle = [1] := Except.ok.inj hlisted
      refine ⟨frame, rfl, hone, (hnext frame hstep).2.2 0 fun handle hhandle => ?_⟩
      -- the first vehicle goes by the handle 0, and the frame lists 1 only
      have hzero : handle = 0 := by
        have hat : s.registry[0]? = some 0 := by rw [hregistry]; rfl
        have hlt : handle < s.registry.length := (List.getElem?_eq_some_iff.mp hhandle).1
        exact (List.getElem?_inj hlt hdistinct).mp (hhandle.trans hat.symm)
      rw [hone, hzero]
      decide

end Simulation

end ChargingSite
