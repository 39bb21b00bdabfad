import ChargingSite.Proofs.Charger.FlatStation
import ChargingSite.Proofs.Simulation.Bank
import ChargingSite.Proofs.Simulation.History
import ChargingSite.Proofs.Simulation.Sound

/-!
# Simulations in lockstep

Two simulations that differ in that one has one bank where the other has another with the same
occupants are in lockstep (`Lockstep`).  Each phase of a step keeps the banks exchanged
(`Exchanged.filled`, `Exchanged.reallocated`, `Exchanged.charged`), so a step of the one succeeds
exactly if a step of the other does, both leave frames that tell the same of every vehicle
(`Frame.Alike`), and the simulations are in lockstep afterwards (`Lockstep.step`).  The same goes
for any number of steps (`Lockstep.steps`) and for whole runs (`Lockstep.run`).
-/

namespace ChargingSite

variable {n : ℕ} {offer : Power} {plugs : ℕ} {fleet fleet' : Fleet n} {d : Duration}

/-! ### One bank for another -/

/-- Chargers that differ in that the ones have a bank where the others have another one with the
same occupants, none of whose vehicles is there twice or waits as well. -/
inductive Exchanged (offer : Power) (plugs : ℕ) (queue : List (Ticket n)) :
    List (Charger n) → List (Charger n) → Prop
  /-- Both have the same chargers before and after the bank. -/
  | bank (before after : List (Charger n)) {as bs : List (Charger n)}
      (same : SameBank offer plugs as bs)
      (distinct : ((as.flatMap Charger.occupants).map Occupant.vehicle ++
        queue.map Ticket.vehicle).Nodup) :
      Exchanged offer plugs queue (before ++ as ++ after) (before ++ bs ++ after)

namespace Exchanged

variable {cs cs' ds : List (Charger n)} {queue rest : List (Ticket n)}

theorem symm (h : Exchanged offer plugs queue cs ds) : Exchanged offer plugs queue ds cs := by
  cases h with
  | bank before after same distinct =>
    refine .bank before after same.symm ?_
    exact ((same.perm.map _).append_right _).nodup_iff.mp distinct

theorem perm (h : Exchanged offer plugs queue cs ds) :
    (cs.flatMap Charger.occupants).Perm (ds.flatMap Charger.occupants) := by
  cases h with
  | bank before after same =>
    simp only [List.flatMap_append]
    exact (same.perm.append_left _).append_right _

theorem ne_nil (h : Exchanged offer plugs queue cs ds) (hplugs : 1 ≤ plugs) : cs ≠ [] := by
  cases h with
  | bank before after same =>
    intro hnil
    have hbank := (List.append_eq_nil_iff.mp (List.append_eq_nil_iff.mp hnil).1).2
    exact same.left.ne_nil hplugs hbank

/-- **Admission** keeps the chargers exchanged. -/
theorem filled (h : Exchanged offer plugs queue cs ds) (hfilled : Filled cs queue cs' rest) :
    ∃ ds', Filled ds queue ds' rest ∧ Exchanged offer plugs rest cs' ds' := by
  cases h with
  | @bank before after as bs same distinct =>
    obtain ⟨_, after', left, rfl, hfirst, hafter⟩ := hfilled.exists_append
    obtain ⟨before', as', between, rfl, hbefore, hbank⟩ := hfirst.exists_append
    obtain ⟨bs', hbank', same'⟩ := same.filled hbank
    refine ⟨before' ++ bs' ++ after', (hbefore.append hbank').append hafter,
      .bank before' after' same' ?_⟩
    -- who is plugged in at the bank or waits was so before
    obtain ⟨admitted, rfl, hperm⟩ := hbank.perm
    have hline : (admitted ++ left).map Ticket.vehicle |>.Sublist (queue.map Ticket.vehicle) :=
      hbefore.sublist.map _
    have hdistinct := distinct.sublist (hline.append_left _)
    rw [List.map_append, ← List.append_assoc] at hdistinct
    have hplugged := hperm.map Occupant.vehicle
    rw [List.map_append, List.map_map] at hplugged
    have hwaits := (hplugged.append_right (left.map Ticket.vehicle)).nodup_iff.mpr hdistinct
    exact hwaits.sublist ((hafter.sublist.map _).append_left _)

/-- **Re-allocation** keeps the chargers exchanged. -/
theorem reallocated (h : Exchanged offer plugs queue cs ds)
    (hreallocated : List.Forall₂ (Charger.ReallocatesTo fleet) cs cs') :
    ∃ ds', List.Forall₂ (Charger.ReallocatesTo fleet) ds ds' ∧
      Exchanged offer plugs queue cs' ds' := by
  cases h with
  | @bank before after as bs same distinct =>
    obtain ⟨_, after', rfl, hfirst, hafter⟩ := exists_append_of_forall₂ hreallocated
    obtain ⟨before', as', rfl, hbefore, hbank⟩ := exists_append_of_forall₂ hfirst
    obtain ⟨bs', hbank', same'⟩ := same.reallocated hbank
    refine ⟨before' ++ bs' ++ after', List.rel_append (List.rel_append hbefore hbank') hafter,
      .bank before' after' same' ?_⟩
    have hkept := (sublist_entries hbank).map Prod.snd
    rw [entries, entries, List.map_map, List.map_map] at hkept
    exact distinct.sublist (hkept.append_right _)

/-- **Charging** does the same to the vehicles. -/
theorem charged (h : Exchanged offer plugs queue cs ds)
    (hcharged : Charged d (cs.flatMap Charger.occupants) fleet fleet') :
    Charged d (ds.flatMap Charger.occupants) fleet fleet' := by
  cases h with
  | bank before after same distinct =>
    simp only [List.flatMap_append, charged_append_iff] at hcharged ⊢
    obtain ⟨between, ⟨first, hbefore, hbank⟩, hafter⟩ := hcharged
    exact ⟨between, ⟨first, hbefore, hbank.perm same.perm distinct.of_append_left⟩, hafter⟩

end Exchanged

/-! ### Frames that tell the same -/

/-- Two frames of the same step and time that list the same vehicles with the same watts and states
of charge, and show the same watts granted by all chargers together. -/
structure Frame.Alike (f g : Frame) : Prop where
  step_eq : f.step = g.step
  elapsed_eq : f.elapsedSeconds = g.elapsedSeconds
  vehicles_perm : f.vehicles.Perm g.vehicles
  activeWatts_eq : (f.chargers.map ChargerFrame.activeWatts).sum =
    (g.chargers.map ChargerFrame.activeWatts).sum

theorem sum_allocated (cs : List (Charger n)) :
    (cs.map fun c => c.allocated.watts).sum =
      ((cs.flatMap Charger.occupants).map fun o => o.allocated.watts).sum := by
  induction cs with
  | nil => rfl
  | cons c cs ih =>
    rw [List.map_cons, List.sum_cons, ih, Charger.watts_allocated, List.flatMap_cons,
      List.map_append, List.sum_append]

namespace Simulation

theorem Stepped.sum_activeWatts {s t : Simulation n} {filled : List (Charger n)}
    {delivered : Energy} {frame : Frame} (h : s.Stepped filled delivered frame t) :
    (frame.chargers.map ChargerFrame.activeWatts).sum =
      ((t.chargers.flatMap Charger.occupants).map fun o => o.allocated.watts).sum := by
  rw [h.activeWatts_eq, sum_allocated]

/-! ### Lockstep -/

/-- The same simulation but for a bank in place of another. -/
structure Lockstep (offer : Power) (plugs : ℕ) (s s' : Simulation n) : Prop where
  fleet_eq : s'.fleet = s.fleet
  queue_eq : s'.queue = s.queue
  registry_eq : s'.registry = s.registry
  stepDuration_eq : s'.stepDuration = s.stepDuration
  elapsed_eq : s'.elapsed = s.elapsed
  steps_eq : s'.steps = s.steps
  exchanged : Exchanged offer plugs s.queue s.chargers s'.chargers

namespace Lockstep

variable {s s' t : Simulation n}

theorem symm (h : Lockstep offer plugs s s') : Lockstep offer plugs s' s where
  fleet_eq := h.fleet_eq.symm
  queue_eq := h.queue_eq.symm
  registry_eq := h.registry_eq.symm
  stepDuration_eq := h.stepDuration_eq.symm
  elapsed_eq := h.elapsed_eq.symm
  steps_eq := h.steps_eq.symm
  exchanged := by
    rw [h.queue_eq]
    exact h.exchanged.symm

theorem isValid_eq (h : Lockstep offer plugs s s') (hplugs : 1 ≤ plugs) :
    s'.isValid = s.isValid := by
  have hne := h.exchanged.ne_nil hplugs
  have hne' := h.exchanged.symm.ne_nil hplugs
  simp only [isValid, h.registry_eq, List.isEmpty_eq_false_iff.mpr hne,
    List.isEmpty_eq_false_iff.mpr hne']

theorem isDone_eq (h : Lockstep offer plugs s s') : s'.isDone = s.isDone := by
  rw [Bool.eq_iff_iff, isDone_iff, isDone_iff, h.queue_eq, ← List.flatMap_eq_nil_iff,
    ← List.flatMap_eq_nil_iff]
  exact and_congr_right fun _ => ⟨fun hnil => (hnil ▸ h.exchanged.perm).eq_nil,
    fun hnil => (hnil ▸ h.exchanged.perm.symm).eq_nil⟩

/-- **A successful step** of one simulation is matched by one of the other. -/
theorem stepped {filled : List (Charger n)} {delivered : Energy} {frame : Frame}
    (h : Lockstep offer plugs s s') (hplugs : 1 ≤ plugs)
    (hstepped : s.Stepped filled delivered frame t) :
    ∃ filled' delivered' frame' t', s'.Stepped filled' delivered' frame' t' ∧
      frame.Alike frame' ∧ Lockstep offer plugs t t' := by
  obtain ⟨filled', hfilled', hexchanged⟩ := h.exchanged.filled hstepped.admission
  obtain ⟨chargers', hchargers', hexchanged'⟩ := hexchanged.reallocated hstepped.reallocation
  obtain ⟨delivered', hdelivered'⟩ :=
    (hexchanged'.charged hstepped.charged).exists_chargeAll_eq .zero
  -- the frame lists the same entries in the order of the other chargers
  obtain ⟨vehicles', hlisted', hperm⟩ :=
    List.perm_comp_forall₂ hexchanged'.perm.symm hstepped.frames_occupants
  let t' : Simulation n := { t with
    chargers := chargers', dispensed := s'.dispensed + delivered' }
  let frame' : Frame := {
    step := t'.steps
    dispensedWh := delivered'.wattHours
    chargers := chargers'.mapIdx fun i c => c.frame i
    vehicles := vehicles'
    elapsedSeconds := t'.elapsed.seconds }
  have hstepped' : s'.Stepped filled' delivered' frame' t' := {
    valid := by rw [h.isValid_eq hplugs, hstepped.valid]
    admission := by
      rw [h.queue_eq]
      exact hfilled'
    reallocation := by
      rw [h.fleet_eq]
      exact hchargers'
    charging := by
      rw [h.fleet_eq, h.stepDuration_eq]
      exact hdelivered'
    clock := by
      rw [h.elapsed_eq, h.stepDuration_eq]
      exact hstepped.clock
    stepDuration_eq := hstepped.stepDuration_eq.trans h.stepDuration_eq.symm
    registry_eq := hstepped.registry_eq.trans h.registry_eq.symm
    dispensed_eq := rfl
    steps_eq := by
      rw [h.steps_eq]
      exact hstepped.steps_eq
    frame_eq := frame?_eq_ok_iff.mpr ⟨hlisted', rfl⟩ }
  refine ⟨filled', delivered', frame', t', hstepped', ?_,
    ⟨rfl, rfl, rfl, rfl, rfl, rfl, hexchanged'⟩⟩
  obtain ⟨hcount, helapsed, -⟩ := hstepped.frame_totals
  refine ⟨hcount, helapsed, hperm.symm, ?_⟩
  rw [hstepped.sum_activeWatts, hstepped'.sum_activeWatts]
  exact (hexchanged'.perm.map _).sum_eq

/-- **Steps in lockstep.** -/
theorem step {frame : Frame} (h : Lockstep offer plugs s s') (hplugs : 1 ≤ plugs)
    (hstep : s.step.result = .ok frame) :
    ∃ frame', s'.step.result = .ok frame' ∧ frame.Alike frame' ∧
      Lockstep offer plugs s.step.simulation s'.step.simulation := by
  obtain ⟨filled, delivered, hstepped⟩ := stepped_of_step hstep
  obtain ⟨filled', delivered', frame', t', hstepped', halike, hlockstep⟩ :=
    h.stepped hplugs hstepped
  obtain ⟨hresult, rfl⟩ := hstepped'.step_eq
  exact ⟨frame', hresult, halike, hlockstep⟩

/-- **Many steps in lockstep.** -/
theorem steps {frames : List Frame} (h : Lockstep offer plugs s s') (hplugs : 1 ≤ plugs)
    (hsteps : Steps s frames t) :
    ∃ frames' t', Steps s' frames' t' ∧ List.Forall₂ Frame.Alike frames frames' ∧
      Lockstep offer plugs t t' := by
  induction hsteps generalizing s' with
  | done => exact ⟨[], s', .done s', .nil, h⟩
  | next head _ ih =>
    obtain ⟨frame', hstep', halike, hlockstep⟩ := h.step hplugs head
    obtain ⟨frames', t', hsteps', halikes, hend⟩ := ih hlockstep
    exact ⟨frame' :: frames', t', .next hstep' hsteps', .cons halike halikes, hend⟩

theorem advance {limit : ℕ} {frames frames' made : Array Frame} {events later : Array Event}
    (h : Lockstep offer plugs s s') (hplugs : 1 ≤ plugs)
    (halike : List.Forall₂ Frame.Alike frames.toList frames'.toList)
    (hmade : advance limit s frames events = (t, .ok made, later)) (events' : Array Event) :
    ∃ t' made' later', Simulation.advance limit s' frames' events' = (t', .ok made', later') ∧
      List.Forall₂ Frame.Alike made.toList made'.toList ∧ Lockstep offer plugs t t' := by
  induction limit generalizing s s' frames frames' events events' with
  | zero =>
    cases hmade
    exact ⟨s', frames', events', rfl, halike, h⟩
  | succ limit ih =>
    rw [Simulation.advance] at hmade ⊢
    rw [h.isDone_eq]
    by_cases hdone : s.isDone = true
    · rw [if_pos hdone] at hmade ⊢
      cases hmade
      exact ⟨s', frames', events', rfl, halike, h⟩
    · rw [if_neg hdone] at hmade ⊢
      cases hstep : s.step.result with
      | error e => simp [hstep] at hmade
      | ok frame =>
        simp only [hstep] at hmade
        -- the other simulation makes the step as well, to a frame alike
        obtain ⟨frame', hstep', hframe, hlockstep⟩ := h.step hplugs hstep
        simp only [hstep']
        refine ih hlockstep ?_ hmade _
        rw [Array.toList_push, Array.toList_push]
        exact List.rel_append halike (.cons hframe .nil)

/-- **Runs in lockstep.** -/
theorem run {frames : List Frame} (h : Lockstep offer plugs s s') (hplugs : 1 ≤ plugs)
    (hrun : s.run.result = .ok frames) :
    ∃ frames', s'.run.result = .ok frames' ∧ List.Forall₂ Frame.Alike frames frames' ∧
      Lockstep offer plugs s.run.simulation s'.run.simulation := by
  have hvalid' := h.isValid_eq hplugs
  cases hvalid : s.isValid with
  -- without vehicles or chargers both runs end at once
  | false =>
    rw [hvalid] at hvalid'
    obtain ⟨hsame, hnone⟩ := run_of_not_isValid hvalid
    obtain ⟨hsame', hnone'⟩ := run_of_not_isValid hvalid'
    rw [hnone] at hrun
    cases hrun
    rw [hsame, hsame']
    exact ⟨[], hnone', .nil, h⟩
  | true =>
    rw [hvalid] at hvalid'
    obtain ⟨hsimulation, hresult⟩ := run_eq_advance hvalid
    obtain ⟨hsimulation', hresult'⟩ := run_eq_advance hvalid'
    -- the limit is one of the clock, which both share
    have hlimit : s'.stepLimit = s.stepLimit := by
      rw [stepLimit, stepLimit, h.elapsed_eq, h.stepDuration_eq]
    rw [hresult] at hrun
    rw [hsimulation, hsimulation', hresult', hlimit]
    cases hmade : Simulation.advance s.stepLimit s #[] #[] with
    | mk t made =>
    obtain ⟨result, events⟩ := made
    rw [hmade] at hrun
    cases result with
    | error e => cases hrun
    | ok made =>
      cases hrun
      have hnone : List.Forall₂ Frame.Alike (#[] : Array Frame).toList (#[] : Array Frame).toList :=
        .nil
      obtain ⟨t', made', later', hmade', halike, hend⟩ := h.advance hplugs hnone hmade #[]
      rw [hmade']
      exact ⟨made'.toList, rfl, halike, hend⟩

end Lockstep

end Simulation

end ChargingSite
