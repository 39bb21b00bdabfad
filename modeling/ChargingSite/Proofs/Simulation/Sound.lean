import ChargingSite.Proofs.Charger.GranularStation
import ChargingSite.Proofs.Simulation.Run

/-!
# Sound simulations

A charger is sound if it was accepted, has plugs, and is orderly as far as it is granular.  A sound
charger stays so, and after re-allocation one of its occupants is powered unless it is idle
(`Charger.IsSound.reallocatesTo`).  A simulation is sound if its chargers are, its vehicles are
fillable, and every vehicle that joined the line waits, or is plugged in, or has finished.  It is so
at the start (`sound_enqueueAll`), and every successful step preserves it (`Sound.step`).
-/

namespace ChargingSite

variable {n : ℕ}

/-! ### Sound chargers -/

namespace Charger

/-- The charger was accepted, has plugs, and serves in plug-in order if it is granular. -/
structure IsSound (c : Charger n) : Prop where
  accepted : Installation.create? c.grid c.strategy = .ok c.toInstallation
  plugs_pos : 1 ≤ c.strategy.plugs
  orderly : ∀ plugs stepKw capKw step, c.strategy = .granular plugs stepKw capKw →
    Power.ofKilowatts? stepKw = .ok step → Orderly (c.grid.watts / step.watts) step c.occupants

/-- An accepted granular charger has a positive step, and its budget covers a first grant. -/
theorem IsSound.budget {c : Charger n} (hc : c.IsSound) {plugs : ℤ} {stepKw capKw : Binary64}
    {step : Power} (hstrategy : c.strategy = .granular plugs stepKw capKw)
    (hstep : Power.ofKilowatts? stepKw = .ok step) :
    0 < step.watts ∧ firstSteps step ≤ c.grid.watts / step.watts := by
  have haccepted := hc.accepted
  rw [hstrategy] at haccepted
  exact budget_of_create? haccepted hstep

theorem isSound_idle {i : Installation} (hi : Installation.create? i.grid i.strategy = .ok i)
    (hplugs : 1 ≤ i.strategy.plugs) : (idle i : Charger n).IsSound where
  accepted := hi
  plugs_pos := hplugs
  orderly plugs stepKw capKw step hstrategy hstep := by
    have hstrategy : i.strategy = .granular plugs stepKw capKw := hstrategy
    rw [hstrategy] at hi
    obtain ⟨hs, hbudget⟩ := budget_of_create? hi hstep
    exact ⟨by simp [idle], List.Pairwise.nil, (firstSteps_pos hs).le.trans hbudget⟩

theorem IsSound.receive {c : Charger n} (hc : c.IsSound) (tickets : List (Ticket n)) :
    (c.receive tickets).IsSound := by
  induction tickets generalizing c with
  | nil => rwa [receive_nil]
  | cons t tickets ih =>
    rw [receive_cons]
    refine ih ⟨hc.accepted, hc.plugs_pos, fun plugs stepKw capKw step hstrategy hstep => ?_⟩
    exact (hc.orderly plugs stepKw capKw step hstrategy hstep).occupy t.vehicle t.handle

/-- **No charger starves its occupants**: after a successful re-allocation of a sound charger, one
of the occupants is powered, unless nobody is left. -/
theorem IsSound.reallocatesTo {fleet : Fleet n} {c c' : Charger n} (hc : c.IsSound)
    (h : c.ReallocatesTo fleet c') :
    c'.IsSound ∧ (c'.occupants = [] ∨ ∃ o ∈ c'.occupants, o.IsPowered) := by
  obtain ⟨vs, hvs, rfl⟩ := h
  constructor
  · refine ⟨hc.accepted, hc.plugs_pos, fun plugs stepKw capKw step hstrategy hstep => ?_⟩
    have ho := hc.orderly plugs stepKw capKw step hstrategy hstep
    have hi : c.toInstallation = ⟨c.grid, .granular plugs stepKw capKw⟩ := by
      rw [← show c.strategy = _ from hstrategy]
    obtain ⟨cap, last, -, hvisited⟩ := hvs.visited_granular hi hstep
    exact ho.visited (hc.budget hstrategy hstep).1 hvisited
  · -- a flat charger powers whoever stays, a granular one at least the first of them
    cases hvs with
    | flat _ hvisited =>
      have hpowered := isPowered_of_visited_flat hvisited
      cases hkept : staying vs with
      | nil => exact .inl rfl
      | cons o os => exact .inr ⟨o, List.mem_cons_self, hpowered o (hkept ▸ List.mem_cons_self)⟩
    | granular hstrategy hstep _ hvisited =>
      obtain ⟨hs, hbudget⟩ := hc.budget hstrategy hstep
      have ho := hc.orderly _ _ _ _ hstrategy hstep
      exact hvisited.exists_powered hs ho.granted ho.waitingLast rfl hbudget

end Charger

/-! ### Sound simulations -/

namespace Simulation

/-- The vehicle waits, or is plugged in, or has finished. -/
def Accounts (s : Simulation n) (v : Fin n) : Prop :=
  (∃ t ∈ s.queue, t.vehicle = v) ∨ (∃ c ∈ s.chargers, ∃ o ∈ c.occupants, o.vehicle = v) ∨
    (s.fleet.get v).isFinished = true

/-- What holds of a simulation on accepted chargers with fillable vehicles at all times. -/
structure Sound (s : Simulation n) : Prop where
  chargers_ne_nil : s.chargers ≠ []
  isSound : ∀ c ∈ s.chargers, c.IsSound
  fillable : ∀ v ∈ s.registry, (s.fleet.get v).Fillable s.stepDuration.toDuration
  /-- Whoever is in the line has joined it. -/
  queued : ∀ t ∈ s.queue, t.vehicle ∈ s.registry
  /-- Whoever is plugged in has joined the line. -/
  plugged : ∀ c ∈ s.chargers, ∀ o ∈ c.occupants, o.vehicle ∈ s.registry
  /-- Nobody is lost. -/
  accounts : ∀ v ∈ s.registry, s.Accounts v

/-! ### The start -/

theorem enqueueAll_spec (s : Simulation n) (vehicles : List (Fin n)) :
    (s.enqueueAll vehicles).registry = s.registry ++ vehicles ∧
      (s.enqueueAll vehicles).queue.map Ticket.vehicle = s.queue.map Ticket.vehicle ++ vehicles ∧
      (s.enqueueAll vehicles).fleet = s.fleet ∧ (s.enqueueAll vehicles).chargers = s.chargers ∧
      (s.enqueueAll vehicles).stepDuration = s.stepDuration := by
  induction vehicles generalizing s with
  | nil => exact ⟨(List.append_nil _).symm, (List.append_nil _).symm, rfl, rfl, rfl⟩
  | cons v vehicles ih =>
    obtain ⟨hregistry, hqueue, hrest⟩ := ih (s.enqueue v)
    refine ⟨?_, ?_, hrest⟩
    · rw [registry_enqueue, List.append_assoc] at hregistry
      exact hregistry
    · rw [queue_enqueue, List.map_append, List.append_assoc] at hqueue
      exact hqueue

/-- Who joins the line gets the next handle, and waits at the back. -/
theorem queue_enqueueAll (s : Simulation n) (vehicles : List (Fin n)) :
    (s.enqueueAll vehicles).queue =
      s.queue ++ vehicles.mapIdx fun i v => ⟨s.registry.length + i, v⟩ := by
  induction vehicles generalizing s with
  | nil => exact (List.append_nil _).symm
  | cons v vehicles ih =>
    show ((s.enqueue v).enqueueAll vehicles).queue = _
    rw [ih, queue_enqueue, registry_enqueue, List.length_append, List.length_singleton,
      List.mapIdx_cons, List.append_assoc, List.singleton_append]
    simp only [Nat.add_zero, Nat.add_assoc, Nat.add_comm 1]

/-- **A new simulation** on accepted chargers with plugs is sound once fillable vehicles have joined
its line. -/
theorem sound_enqueueAll {fleet : Fleet n} {installations : List Installation}
    {stepDuration : StepDuration} {vehicles : List (Fin n)} (hne : installations ≠ [])
    (haccepted : ∀ i ∈ installations,
      Installation.create? i.grid i.strategy = .ok i ∧ 1 ≤ i.strategy.plugs)
    (hfillable : ∀ v ∈ vehicles, (fleet.get v).Fillable stepDuration.toDuration) :
    ((create fleet installations stepDuration).enqueueAll vehicles).Sound := by
  obtain ⟨hregistry, hqueue, hfleet, hchargers, hduration⟩ :=
    enqueueAll_spec (create fleet installations stepDuration) vehicles
  have hidle : ∀ c ∈ (create fleet installations stepDuration).chargers,
      c.IsSound ∧ c.occupants = [] := by
    intro c hc
    obtain ⟨i, hi, rfl⟩ := List.mem_map.mp hc
    exact ⟨Charger.isSound_idle (haccepted i hi).1 (haccepted i hi).2, rfl⟩
  constructor
  · rw [hchargers]
    exact fun hnil => hne (List.map_eq_nil_iff.mp hnil)
  · rw [hchargers]
    exact fun c hc => (hidle c hc).1
  · rw [hregistry, hfleet, hduration]
    exact hfillable
  · intro t ht
    rw [hregistry]
    exact hqueue ▸ List.mem_map_of_mem ht
  · rw [hchargers]
    intro c hc o ho
    rw [(hidle c hc).2] at ho
    cases ho
  · -- everybody is still in the line
    intro v hv
    rw [hregistry] at hv
    have hv : v ∈ ((create fleet installations stepDuration).enqueueAll vehicles).queue.map
        Ticket.vehicle := hqueue ▸ hv
    exact .inl (List.mem_map.mp hv)

/-! ### A step -/

namespace Stepped

variable {s t : Simulation n} {filled : List (Charger n)} {delivered : Energy} {frame : Frame}

theorem isSound_filled (h : s.Stepped filled delivered frame t) (hs : s.Sound) {c : Charger n}
    (hc : c ∈ filled) : c.IsSound ∧ ∀ o ∈ c.occupants, o.vehicle ∈ s.registry := by
  obtain ⟨c₀, hc₀, admitted, rfl, hfrom⟩ := h.admission.exists_admitted hc
  refine ⟨(hs.isSound c₀ hc₀).receive admitted, fun o ho => ?_⟩
  rcases List.mem_append.mp ho with hold | hnew
  · exact hs.plugged c₀ hc₀ o hold
  · obtain ⟨ticket, hticket, rfl⟩ := List.mem_map.mp hnew
    exact hs.queued ticket (hfrom ticket hticket)

/-- Whoever is plugged in after a step has joined the line, and had a state of charge and had not
finished when power was re-allocated. -/
theorem plugged (h : s.Stepped filled delivered frame t) (hs : s.Sound) {c : Charger n}
    (hc : c ∈ t.chargers) {o : Occupant n} (ho : o ∈ c.occupants) :
    o.vehicle ∈ s.registry ∧ (o.vehicleIn s.fleet).isFinished = false ∧
      ∃ soc, (o.vehicleIn s.fleet).soc? = .ok soc := by
  obtain ⟨c₀, hc₀, vs, hvs, rfl⟩ := exists_left_of_forall₂ h.reallocation hc
  obtain ⟨o₀, ho₀, hentry, hunfinished, hsoc⟩ := hvs.exists_of_mem_staying ho
  have hvehicle : o.vehicle = o₀.vehicle := congrArg Prod.snd hentry
  rw [Occupant.vehicleIn_congr hvehicle, hvehicle]
  exact ⟨(h.isSound_filled hs hc₀).2 o₀ ho₀, hunfinished, hsoc⟩

theorem fillable (h : s.Stepped filled delivered frame t) (hs : s.Sound) :
    ∀ o ∈ t.chargers.flatMap Charger.occupants,
      (o.vehicleIn s.fleet).Fillable s.stepDuration.toDuration := by
  intro o ho
  obtain ⟨c, hc, ho⟩ := List.mem_flatMap.mp ho
  exact hs.fillable o.vehicle (h.plugged hs hc ho).1

theorem risesTo (h : s.Stepped filled delivered frame t) (hs : s.Sound) (v : Fin n) :
    (s.fleet.get v).RisesTo (t.fleet.get v) :=
  h.charged.risesTo s.stepDuration.positive.le (h.fillable hs) v

/-- Nobody is lost: who leaves the line is plugged in, and who leaves a plug has finished. -/
theorem accounts (h : s.Stepped filled delivered frame t) (hs : s.Sound) {v : Fin n}
    (hv : s.Accounts v) : t.Accounts v := by
  -- whoever is plugged in after admission
  have hplugged : ∀ c ∈ filled, ∀ o ∈ c.occupants, o.vehicle = v → t.Accounts v := by
    rintro c hc o ho rfl
    obtain ⟨c', hc', vs, hvs, rfl⟩ := exists_right_of_forall₂ h.reallocation hc
    rcases hvs.isFinished_or_kept ho with hfinished | ⟨kept, hkept, hentry⟩
    · exact .inr (.inr ((h.risesTo hs o.vehicle).isFinished hfinished))
    · exact .inr (.inl ⟨_, hc', kept, hkept, congrArg Prod.snd hentry⟩)
  rcases hv with ⟨ticket, hticket, rfl⟩ | ⟨c, hc, o, ho, hvehicle⟩ | hfinished
  · rcases h.admission.receives hticket with hrest | ⟨c, hc, ho⟩
    · exact .inl ⟨ticket, hrest, rfl⟩
    · exact hplugged c hc _ ho rfl
  · obtain ⟨c', hc', ho'⟩ := h.admission.keeps hc ho
    exact hplugged c' hc' o ho' hvehicle
  · exact .inr (.inr ((h.risesTo hs v).isFinished hfinished))

/-- **A step keeps a simulation sound.** -/
theorem sound (h : s.Stepped filled delivered frame t) (hs : s.Sound) : t.Sound where
  chargers_ne_nil := by
    -- neither admission nor re-allocation changes how many chargers there are
    intro hnil
    have hlength : t.chargers.length = s.chargers.length :=
      h.reallocation.length_eq.symm.trans h.admission.length_eq
    rw [hnil, List.length_nil, eq_comm, List.length_eq_zero_iff] at hlength
    exact hs.chargers_ne_nil hlength
  isSound c hc := by
    obtain ⟨c₀, hc₀, hrealloc⟩ := exists_left_of_forall₂ h.reallocation hc
    exact ((h.isSound_filled hs hc₀).1.reallocatesTo hrealloc).1
  fillable v hv := by
    rw [h.registry_eq] at hv
    rw [h.stepDuration_eq]
    exact (hs.fillable v hv).risesTo (h.risesTo hs v)
  queued ticket hticket := by
    rw [h.registry_eq]
    exact hs.queued ticket (h.admission.sublist.subset hticket)
  plugged c hc o ho := by
    rw [h.registry_eq]
    exact (h.plugged hs hc ho).1
  accounts v hv := by
    rw [h.registry_eq] at hv
    exact h.accounts hs (hs.accounts v hv)

end Stepped

theorem Steps.registry_eq {s t : Simulation n} {frames : List Frame} (h : Steps s frames t) :
    t.registry = s.registry := by
  refine h.invariant (P := fun u => u.registry = s.registry) (fun u frame hu hstep => ?_) rfl
  obtain ⟨filled, delivered, hstepped⟩ := stepped_of_step hstep
  exact hstepped.registry_eq.trans hu

/-- **Successful steps keep a simulation sound.** -/
theorem Steps.sound {s t : Simulation n} {frames : List Frame} (h : Steps s frames t)
    (hs : s.Sound) : t.Sound := by
  refine h.invariant (fun s frame hs hstep => ?_) hs
  obtain ⟨filled, delivered, hstepped⟩ := stepped_of_step hstep
  exact hstepped.sound hs

theorem isDone_iff {s : Simulation n} :
    s.isDone = true ↔ s.queue = [] ∧ ∀ c ∈ s.chargers, c.occupants = [] := by
  simp only [isDone, Charger.isIdle, Bool.and_eq_true, List.all_eq_true, List.isEmpty_iff]

/-- In a sound simulation that is done, every vehicle that joined the line has finished. -/
theorem Sound.isFinished {s : Simulation n} (hs : s.Sound) (hdone : s.isDone = true) {v : Fin n}
    (hv : v ∈ s.registry) : (s.fleet.get v).isFinished = true := by
  obtain ⟨hqueue, hidle⟩ := isDone_iff.mp hdone
  rcases hs.accounts v hv with ⟨ticket, hticket, -⟩ | ⟨c, hc, o, ho, -⟩ | hfinished
  · -- nobody waits
    rw [hqueue] at hticket
    cases hticket
  · -- nobody is plugged in
    rw [hidle c hc] at ho
    cases ho
  · exact hfinished

/-- A sound simulation that is not valid is done, because nobody joined its line. -/
theorem Sound.isDone_of_not_isValid {s : Simulation n} (hs : s.Sound) (h : s.isValid = false) :
    s.isDone = true := by
  have hnobody : s.registry = [] := by
    simpa [isValid, hs.chargers_ne_nil] using h
  rw [isDone_iff]
  constructor
  · -- whoever waits is registered
    refine List.eq_nil_iff_forall_not_mem.mpr fun ticket hticket => ?_
    exact List.not_mem_nil (hnobody ▸ hs.queued ticket hticket)
  · -- and so is whoever is plugged in
    intro c hc
    refine List.eq_nil_iff_forall_not_mem.mpr fun o ho => ?_
    exact List.not_mem_nil (hnobody ▸ hs.plugged c hc o ho)

/-- **A run that returns** leaves a sound simulation that is done. -/
theorem Sound.run_eq_ok {s : Simulation n} (hs : s.Sound) {frames : List Frame}
    (h : s.run.result = .ok frames) :
    s.run.simulation.Sound ∧ s.run.simulation.isDone = true ∧
      s.run.simulation.registry = s.registry := by
  rcases Simulation.run_eq_ok h with ⟨hvalid, -, hsame⟩ | hruns
  · rw [hsame]
    exact ⟨hs, hs.isDone_of_not_isValid hvalid, rfl⟩
  · exact ⟨hruns.steps.sound hs, hruns.isDone, hruns.steps.registry_eq⟩

end Simulation

end ChargingSite
