import ChargingSite.Proofs.Charger.Delivery

/-!
# The phases of a step

What each phase of a step does when it succeeds, and a successful step in terms of its phases: a
step that succeeds went through all of them (`stepped_of_step`), and phases that all succeed make a
successful step (`Stepped.step_eq`).  Admission takes tickets from the front of the line, charger by
charger, and stops at a charger only for want of tickets or of free plugs (`Filled`).  Re-allocation
acts on each charger on its own, and charging on the occupants that are left.
-/

namespace ChargingSite

variable {n : ℕ}

/-! ### Admission -/

/-- The occupant that somebody in the line becomes on a plug. -/
def Ticket.occupant (t : Ticket n) : Occupant n :=
  { id := t.handle, vehicle := t.vehicle }

/-- The charger with further occupants, from the line. -/
def Charger.receive (c : Charger n) (tickets : List (Ticket n)) : Charger n :=
  { c with occupants := c.occupants ++ tickets.map Ticket.occupant }

@[simp] theorem Charger.receive_nil (c : Charger n) : c.receive [] = c := by
  rw [receive, List.map_nil, List.append_nil]

theorem Charger.receive_cons (c : Charger n) (t : Ticket n) (tickets : List (Ticket n)) :
    c.receive (t :: tickets) = (c.occupy t.vehicle t.handle).receive tickets := by
  show Charger.mk c.toInstallation _ = Charger.mk c.toInstallation _
  rw [List.map_cons, List.append_cons]
  rfl

/-- Plugs the holders of tickets in, one after the other. -/
def Charger.plugInAll? (c : Charger n) (tickets : List (Ticket n)) :
    Except SiteError (Charger n) :=
  tickets.foldlM (fun c t => c.plugIn? t.vehicle t.handle) c

theorem Charger.plugInAll?_cons_eq_ok_iff {c c' : Charger n} {t : Ticket n}
    {tickets : List (Ticket n)} :
    c.plugInAll? (t :: tickets) = .ok c' ↔
      c.hasFreePlug = true ∧ (c.occupy t.vehicle t.handle).plugInAll? tickets = .ok c' := by
  unfold plugInAll?
  rw [List.foldlM_cons, bind_eq_ok_iff]
  constructor
  · rintro ⟨_, hplugged, hrest⟩
    obtain ⟨hfree, rfl⟩ := plugIn?_eq_ok_iff.mp hplugged
    exact ⟨hfree, hrest⟩
  · rintro ⟨hfree, hrest⟩
    exact ⟨_, plugIn?_eq_ok_iff.mpr ⟨hfree, rfl⟩, hrest⟩

theorem Charger.eq_receive_of_plugInAll? {c c' : Charger n} {tickets : List (Ticket n)}
    (h : c.plugInAll? tickets = .ok c') : c' = c.receive tickets := by
  induction tickets generalizing c with
  | nil =>
    rw [receive_nil]
    exact (Except.ok.inj h).symm
  | cons t tickets ih =>
    rw [receive_cons]
    exact ih (plugInAll?_cons_eq_ok_iff.mp h).2

theorem Charger.plugInAll?_invariant {P : Charger n → Prop} {c c' : Charger n}
    {tickets : List (Ticket n)}
    (occupy : ∀ c vehicle id, c.hasFreePlug = true → P c → P (c.occupy vehicle id))
    (h : c.plugInAll? tickets = .ok c') (hc : P c) :
    c'.toInstallation = c.toInstallation ∧ P c' := by
  induction tickets generalizing c with
  | nil =>
    obtain rfl := Except.ok.inj h
    exact ⟨rfl, hc⟩
  | cons t tickets ih =>
    obtain ⟨hfree, hrest⟩ := plugInAll?_cons_eq_ok_iff.mp h
    have hoccupied := occupy c t.vehicle t.handle hfree hc
    exact ih (c := c.occupy t.vehicle t.handle) hrest hoccupied

theorem Charger.length_le_of_plugInAll? {c c' : Charger n} {tickets : List (Ticket n)}
    (h : c.plugInAll? tickets = .ok c')
    (hfits : c.occupants.length ≤ c.strategy.plugs.toNat) :
    c'.occupants.length ≤ c'.strategy.plugs.toNat := by
  refine (plugInAll?_invariant (P := fun c => c.occupants.length ≤ c.strategy.plugs.toNat) ?_ h
    hfits).2
  intro c vehicle id hfree _
  rw [hasFreePlug, decide_eq_true_eq] at hfree
  show (c.occupants ++ [_]).length ≤ c.strategy.plugs.toNat
  rw [List.length_append, List.length_singleton]
  omega

/-- Chargers and line before admission, and chargers and line after it. -/
inductive Filled : List (Charger n) → List (Ticket n) → List (Charger n) → List (Ticket n) → Prop
  /-- No charger is left. -/
  | done (queue : List (Ticket n)) : Filled [] queue [] queue
  /-- A charger lets in the front of the line, which always finds free plugs, as far as it can. -/
  | next {c c' : Charger n} {cs cs' : List (Charger n)} {admitted left rest : List (Ticket n)}
      (hplugged : c.plugInAll? admitted = .ok c') (hfull : left = [] ∨ c'.hasFreePlug = false)
      (tail : Filled cs left cs' rest) : Filled (c :: cs) (admitted ++ left) (c' :: cs') rest

/-- A charger lets in the front of the line until the line or its plugs are used up. -/
theorem fillPlugs_spec (c : Charger n) (queue : List (Ticket n)) :
    ∃ admitted, queue = admitted ++ (c.fillPlugs queue).2.1 ∧
      c.plugInAll? admitted = .ok (c.fillPlugs queue).1 ∧
      ((c.fillPlugs queue).2.1 = [] ∨ (c.fillPlugs queue).1.hasFreePlug = false) := by
  induction queue generalizing c with
  | nil => exact ⟨[], rfl, rfl, .inl rfl⟩
  | cons t queue ih =>
    unfold Charger.fillPlugs
    by_cases hfree : c.hasFreePlug = true
    · -- the first in the line takes the free plug, and the charger goes on with the others
      rw [if_pos hfree]
      obtain ⟨admitted, hqueue, hplugged, hfull⟩ := ih (c.occupy t.vehicle t.handle)
      refine ⟨t :: admitted, congrArg (t :: ·) hqueue, ?_, hfull⟩
      exact Charger.plugInAll?_cons_eq_ok_iff.mpr ⟨hfree, hplugged⟩
    · rw [if_neg hfree]
      exact ⟨[], rfl, rfl, .inr (Bool.not_eq_true _ ▸ hfree)⟩

theorem filled_fillAllPlugs (cs : List (Charger n)) (queue : List (Ticket n)) :
    Filled cs queue (fillAllPlugs cs queue).1 (fillAllPlugs cs queue).2.1 := by
  induction cs generalizing queue with
  | nil => exact .done queue
  | cons c cs ih =>
    obtain ⟨admitted, hqueue, hplugged, hfull⟩ := fillPlugs_spec c queue
    have htail := ih (c.fillPlugs queue).2.1
    have hfilled := Filled.next hplugged hfull htail
    rw [← hqueue] at hfilled
    exact hfilled

theorem fillPlugs_of_plugInAll? {c c' : Charger n} {admitted left : List (Ticket n)}
    (hplugged : c.plugInAll? admitted = .ok c') (hfull : left = [] ∨ c'.hasFreePlug = false) :
    (c.fillPlugs (admitted ++ left)).1 = c' ∧ (c.fillPlugs (admitted ++ left)).2.1 = left := by
  induction admitted generalizing c with
  | nil =>
    obtain rfl := Except.ok.inj hplugged
    cases left with
    | nil => exact ⟨rfl, rfl⟩
    | cons t left =>
      -- a ticket is left, so the charger is full
      have hoccupied : c.hasFreePlug = false := hfull.resolve_left (List.cons_ne_nil _ _)
      rw [List.nil_append, Charger.fillPlugs, hoccupied]
      exact ⟨rfl, rfl⟩
  | cons t admitted ih =>
    obtain ⟨hfree, hrest⟩ := Charger.plugInAll?_cons_eq_ok_iff.mp hplugged
    rw [List.cons_append, Charger.fillPlugs, if_pos hfree]
    exact ih hrest

/-- **Admission is determined** by the chargers and the line. -/
theorem Filled.fillAllPlugs_eq {cs cs' : List (Charger n)} {queue rest : List (Ticket n)}
    (h : Filled cs queue cs' rest) :
    (fillAllPlugs cs queue).1 = cs' ∧ (fillAllPlugs cs queue).2.1 = rest := by
  induction h with
  | done => exact ⟨rfl, rfl⟩
  | @next c c' cs cs' admitted left rest hplugged hfull _ ih =>
    obtain ⟨hcharger, hleft⟩ := fillPlugs_of_plugInAll? hplugged hfull
    show (c.fillPlugs _).1 :: (fillAllPlugs cs (c.fillPlugs _).2.1).1 = c' :: cs' ∧
      (fillAllPlugs cs (c.fillPlugs _).2.1).2.1 = rest
    rw [hcharger, hleft]
    exact ⟨congrArg (c' :: ·) ih.1, ih.2⟩

/-! ### Who is where after admission -/

namespace Filled

variable {cs cs' ds ds' : List (Charger n)} {queue left rest : List (Ticket n)}

theorem append (h : Filled cs queue cs' left) (h' : Filled ds left ds' rest) :
    Filled (cs ++ ds) queue (cs' ++ ds') rest := by
  induction h with
  | done => exact h'
  | next hplugged hfull _ ih => exact .next hplugged hfull (ih h')

theorem exists_append (h : Filled (cs ++ ds) queue cs' rest) :
    ∃ fs fs' left, cs' = fs ++ fs' ∧ Filled cs queue fs left ∧ Filled ds left fs' rest := by
  induction cs generalizing queue cs' with
  | nil => exact ⟨[], cs', queue, rfl, .done queue, h⟩
  | cons c cs ih =>
    cases h with
    | next hplugged hfull tail =>
      obtain ⟨fs, fs', between, rfl, hfirst, hsecond⟩ := ih tail
      exact ⟨_ :: fs, fs', between, rfl, .next hplugged hfull hfirst, hsecond⟩

theorem exists_singleton {c : Charger n} (h : Filled [c] queue cs' rest) :
    ∃ c' admitted, cs' = [c'] ∧ queue = admitted ++ rest ∧ c.plugInAll? admitted = .ok c' ∧
      (rest = [] ∨ c'.hasFreePlug = false) := by
  cases h with
  | next hplugged hfull tail =>
    cases tail with
    | done => exact ⟨_, _, rfl, rfl, hplugged, hfull⟩

/-- **Who is plugged in after admission**: whoever was before, and the front of the line. -/
theorem perm (h : Filled cs queue cs' rest) :
    ∃ admitted, queue = admitted ++ rest ∧ (cs'.flatMap Charger.occupants).Perm
      (cs.flatMap Charger.occupants ++ admitted.map Ticket.occupant) := by
  induction h with
  | done queue => exact ⟨[], rfl, by simp⟩
  | @next c c' cs cs' admitted left rest hplugged _ _ ih =>
    obtain ⟨later, rfl, hperm⟩ := ih
    refine ⟨admitted ++ later, (List.append_assoc _ _ _).symm, ?_⟩
    rw [Charger.eq_receive_of_plugInAll? hplugged, List.flatMap_cons, List.flatMap_cons,
      List.map_append, Charger.receive, List.append_assoc, List.append_assoc]
    -- those let in later move behind those let in now
    refine List.Perm.append_left _ ((hperm.append_left _).trans ?_)
    rw [← List.append_assoc, ← List.append_assoc]
    exact List.perm_append_comm.append_right _

theorem sublist (h : Filled cs queue cs' rest) : rest.Sublist queue := by
  obtain ⟨admitted, rfl, -⟩ := h.perm
  exact List.sublist_append_right _ _

/-- Every charger lets in tickets from the line, in their order. -/
theorem forall₂ (h : Filled cs queue cs' rest) :
    List.Forall₂ (fun c c' => ∃ admitted, admitted.Sublist queue ∧ c.plugInAll? admitted = .ok c')
      cs cs' := by
  induction h with
  | done => exact .nil
  | next hplugged _ _ ih =>
    refine .cons ⟨_, List.sublist_append_left _ _, hplugged⟩ (ih.imp ?_)
    rintro c c' ⟨admitted, hadmitted, hplugged⟩
    exact ⟨admitted, hadmitted.trans (List.sublist_append_right _ _), hplugged⟩

theorem length_eq (h : Filled cs queue cs' rest) : cs'.length = cs.length :=
  h.forall₂.length_eq.symm

theorem exists_admitted (h : Filled cs queue cs' rest) {c' : Charger n} (hc' : c' ∈ cs') :
    ∃ c ∈ cs, ∃ admitted, c' = c.receive admitted ∧ ∀ t ∈ admitted, t ∈ queue := by
  obtain ⟨c, hc, admitted, hadmitted, hplugged⟩ := exists_left_of_forall₂ h.forall₂ hc'
  exact ⟨c, hc, admitted, Charger.eq_receive_of_plugInAll? hplugged,
    fun t ht => hadmitted.subset ht⟩

theorem keeps (h : Filled cs queue cs' rest) {c : Charger n} (hc : c ∈ cs) {o : Occupant n}
    (ho : o ∈ c.occupants) : ∃ c' ∈ cs', o ∈ c'.occupants := by
  obtain ⟨admitted, -, hperm⟩ := h.perm
  rw [← List.mem_flatMap, hperm.mem_iff]
  exact List.mem_append_left _ (List.mem_flatMap.mpr ⟨c, hc, ho⟩)

theorem receives (h : Filled cs queue cs' rest) {t : Ticket n} (ht : t ∈ queue) :
    t ∈ rest ∨ ∃ c' ∈ cs', t.occupant ∈ c'.occupants := by
  obtain ⟨admitted, rfl, hperm⟩ := h.perm
  rcases List.mem_append.mp ht with hadmitted | hrest
  · right
    rw [← List.mem_flatMap, hperm.mem_iff]
    exact List.mem_append_right _ (List.mem_map_of_mem hadmitted)
  · exact .inl hrest

/-- **Admission goes on** as long as somebody waits and a plug is free. -/
theorem full (h : Filled cs queue cs' rest) :
    rest = [] ∨ ∀ c' ∈ cs', c'.hasFreePlug = false := by
  induction h with
  | done => exact .inr (by simp)
  | next _ hfull tail ih =>
    rcases hfull with rfl | hfull
    · exact .inl (List.sublist_nil.mp tail.sublist)
    · exact ih.imp id fun hall => List.forall_mem_cons.mpr ⟨hfull, hall⟩

end Filled

/-! ### Re-allocation -/

/-- A successful re-allocation makes the second charger of the first. -/
def Charger.ReallocatesTo (fleet : Fleet n) (c c' : Charger n) : Prop :=
  ∃ vs, Reallocated fleet c vs ∧ c' = { c with occupants := staying vs }

theorem Charger.reallocatesTo_iff {fleet : Fleet n} {c c' : Charger n} :
    c.ReallocatesTo fleet c' ↔ ∃ departed, c.reallocate fleet = (c', .ok departed) := by
  constructor
  · rintro ⟨vs, hvs, rfl⟩
    exact ⟨_, hvs.reallocate_eq⟩
  · rintro ⟨departed, hmade⟩
    obtain ⟨vs, hvs, hc', -⟩ := reallocated_of_reallocate hmade
    exact ⟨vs, hvs, hc'⟩

theorem forall₂_of_reallocateAll {fleet : Fleet n} {cs cs' : List (Charger n)}
    {events : List Event} (h : reallocateAll fleet cs = (cs', .ok (), events)) :
    List.Forall₂ (Charger.ReallocatesTo fleet) cs cs' := by
  induction cs generalizing cs' events with
  | nil =>
    cases h
    exact .nil
  | cons c cs ih =>
    rw [reallocateAll] at h
    cases hmade : c.reallocate fleet with
    | mk c' result =>
      cases result with
      | error e => rw [hmade] at h; cases h
      | ok departed =>
        rw [hmade] at h
        obtain ⟨rfl, hresult, -⟩ : c' :: (reallocateAll fleet cs).1 = cs' ∧
            (reallocateAll fleet cs).2.1 = .ok () ∧ _ := by
          simpa only [Prod.mk.injEq] using h
        exact .cons (Charger.reallocatesTo_iff.mpr ⟨departed, hmade⟩)
          (ih (Prod.ext rfl (Prod.ext hresult rfl)))

theorem exists_reallocateAll_eq {fleet : Fleet n} {cs cs' : List (Charger n)}
    (h : List.Forall₂ (Charger.ReallocatesTo fleet) cs cs') :
    ∃ events, reallocateAll fleet cs = (cs', .ok (), events) := by
  induction h with
  | nil => exact ⟨[], rfl⟩
  | @cons c c' cs cs' head _ ih =>
    obtain ⟨departed, hmade⟩ := Charger.reallocatesTo_iff.mp head
    obtain ⟨events, hrest⟩ := ih
    rw [reallocateAll, hmade, hrest]
    exact ⟨c'.departures departed ++ events, rfl⟩

/-! ### Frames -/

theorem Occupant.frame?_eq_ok_iff {fleet : Fleet n} {o : Occupant n} {entry : VehicleFrame} :
    o.frame? fleet = .ok entry ↔ ∃ soc, (o.vehicleIn fleet).soc? = .ok soc ∧
      entry = ⟨o.id, o.allocated.watts, soc.percent⟩ := by
  unfold Occupant.frame?
  rw [bind_eq_ok_iff]
  exact exists_congr fun soc => and_congr_right fun _ => pure_eq_ok_iff.trans eq_comm

namespace Simulation

theorem frame?_eq_ok_iff {s : Simulation n} {delivered : Energy} {frame : Frame} :
    s.frame? delivered = .ok frame ↔
      List.Forall₂ (fun o entry => o.frame? s.fleet = .ok entry)
        (s.chargers.flatMap Charger.occupants) frame.vehicles ∧
      frame = {
        step := s.steps
        dispensedWh := delivered.wattHours
        chargers := s.chargers.mapIdx fun i c => c.frame i
        vehicles := frame.vehicles
        elapsedSeconds := s.elapsed.seconds } := by
  unfold frame?
  simp only [bind_eq_ok_iff, pure_eq_ok_iff, mapM_eq_ok_iff]
  constructor
  · rintro ⟨vehicles, hvehicles, rfl⟩
    exact ⟨hvehicles, rfl⟩
  · rintro ⟨hvehicles, hframe⟩
    exact ⟨frame.vehicles, hvehicles, hframe.symm⟩

/-! ### The step -/

/-- A successful step from `s` to `t`: the chargers after admission, and the energy delivered. -/
structure Stepped (s : Simulation n) (filled : List (Charger n)) (delivered : Energy)
    (frame : Frame) (t : Simulation n) : Prop where
  valid : s.isValid = true
  admission : Filled s.chargers s.queue filled t.queue
  reallocation : List.Forall₂ (Charger.ReallocatesTo s.fleet) filled t.chargers
  charging : chargeAll s.stepDuration.toDuration t.chargers s.fleet .zero = (t.fleet, .ok delivered)
  clock : s.elapsed.add? s.stepDuration.toDuration = .ok t.elapsed
  stepDuration_eq : t.stepDuration = s.stepDuration
  registry_eq : t.registry = s.registry
  dispensed_eq : t.dispensed = s.dispensed + delivered
  steps_eq : t.steps = s.steps + 1
  frame_eq : t.frame? delivered = .ok frame

theorem Stepped.charged {s t : Simulation n} {filled : List (Charger n)} {delivered : Energy}
    {frame : Frame} (h : s.Stepped filled delivered frame t) :
    Charged s.stepDuration.toDuration (t.chargers.flatMap Charger.occupants) s.fleet t.fleet :=
  (chargeAll_eq_ok_iff.mp h.charging).1

/-- The phases after admission, if all of them succeed. -/
theorem serve_eq_ok {s t : Simulation n} {frame : Frame} {events : List Event}
    (h : s.serve = ⟨t, .ok frame, events⟩) :
    ∃ delivered elapsed, List.Forall₂ (Charger.ReallocatesTo s.fleet) s.chargers t.chargers ∧
      chargeAll s.stepDuration.toDuration t.chargers s.fleet .zero = (t.fleet, .ok delivered) ∧
      s.elapsed.add? s.stepDuration.toDuration = .ok elapsed ∧
      t = { s with chargers := t.chargers, fleet := t.fleet, elapsed,
                   dispensed := s.dispensed + delivered, steps := s.steps + 1 } ∧
      t.frame? delivered = .ok frame := by
  rw [serve] at h
  -- a phase that fails ends the step with its error, so each of the three has succeeded
  cases hreallocated : reallocateAll s.fleet s.chargers with
  | mk chargers made =>
  obtain ⟨result, departures⟩ := made
  rw [hreallocated] at h
  cases result with
  | error e => cases h
  | ok u =>
  cases hcharged : chargeAll s.stepDuration.toDuration chargers s.fleet .zero with
  | mk fleet result =>
  cases result with
  | error e => simp [hcharged] at h
  | ok delivered =>
  cases helapsed : s.elapsed.add? s.stepDuration.toDuration with
  | error e => simp [hcharged, count?, helapsed, bind, Except.bind] at h
  | ok elapsed =>
    simp only [hcharged, count?, helapsed, bind, Except.bind, pure, Except.pure, Outcome.mk.injEq,
      liftNumber_eq_ok_iff] at h
    obtain ⟨rfl, hframe, -⟩ := h
    exact ⟨delivered, elapsed, forall₂_of_reallocateAll hreallocated, hcharged, rfl, rfl, hframe⟩

/-- **A successful step** lets the line in and goes through all the other phases. -/
theorem stepped_fillPlugs {s : Simulation n} {frame : Frame} (h : s.step.result = .ok frame) :
    ∃ delivered, s.Stepped s.fillPlugs.1.chargers delivered frame s.step.simulation := by
  by_cases hvalid : s.isValid = true
  · -- the plugs are filled first, and the rest of the step is served
    set served := s.fillPlugs.1.serve with hserved
    have hstep : s.step = ⟨served.simulation, served.result, s.fillPlugs.2 ++ served.events⟩ :=
      if_pos hvalid
    rw [hstep] at h ⊢
    have hserve : s.fillPlugs.1.serve = ⟨served.simulation, .ok frame, served.events⟩ := by
      rw [← hserved, ← h]
    obtain ⟨delivered, elapsed, hreallocated, hcharged, helapsed, ht, hframe⟩ := serve_eq_ok hserve
    refine ⟨delivered, ?_⟩
    rw [ht] at hframe ⊢
    exact ⟨hvalid, filled_fillAllPlugs _ _, hreallocated, hcharged, helapsed, rfl, rfl, rfl, rfl,
      hframe⟩
  · -- a step of an invalid simulation fails
    have hstep : s.step =
        ⟨s, .error (.invalidSimulation s.chargers.length s.registry.length), []⟩ :=
      if_neg hvalid
    rw [hstep] at h
    cases h

theorem stepped_of_step {s : Simulation n} {frame : Frame} (h : s.step.result = .ok frame) :
    ∃ filled delivered, s.Stepped filled delivered frame s.step.simulation :=
  ⟨_, stepped_fillPlugs h⟩

/-- **Phases that all succeed** make a successful step. -/
theorem Stepped.step_eq {s t : Simulation n} {filled : List (Charger n)} {delivered : Energy}
    {frame : Frame} (h : s.Stepped filled delivered frame t) :
    s.step.result = .ok frame ∧ s.step.simulation = t := by
  obtain ⟨hfilled, hrest⟩ := h.admission.fillAllPlugs_eq
  obtain ⟨events, hreallocated⟩ := exists_reallocateAll_eq h.reallocation
  have ht : t = { s with
      chargers := t.chargers
      queue := t.queue
      fleet := t.fleet
      elapsed := t.elapsed
      dispensed := s.dispensed + delivered
      steps := s.steps + 1 } := by
    rw [← h.dispensed_eq, ← h.steps_eq, ← h.stepDuration_eq, ← h.registry_eq]
  have hlet : s.fillPlugs.1 = { s with chargers := filled, queue := t.queue } := by
    rw [← hfilled, ← hrest]
    rfl
  have hserve : s.fillPlugs.1.serve = ⟨t, .ok frame, events⟩ := by
    rw [hlet, serve]
    simp only [hreallocated, h.charging, count?, h.clock, bind, Except.bind, pure, Except.pure]
    rw [← ht, h.frame_eq]
    rfl
  have hstep : s.step = { s.fillPlugs.1.serve with
      events := s.fillPlugs.2 ++ s.fillPlugs.1.serve.events } := if_pos h.valid
  rw [hstep, hserve]
  exact ⟨rfl, rfl⟩

end Simulation

end ChargingSite
