import ChargingSite.Proofs.Simulation.History
import ChargingSite.Proofs.Simulation.Sound

/-!
# Late arrivals

A simulation does not look ahead in its line: whether a vehicle is at the back of the line from the
start, or joins it later, makes no difference as long as it is not let in (`late_arrival`).

Admission takes from the front.  If it does not come to the last ticket, then it stops at every
charger for want of free plugs, and would do so without that ticket (`Filled.of_concat`).  No other
phase of a step reads the line, so the step is the same with and without the ticket, and leaves it
at the back of the line (`step_enqueue`).
-/

namespace ChargingSite

variable {n : ℕ}

/-! ### Admission -/

/-- **Admission does not look ahead**: without the last ticket, if that is not admitted, everybody
else is let in just the same. -/
theorem Filled.of_concat {cs cs' : List (Charger n)} {queue rest : List (Ticket n)}
    {last : Ticket n} (h : Filled cs (queue ++ [last]) cs' (rest ++ [last])) :
    Filled cs queue cs' rest := by
  generalize hline : queue ++ [last] = line at h
  generalize hleft : rest ++ [last] = left at h
  induction h generalizing queue with
  | done line =>
    obtain rfl := List.append_cancel_right (hline.trans hleft.symm)
    exact .done queue
  | @next c c' cs cs' admitted behind _ hplugged hfull tail ih =>
    -- the last ticket is still in the line when the next charger lets it in
    obtain ⟨later, rfl, -⟩ := tail.perm
    rw [← hleft, ← List.append_assoc, ← List.append_assoc] at hline
    obtain rfl := List.append_cancel_right hline
    have hfull : c'.hasFreePlug = false := hfull.resolve_left (by simp [← hleft])
    rw [List.append_assoc]
    exact .next hplugged (.inr hfull) (ih (by rw [← hleft, List.append_assoc]) hleft)

/-- If anybody is left in the line, then so is the last one. -/
theorem Filled.exists_concat {cs cs' : List (Charger n)} {queue rest : List (Ticket n)}
    {last : Ticket n} (h : Filled cs (queue ++ [last]) cs' rest) (hrest : rest ≠ []) :
    ∃ left, rest = left ++ [last] := by
  obtain ⟨admitted, hline, -⟩ := h.perm
  obtain ⟨left, last', rfl⟩ := List.eq_nil_or_concat' rest |>.resolve_left hrest
  rw [← List.append_assoc] at hline
  obtain ⟨-, hlast⟩ := List.append_inj' hline rfl
  cases hlast
  exact ⟨left, rfl⟩

namespace Simulation

/-! ### One step -/

/-- **A step does not look ahead**: if a vehicle at the back of the line is not let in, then the
step succeeds without it as well, with the same frame, and the vehicle could just as well join
afterwards. -/
theorem step_enqueue {s : Simulation n} {vehicle : Fin n} {frame : Frame}
    (hjoined : s.registry ≠ []) (h : (s.enqueue vehicle).step.result = .ok frame)
    (hwaits : (s.enqueue vehicle).step.simulation.queue ≠ []) :
    s.step.result = .ok frame ∧
      (s.enqueue vehicle).step.simulation = s.step.simulation.enqueue vehicle := by
  obtain ⟨filled, delivered, hstepped⟩ := stepped_of_step h
  set t := (s.enqueue vehicle).step.simulation with ht
  obtain ⟨rest, hrest⟩ := hstepped.admission.exists_concat hwaits
  have hfilled : Filled s.chargers (s.queue ++ [⟨s.registry.length, vehicle⟩]) filled
      (rest ++ [⟨s.registry.length, vehicle⟩]) := hrest ▸ hstepped.admission
  have hvalid : s.isValid = true := by
    have hchargers := (Bool.and_eq_true_iff.mp hstepped.valid).1
    rw [isValid, Bool.and_eq_true]
    exact ⟨hchargers, by simpa using hjoined⟩
  have hstep : s.Stepped filled delivered frame { t with queue := rest, registry := s.registry } :=
    ⟨hvalid, hfilled.of_concat, hstepped.reallocation, hstepped.charging, hstepped.clock,
      hstepped.stepDuration_eq, rfl, hstepped.dispensed_eq, hstepped.steps_eq, hstepped.frame_eq⟩
  obtain ⟨hresult, hsimulation⟩ := hstep.step_eq
  have hregistry : t.registry = s.registry ++ [vehicle] := hstepped.registry_eq
  refine ⟨hresult, ?_⟩
  rw [hsimulation]
  show t = { t with
    registry := s.registry ++ [vehicle]
    queue := rest ++ [⟨s.registry.length, vehicle⟩] }
  rw [← hrest, ← hregistry]

/-! ### Many steps -/

/-- **Steps do not look ahead**, as long as the vehicle at the back of the line is not let in. -/
theorem Steps.of_enqueue {s t : Simulation n} {vehicle : Fin n} {frames : List Frame}
    (hjoined : s.registry ≠ []) (h : Steps (s.enqueue vehicle) frames t) (hwaits : t.queue ≠ []) :
    ∃ t', Steps s frames t' ∧ t = t'.enqueue vehicle := by
  generalize hstart : s.enqueue vehicle = start at h
  induction h generalizing s with
  | done => exact ⟨s, .done s, hstart.symm⟩
  | @next _ t frame frames head tail ih =>
    subst hstart
    -- who waits in the end has waited all the time
    have hstill : (s.enqueue vehicle).step.simulation.queue ≠ [] :=
      fun hnobody => hwaits (List.sublist_nil.mp (hnobody ▸ tail.queue_sublist))
    obtain ⟨hresult, hafter⟩ := step_enqueue hjoined head hstill
    obtain ⟨filled, delivered, hstepped⟩ := stepped_of_step hresult
    have hjoined' : s.step.simulation.registry ≠ [] := hstepped.registry_eq ▸ hjoined
    obtain ⟨t', hsteps, ht⟩ := ih hjoined' hwaits hafter.symm
    exact ⟨t', .next hresult hsteps, ht⟩

/-- **Late arrival equals early queueing.**  Put a vehicle at the back of a line that is not empty
and make successful steps at chargers that were idle at first.  If its ticket, which is the last
one, is still in the line after them, then the same steps, with the same frames, can be made before
it joins the line.  It gets the same handle then, and the state is the same in all respects, so
nothing that comes later differs. -/
theorem late_arrival {fleet : Fleet n} {installations : List Installation}
    {stepDuration : StepDuration} {vehicles : List (Fin n)} {vehicle : Fin n} {frames : List Frame}
    {t : Simulation n} (hne : vehicles ≠ [])
    (h : Steps ((create fleet installations stepDuration).enqueueAll (vehicles ++ [vehicle]))
      frames t) (hwaits : vehicles.length ∈ t.queue.map Ticket.handle) :
    ∃ t', Steps ((create fleet installations stepDuration).enqueueAll vehicles) frames t' ∧
      t'.registry = vehicles ∧ t = t'.enqueue vehicle := by
  obtain ⟨hregistry, -⟩ := enqueueAll_spec (create fleet installations stepDuration) vehicles
  have hregistry : ((create fleet installations stepDuration).enqueueAll vehicles).registry =
      vehicles := hregistry
  have hearly : (create fleet installations stepDuration).enqueueAll (vehicles ++ [vehicle]) =
      ((create fleet installations stepDuration).enqueueAll vehicles).enqueue vehicle := by
    rw [enqueueAll, List.foldl_append]
    rfl
  rw [hearly] at h
  have hsomebody : t.queue ≠ [] := by
    intro hnobody
    rw [hnobody] at hwaits
    cases hwaits
  obtain ⟨t', hsteps, ht⟩ := h.of_enqueue (hregistry.symm ▸ hne) hsomebody
  exact ⟨t', hsteps, hsteps.registry_eq.trans hregistry, ht⟩

/-- In the line of a single plug, the first of two sample vehicles comes back for a second charge:
it makes no difference whether it does so at once or after two steps. -/
theorem sampleQueue_late_arrival :
    ∃ frames t, frames.length = 2 ∧ Steps (sampleQueue.enqueue 0) frames (t.enqueue 0) ∧
      Steps sampleQueue frames t := by
  have hlength : (((sampleQueue.enqueue 0).take 2).result.map List.length) = .ok 2 := by
    decide +kernel
  have hwaits : 2 ∈ ((sampleQueue.enqueue 0).take 2).simulation.queue.map Ticket.handle := by
    decide +kernel
  cases hresult : ((sampleQueue.enqueue 0).take 2).result with
  | error e => rw [hresult] at hlength; cases hlength
  | ok frames =>
    rw [hresult] at hlength
    have hsteps := steps_of_take hresult
    obtain ⟨t, hlate, -, ht⟩ := late_arrival (List.cons_ne_nil 0 [1]) hsteps hwaits
    rw [ht] at hsteps
    exact ⟨frames, t, Except.ok.inj hlength, hsteps, hlate⟩

end Simulation

end ChargingSite
