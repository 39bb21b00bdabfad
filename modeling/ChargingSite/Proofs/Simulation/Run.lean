import ChargingSite.Proofs.Simulation.Step
import ChargingSite.Simulation.Run

/-!
# Runs

Many steps are successful steps in a row (`Simulation.Steps`); a run makes them until the simulation
is done (`Simulation.RunsTo`).  Every step moves the clock on by the same duration, and the clock
has an end, so the limit on the number of steps of a run is never what ends it (`run_eq_ok`).
-/

namespace ChargingSite.Simulation

variable {n : ℕ}

/-- Successful steps in a row, with their frames. -/
inductive Steps : Simulation n → List Frame → Simulation n → Prop
  /-- No step. -/
  | done (s : Simulation n) : Steps s [] s
  /-- One step, and then the others. -/
  | next {s t : Simulation n} {frame : Frame} {frames : List Frame}
      (head : s.step.result = .ok frame) (tail : Steps s.step.simulation frames t) :
      Steps s (frame :: frames) t

/-- Successful steps in a row that are made because the simulation is not done, until it is. -/
inductive RunsTo : Simulation n → List Frame → Simulation n → Prop
  /-- The simulation is done. -/
  | done {s : Simulation n} (hdone : s.isDone = true) : RunsTo s [] s
  /-- One step, and then the others. -/
  | next {s t : Simulation n} {frame : Frame} {frames : List Frame} (hdone : s.isDone = false)
      (head : s.step.result = .ok frame) (tail : RunsTo s.step.simulation frames t) :
      RunsTo s (frame :: frames) t

theorem RunsTo.steps {s t : Simulation n} {frames : List Frame} (h : RunsTo s frames t) :
    Steps s frames t := by
  induction h with
  | done => exact .done _
  | next _ head _ ih => exact .next head ih

theorem RunsTo.isDone {s t : Simulation n} {frames : List Frame} (h : RunsTo s frames t) :
    t.isDone = true := by
  induction h with
  | done hdone => exact hdone
  | next _ _ _ ih => exact ih

/-- Before each frame of a run the simulation is not done. -/
theorem RunsTo.exists_step {s t : Simulation n} {frames : List Frame} (h : RunsTo s frames t)
    {i : ℕ} (hi : i < frames.length) :
    ∃ u, Steps s (frames.take i) u ∧ u.isDone = false ∧ u.step.result = .ok frames[i] := by
  induction h generalizing i with
  | done => cases hi
  | @next s t frame frames hdone head _ ih =>
    cases i with
    -- the first frame is made from the start
    | zero => exact ⟨s, .done s, hdone, head⟩
    | succ i =>
      obtain ⟨u, hsteps, hu, hstep⟩ := ih (Nat.lt_of_succ_lt_succ hi)
      exact ⟨u, .next head hsteps, hu, hstep⟩

/-- The last step of a run leads to its end. -/
theorem RunsTo.exists_last {s t : Simulation n} {frames : List Frame} (h : RunsTo s frames t)
    {last : Frame} (hlast : last ∈ frames.getLast?) :
    ∃ u : Simulation n, u.step.result = .ok last ∧ u.step.simulation = t := by
  induction h with
  | done => cases hlast
  | next _ head tail ih =>
    cases tail with
    | done =>
      cases hlast
      exact ⟨_, head, rfl⟩
    | next =>
      rw [List.getLast?_cons_cons] at hlast
      exact ih hlast

/-- What a successful step preserves, successful steps in a row preserve. -/
theorem Steps.invariant {P : Simulation n → Prop} {s t : Simulation n} {frames : List Frame}
    (hstep : ∀ s frame, P s → s.step.result = .ok frame → P s.step.simulation)
    (h : Steps s frames t) (hs : P s) : P t := by
  induction h with
  | done => exact hs
  | next head _ ih => exact ih (hstep _ _ hs head)

/-- Nobody goes back to the line. -/
theorem Steps.queue_sublist {s t : Simulation n} {frames : List Frame} (h : Steps s frames t) :
    t.queue.Sublist s.queue := by
  induction h with
  | done => exact List.Sublist.refl _
  | next head _ ih =>
    obtain ⟨filled, delivered, hstepped⟩ := stepped_of_step head
    exact ih.trans hstepped.admission.sublist

/-! ### The clock -/

/-- **The clock** moves on by the step duration with every step. -/
theorem Steps.clock {s t : Simulation n} {frames : List Frame} (h : Steps s frames t) :
    t.elapsed.microseconds =
        s.elapsed.microseconds + frames.length * s.stepDuration.microseconds ∧
      t.stepDuration = s.stepDuration := by
  induction h with
  | done => simp
  | next head _ ih =>
    obtain ⟨filled, delivered, hstepped⟩ := stepped_of_step head
    obtain ⟨helapsed, hduration⟩ := ih
    have hclock := Duration.microseconds_of_add? hstepped.clock
    rw [hstepped.stepDuration_eq] at helapsed hduration
    refine ⟨?_, hduration⟩
    rw [helapsed, hclock, List.length_cons]
    push_cast
    ring

/-- The clock has no room for as many steps as the limit allows. -/
theorem Steps.length_lt_stepLimit {s t : Simulation n} {frames : List Frame}
    (h : Steps s frames t) : frames.length < s.stepLimit := by
  by_contra hlong
  rw [not_lt] at hlong
  have hend := t.elapsed.inRange.2
  have hstart := s.elapsed.inRange.2
  have hpos := s.stepDuration.positive
  have hroom := Int.lt_ediv_add_one_mul_self
    (86400000000000000000 - s.elapsed.microseconds) hpos
  have hquotient : 0 ≤ (86400000000000000000 - s.elapsed.microseconds) /
      s.stepDuration.microseconds :=
    Int.ediv_nonneg (by omega) hpos.le
  have hcount : (86400000000000000000 - s.elapsed.microseconds) / s.stepDuration.microseconds + 1 ≤
      frames.length := by
    rw [stepLimit] at hlong
    omega
  -- that many steps would take longer than the time that is left
  have hspan := mul_le_mul_of_nonneg_right hcount hpos.le
  rw [h.clock.1] at hend
  linarith

/-! ### Runs -/

/-- Steps that succeed up to a limit, and what ends them. -/
theorem runsTo_of_advance {limit : ℕ} {s t : Simulation n} {frames frames' : Array Frame}
    {events events' : Array Event} (h : advance limit s frames events = (t, .ok frames', events')) :
    ∃ made, frames'.toList = frames.toList ++ made ∧
      (RunsTo s made t ∨ Steps s made t ∧ made.length = limit) := by
  induction limit generalizing s frames events with
  | zero =>
    cases h
    exact ⟨[], (List.append_nil _).symm, .inr ⟨.done _, rfl⟩⟩
  | succ limit ih =>
    rw [advance] at h
    cases hdone : s.isDone with
    | true =>
      rw [if_pos hdone] at h
      cases h
      exact ⟨[], (List.append_nil _).symm, .inl (.done hdone)⟩
    | false =>
      -- one step, and the others from the state that it leaves
      rw [if_neg (Bool.eq_false_iff.mp hdone)] at h
      cases hstep : s.step.result with
      | error e => simp [hstep] at h
      | ok frame =>
        simp only [hstep] at h
        obtain ⟨made, hframes, hend⟩ := ih h
        refine ⟨frame :: made, ?_, ?_⟩
        · rw [hframes, Array.toList_push, List.append_assoc, List.singleton_append]
        · rcases hend with hruns | ⟨hsteps, hlength⟩
          · exact .inl (.next hdone hstep hruns)
          · exact .inr ⟨.next hstep hsteps, congrArg Nat.succ hlength⟩

theorem take_eq_advance {s : Simulation n} (hvalid : s.isValid = true) (limit : ℕ) :
    (s.take limit).simulation = (advance limit s #[] #[]).1 ∧
      (s.take limit).result = (advance limit s #[] #[]).2.1.map Array.toList := by
  rw [take, if_pos hvalid]
  exact ⟨rfl, rfl⟩

/-- A run of a valid simulation makes steps up to the limit. -/
theorem run_eq_advance {s : Simulation n} (hvalid : s.isValid = true) :
    s.run.simulation = (advance s.stepLimit s #[] #[]).1 ∧
      s.run.result = (advance s.stepLimit s #[] #[]).2.1.map Array.toList := by
  obtain ⟨hsimulation, hresult⟩ := take_eq_advance hvalid s.stepLimit
  rw [← hsimulation, ← hresult, run, if_pos hvalid]
  cases hmade : (s.take s.stepLimit).result <;> simp only [hmade, and_self]

theorem run_of_not_isValid {s : Simulation n} (hvalid : s.isValid = false) :
    s.run.simulation = s ∧ s.run.result = .ok [] := by
  rw [run, if_neg (Bool.eq_false_iff.mp hvalid)]
  exact ⟨rfl, rfl⟩

/-- At most so many steps, if they succeed, are steps in a row. -/
theorem steps_of_take {limit : ℕ} {s : Simulation n} {frames : List Frame}
    (h : (s.take limit).result = .ok frames) : Steps s frames (s.take limit).simulation := by
  cases hvalid : s.isValid with
  | true =>
    obtain ⟨hsimulation, hresult⟩ := take_eq_advance hvalid limit
    rw [hsimulation]
    rw [hresult] at h
    cases hmade : advance limit s #[] #[] with
    | mk t made =>
    obtain ⟨result, events⟩ := made
    rw [hmade] at h
    cases result with
    | error e => cases h
    | ok frames' =>
      cases h
      obtain ⟨made, hframes, hend⟩ := runsTo_of_advance hmade
      have heq : frames'.toList = made := hframes
      rw [heq]
      exact hend.elim RunsTo.steps And.left
  | false =>
    -- an invalid simulation is left alone
    rw [take, if_neg (Bool.eq_false_iff.mp hvalid)] at h ⊢
    cases h
    exact .done s

/-- **Runs that succeed** make no step of a simulation that is not valid, and otherwise step until
it is done. -/
theorem run_eq_ok {s : Simulation n} {frames : List Frame} (h : s.run.result = .ok frames) :
    (s.isValid = false ∧ frames = [] ∧ s.run.simulation = s) ∨
      RunsTo s frames s.run.simulation := by
  cases hvalid : s.isValid with
  | true =>
    right
    obtain ⟨hsimulation, hresult⟩ := run_eq_advance hvalid
    rw [hsimulation]
    rw [hresult] at h
    cases hmade : advance s.stepLimit s #[] #[] with
    | mk t made =>
    obtain ⟨result, events⟩ := made
    rw [hmade] at h
    cases result with
    | error e => cases h
    | ok frames' =>
      cases h
      obtain ⟨made, hframes, hend⟩ := runsTo_of_advance hmade
      have heq : frames'.toList = made := hframes
      rcases hend with hruns | ⟨hsteps, hlength⟩
      · exact heq ▸ hruns
      · -- the limit is out of reach, so it is not what ended the run
        exact absurd hlength hsteps.length_lt_stepLimit.ne
  | false =>
    left
    obtain ⟨hsimulation, hresult⟩ := run_of_not_isValid hvalid
    rw [hresult] at h
    cases h
    exact ⟨rfl, rfl, hsimulation⟩

end ChargingSite.Simulation
