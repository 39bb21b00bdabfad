import ChargingSite.Proofs.Charger.Station

/-!
# Granular stations

What holds of a granular station at all times.

* The whole steps that the allocations take up are within the budget, so the grid connection is
  never overdrawn (`served_within_budget`).
* Vehicles are served in plug-in order: those without power plugged in after all others
  (`served_waiting_last`).
* The budget check is exact: where it accepts, every re-allocation leaves somebody powered or nobody
  plugged in, and where it refuses, nobody would ever get power (`budget_check_exact`).
-/

namespace ChargingSite

variable {n : ℕ} {grid step : Power} {plugs : ℤ} {stepKw capKw : Binary64}

/-! ### Re-allocation at a granular station -/

theorem Reallocated.visited_granular {fleet : Fleet n} {c : Charger n} {vs : List (Visit n)}
    (h : Reallocated fleet c vs) (hi : c.toInstallation = ⟨grid, .granular plugs stepKw capKw⟩)
    (hstep : Power.ofKilowatts? stepKw = .ok step) :
    ∃ cap last, Power.ofKilowatts? capKw = .ok cap ∧
      Visited (granularVisit fleet (grid.watts / step.watts) step cap)
        (stepsInUse step c.occupants) c.occupants vs last := by
  have hgrid : c.grid = grid := congrArg Installation.grid hi
  have hgranular : c.strategy = .granular plugs stepKw capKw := congrArg Installation.strategy hi
  cases h with
  | flat hoffer _ => exact absurd hoffer (flatOffer_ne_ok hgranular)
  | @granular plugs' stepKw' capKw' step' cap last _ hstrategy hstep' hcap hvisited =>
    rw [hgranular] at hstrategy
    cases hstrategy
    rw [hstep] at hstep'
    cases hstep'
    rw [hgrid] at hvisited
    exact ⟨cap, last, hcap, hvisited⟩

/-- **Order lasts**: the occupants of a served granular station are orderly. -/
theorem Served.orderly {calls : List (Call n)} {t : Station n}
    (h : Served ⟨grid, .granular plugs stepKw capKw⟩ calls t)
    (hstep : Power.ofKilowatts? stepKw = .ok step) (hs : 0 < step.watts)
    (hbudget : 0 ≤ grid.watts / step.watts) :
    Orderly (grid.watts / step.watts) step t.charger.occupants := by
  refine (h.invariant (P := fun c => Orderly (grid.watts / step.watts) step c.occupants)
    ?idle ?occupy ?reallocate).2
  case idle => exact ⟨by simp [Charger.idle], List.Pairwise.nil, hbudget⟩
  case occupy =>
    intro c vehicle id _ _ ho
    exact ho.occupy vehicle id
  case reallocate =>
    intro c fleet vs hi hvs ho
    obtain ⟨cap, last, -, hvisited⟩ := hvs.visited_granular hi hstep
    exact ho.visited hs hvisited

/-- **No plug is above its cap**, the least charge power apart, at a served granular station. -/
theorem Served.capped {cap : Power} {calls : List (Call n)} {t : Station n}
    (h : Served ⟨grid, .granular plugs stepKw capKw⟩ calls t)
    (hstep : Power.ofKilowatts? stepKw = .ok step) (hcap : Power.ofKilowatts? capKw = .ok cap) :
    ∀ o ∈ t.charger.occupants, o.IsCapped cap := by
  refine (h.invariant (P := fun c => ∀ o ∈ c.occupants, o.IsCapped cap)
    ?idle ?occupy ?reallocate).2
  case idle => simp [Charger.idle]
  case occupy =>
    intro c vehicle id _ _ hold o hmem
    rcases Charger.mem_occupy hmem with hmem | hnew
    · -- an old occupant has what it had
      exact hold o hmem
    · -- a new one has nothing
      exact hnew.isCapped cap
  case reallocate =>
    intro c fleet vs hi hvs hold o hmem
    obtain ⟨cap', last, hcap', hvisited⟩ := hvs.visited_granular hi hstep
    -- the cap is a value of the configuration, the same in every re-allocation
    rw [hcap] at hcap'
    cases hcap'
    obtain ⟨v, hv, -, rfl⟩ := exists_visit_of_mem_staying hmem
    obtain ⟨o, ho, _, _, hvisit⟩ := hvisited.exists_of_mem hv
    exact capped_of_granularVisit hvisit (hold o ho)

/-! ### The budget -/

theorem allocated_le_stepsInUse (hs : 0 < step.watts) (c : Charger n) :
    c.allocated.watts ≤ stepsInUse step c.occupants * step.watts := by
  rw [Charger.allocated]
  induction c.occupants with
  | nil => simp
  | cons o os ih =>
    have hcover : o.allocated.watts ≤ heldSteps step o * step.watts :=
      (stepsFor_le_iff hs).mp le_rfl
    rw [List.map_cons, Power.watts_total_cons, stepsInUse_cons, add_mul]
    exact add_le_add hcover ih

theorem stepsInUse_eq_sum_ceil (hs : 0 < step.watts) (os : List (Occupant n)) :
    stepsInUse step os = (os.map fun o => ⌈(o.allocated.watts : ℚ) / step.watts⌉).sum := by
  rw [stepsInUse_eq_sum]
  congr 1
  exact List.map_congr_left fun o _ => stepsFor_eq_ceil hs

/-- What is carried by a granular sweep counts the steps in use: of those visited, as far as they
stay, with their new allocation, and of all others with their old one. -/
theorem carried_granular (fleet : Fleet n) (budget : ℤ) (step cap : Power)
    (visited unvisited : List (Occupant n)) :
    let w := sweep (granularVisit fleet budget step cap) (stepsInUse step (visited ++ unvisited))
      visited
    w.carried = stepsInUse step (staying w.visits ++ w.unvisited ++ unvisited) := by
  intro w
  obtain ⟨front, hsplit, hvisited⟩ := visited_sweep (granularVisit fleet budget step cap)
    (stepsInUse step (visited ++ unvisited)) visited
  -- the count has changed by what the visits before a failure have changed
  have hcount : w.carried = stepsInUse step (visited ++ unvisited) - stepsInUse step front +
      stepsInUse step (staying w.visits) := hvisited.count_eq
  have hfront : stepsInUse step visited = stepsInUse step front + stepsInUse step w.unvisited := by
    rw [← stepsInUse_append]
    exact congrArg (stepsInUse step) hsplit
  rw [hcount, stepsInUse_append, stepsInUse_append, stepsInUse_append, hfront]
  ring

/-- **The grid connection is never overdrawn.**  At every served granular station the whole steps
that the allocations take up are within the budget, so their sum is within the grid connection.
While the plugs are visited, the running count is the steps in use at that moment. -/
theorem served_within_budget {i : Installation} {calls : List (Call n)} {t : Station n}
    (hi : Installation.create? grid (.granular plugs stepKw capKw) = .ok i)
    (h : Served i calls t) :
    ∃ step, Power.ofKilowatts? stepKw = .ok step ∧ 0 < step.watts ∧
      (t.charger.occupants.map fun o => ⌈(o.allocated.watts : ℚ) / step.watts⌉).sum ≤
        ⌊(grid.watts : ℚ) / step.watts⌋ ∧
      t.charger.allocated.watts ≤ ⌊(grid.watts : ℚ) / step.watts⌋ * step.watts ∧
      ⌊(grid.watts : ℚ) / step.watts⌋ * step.watts ≤ grid.watts ∧
      ∀ (fleet : Fleet n) (cap : Power) (visited unvisited : List (Occupant n)),
        t.charger.occupants = visited ++ unvisited →
        let w := sweep (granularVisit fleet (grid.watts / step.watts) step cap)
          (stepsInUse step t.charger.occupants) visited
        w.carried = ((staying w.visits ++ w.unvisited ++ unvisited).map fun o =>
          ⌈(o.allocated.watts : ℚ) / step.watts⌉).sum := by
  obtain ⟨rfl, step, hstep, hs, hbudget⟩ := create?_granular_eq_ok_iff.mp hi
  have ho := h.orderly hstep hs ((firstSteps_pos hs).le.trans hbudget)
  refine ⟨step, hstep, hs, ?_, ?_, ?_, ?_⟩
  · -- the steps in use, read as a sum of quotients rounded up
    rw [← stepsInUse_eq_sum_ceil hs, ← ediv_eq_floor hs]
    exact ho.inUse_le
  · -- watts are covered by whole steps, and the steps by the budget
    rw [← ediv_eq_floor hs]
    calc t.charger.allocated.watts
        ≤ stepsInUse step t.charger.occupants * step.watts := allocated_le_stepsInUse hs _
      _ ≤ grid.watts / step.watts * step.watts :=
          mul_le_mul_of_nonneg_right ho.inUse_le hs.le
  · -- the steps of the budget are paid for by the grid
    rw [← ediv_eq_floor hs]
    exact Int.ediv_mul_le _ hs.ne'
  · -- the running counter of a pass that is under way
    intro fleet cap visited unvisited hsplit
    rw [hsplit]
    intro w
    rw [← stepsInUse_eq_sum_ceil hs]
    exact carried_granular fleet _ step cap visited unvisited

/-- One of two sample vehicles takes up the single step of the budget. -/
theorem samplePair_within_budget :
    ∃ step, Power.ofKilowatts? 5 = .ok step ∧ 0 < step.watts ∧
      (samplePair.charger.occupants.map fun o => ⌈(o.allocated.watts : ℚ) / step.watts⌉).sum ≤
        ⌊((9000 : ℤ) : ℚ) / step.watts⌋ ∧
      samplePair.charger.allocated.watts ≤ ⌊((9000 : ℤ) : ℚ) / step.watts⌋ * step.watts := by
  have hi : Installation.create? ⟨9000⟩ (.granular 2 5 11) = .ok ⟨⟨9000⟩, .granular 2 5 11⟩ := by
    decide +kernel
  obtain ⟨step, hstep, hs, hsteps, hsum, -, -⟩ := served_within_budget hi served_samplePair
  exact ⟨step, hstep, hs, hsteps, hsum⟩

/-! ### Plug-in order -/

/-- **Vehicles are served in plug-in order.**  The occupants of a served granular station, which are
in plug-in order, are some with power, followed by those without. -/
theorem served_waiting_last {i : Installation} {calls : List (Call n)} {t : Station n}
    (hi : Installation.create? grid (.granular plugs stepKw capKw) = .ok i)
    (h : Served i calls t) :
    (t.charger.occupants.map fun o => (o.id, o.vehicle)).Sublist (plugIns calls) ∧
      ∃ powered waiting, t.charger.occupants = powered ++ waiting ∧
        (∀ o ∈ powered, 0 < o.allocated.watts) ∧ ∀ o ∈ waiting, o.allocated.watts = 0 := by
  obtain ⟨rfl, step, hstep, hs, hbudget⟩ := create?_granular_eq_ok_iff.mp hi
  have ho := h.orderly hstep hs ((firstSteps_pos hs).le.trans hbudget)
  obtain ⟨powered, waiting, hsplit, hpowered, hwaiting⟩ := ho.waitingLast.exists_split ho.granted
  exact ⟨h.sublist_plugIns, powered, waiting, hsplit, fun o hmem => (hpowered o hmem).watts_pos,
    hwaiting⟩

/-- The second of two sample vehicles waits behind the first. -/
theorem samplePair_waiting_last :
    (samplePair.charger.occupants.map fun o => (o.id, o.vehicle)).Sublist [(0, 0), (1, 1)] ∧
      ∃ powered waiting, samplePair.charger.occupants = powered ++ waiting ∧
        (∀ o ∈ powered, 0 < o.allocated.watts) ∧ ∀ o ∈ waiting, o.allocated.watts = 0 := by
  have hi : Installation.create? ⟨9000⟩ (.granular 2 5 11) = .ok ⟨⟨9000⟩, .granular 2 5 11⟩ := by
    decide +kernel
  exact served_waiting_last hi served_samplePair

/-! ### The budget check -/

/-- After a successful re-allocation of an accepted granular charger, somebody is powered or nobody
is plugged in. -/
theorem Orderly.exists_powered_of_reallocated {fleet : Fleet n} {c : Charger n}
    {vs : List (Visit n)} (ho : Orderly (grid.watts / step.watts) step c.occupants)
    (hi : c.toInstallation = ⟨grid, .granular plugs stepKw capKw⟩)
    (hstep : Power.ofKilowatts? stepKw = .ok step) (hs : 0 < step.watts)
    (hbudget : firstSteps step ≤ grid.watts / step.watts) (hvs : Reallocated fleet c vs) :
    staying vs = [] ∨ ∃ o ∈ staying vs, o.IsPowered := by
  obtain ⟨cap, last, -, hvisited⟩ := hvs.visited_granular hi hstep
  exact hvisited.exists_powered hs ho.granted ho.waitingLast rfl hbudget

/-- Where the budget does not cover a first grant and all wait, they all wait after a re-allocation
as well, even if that fails. -/
theorem waiting_reallocate (hstep : Power.ofKilowatts? stepKw = .ok step) (hs : 0 < step.watts)
    (hbudget : grid.watts / step.watts < firstSteps step) {c : Charger n}
    (hi : c.toInstallation = ⟨grid, .granular plugs stepKw capKw⟩)
    (hwaiting : ∀ o ∈ c.occupants, o.IsWaiting) (fleet : Fleet n) :
    ∀ o ∈ (c.reallocate fleet).1.occupants, o.IsWaiting := by
  have hgrid : c.grid = grid := congrArg Installation.grid hi
  have hgranular : c.strategy = .granular plugs stepKw capKw := congrArg Installation.strategy hi
  intro o hmem
  unfold Charger.reallocate at hmem
  cases hcap : Power.ofKilowatts? capKw with
  | error e =>
    simp only [hgranular, hstep, hcap] at hmem
    exact hwaiting o hmem
  | ok cap =>
    simp only [hgranular, hstep, hcap] at hmem
    obtain ⟨visited, hsplit, hvisited⟩ := visited_sweep
      (granularVisit fleet (c.grid.watts / step.watts) step cap) (stepsInUse step c.occupants)
      c.occupants
    have hfull : c.grid.watts / step.watts < stepsInUse step c.occupants + firstSteps step := by
      rw [stepsInUse_of_waiting hwaiting, zero_add, hgrid]
      exact hbudget
    -- those visited before a failure are refused, and the others are left as they are
    rcases mem_settle hmem with ⟨v, hv, rfl⟩ | hunvisited
    · refine hvisited.stay_waiting hs hfull (fun o ho => hwaiting o ?_) v hv
      rw [hsplit]
      exact List.mem_append_left _ ho
    · refine hwaiting o ?_
      rw [hsplit]
      exact List.mem_append_right _ hunvisited

/-- **The budget check is exact.**  If it accepts a grid connection and a step, then every
successful re-allocation at a served station leaves nobody plugged in or somebody with the least
charge power, and those who leave are those whose vehicles have finished.  If it refuses them, then
vehicles without power stay without power through any number of re-allocations, whatever the
vehicles and whether the re-allocations succeed. -/
theorem budget_check_exact (hstep : Power.ofKilowatts? stepKw = .ok step) (hs : 0 < step.watts) :
    (checkBudget grid.watts step.watts = .ok () →
      ∀ (calls : List (Call n)) (t : Station n),
        Served ⟨grid, .granular plugs stepKw capKw⟩ calls t →
        ∀ c' departed, t.charger.reallocate t.fleet = (c', .ok departed) →
          (c'.occupants = [] ∨ ∃ o ∈ c'.occupants, 5000 ≤ o.allocated.watts) ∧
            t.charger.PartsWithFinished t.fleet c' departed) ∧
    (checkBudget grid.watts step.watts ≠ .ok () →
      ∀ c : Charger n, c.toInstallation = ⟨grid, .granular plugs stepKw capKw⟩ →
        (∀ o ∈ c.occupants, o.allocated.watts = 0) →
        ∀ fleets : List (Fleet n),
          ∀ o ∈ (fleets.foldl (fun c fleet => (c.reallocate fleet).1) c).occupants,
            o.allocated.watts = 0) := by
  constructor
  · -- an accepted budget has room for one first grant
    intro haccepted calls t h c' departed hmade
    obtain ⟨-, hbudget⟩ := checkBudget_eq_ok_iff.mp haccepted
    have ho := h.orderly hstep hs ((firstSteps_pos hs).le.trans hbudget)
    refine ⟨?_, partsWithFinished_of_reallocate hmade⟩
    obtain ⟨vs, hvs, rfl, -⟩ := reallocated_of_reallocate hmade
    exact ho.exists_powered_of_reallocated h.toInstallation_eq hstep hs hbudget hvs
  · -- a refused one has none, so whoever waits goes on waiting
    intro hrefused c hi hwaiting fleets
    have hbudget : grid.watts / step.watts < firstSteps step := by
      rw [ne_eq, checkBudget_eq_ok_iff, not_and, not_le] at hrefused
      exact hrefused hs
    induction fleets generalizing c with
    | nil => exact hwaiting
    | cons fleet fleets ih =>
      exact ih (c.reallocate fleet).1 ((toInstallation_reallocate fleet c).trans hi)
        (waiting_reallocate hstep hs hbudget hi hwaiting fleet)

/-- With 9 kW one of two sample vehicles is powered for good, and neither leaves; with 4 kW none
ever is powered. -/
theorem samplePair_budget_check :
    ((samplePair.charger.occupants = [] ∨
      ∃ o ∈ samplePair.charger.occupants, 5000 ≤ o.allocated.watts) ∧
      samplePair.charger.PartsWithFinished samplePair.fleet samplePair.charger []) ∧
    ∀ fleets : List (Fleet 2),
      ∀ o ∈ (fleets.foldl (fun c fleet => (c.reallocate fleet).1)
        (⟨⟨⟨4000⟩, .granular 2 5 11⟩, [⟨0, 0, ⟨0⟩⟩, ⟨1, 1, ⟨0⟩⟩]⟩ : Charger 2)).occupants,
          o.allocated.watts = 0 := by
  have hstep : Power.ofKilowatts? 5 = .ok ⟨5000⟩ := by decide +kernel
  have haccepted : checkBudget 9000 5000 = .ok () := by decide +kernel
  have hrefused : checkBudget (Power.mk 4000).watts (Power.mk 5000).watts ≠ .ok () := by
    decide +kernel
  have hmade : samplePair.charger.reallocate samplePair.fleet = (samplePair.charger, .ok []) := by
    decide +kernel
  constructor
  · exact (budget_check_exact hstep (by decide)).1 haccepted _ _ served_samplePair _ _ hmade
  · exact (budget_check_exact hstep (by decide)).2 hrefused _ rfl (by simp)

end ChargingSite
