import ChargingSite.Proofs.Charger.GranularStation

/-!
# The ramp of a granular plug

How the power of a granular plug changes from one re-allocation to the next (`granular_ramp`).  A
plug keeps what it has, or it gets at least the least charge power and at most one step more than it
had, within its cap (`RampsTo`).  The cap and the step give way to the least charge power.

So the simple law, at most one step more each time, holds of plugs that have power
(`RampsTo.stepsFor_le`).  A plug without power is granted the steps of the least charge power at
once, which are several where a step is smaller than that (`RampsTo.stepsFor_eq`).
-/

namespace ChargingSite

variable {n : ℕ} {fleet : Fleet n} {budget before after : ℤ} {step cap : Power}

/-! ### Watts before and after -/

/-- What a re-allocation may make of the watts of a plug, for a step and a cap in watts. -/
def RampsTo (step cap old new : ℤ) : Prop :=
  new = old ∨ minimumCharge.watts ≤ new ∧ new ≤ max (min (old + step) cap) minimumCharge.watts

/-- Whoever has power gets at most one step more. -/
theorem RampsTo.stepsFor_le {s cap old new : ℤ} (h : RampsTo s cap old new) (hs : 0 < s)
    (hold : minimumCharge.watts ≤ old) : stepsFor new s ≤ stepsFor old s + 1 := by
  rw [← stepsFor_add_step hs]
  apply stepsFor_mono hs
  rcases h with hsame | ⟨-, hle⟩
  · omega
  · omega

/-- Whoever gets power after having none gets the steps of the least charge power. -/
theorem RampsTo.stepsFor_eq {cap new : ℤ} (h : RampsTo step.watts cap 0 new)
    (hs : 0 < step.watts) (hnew : new ≠ 0) : stepsFor new step.watts = firstSteps step := by
  rcases h with hsame | ⟨hlow, hle⟩
  · exact absurd hsame hnew
  · apply stepsFor_first_grant hs hlow
    omega

/-! ### One visit -/

/-- **Every offer is on the ramp**: one step more within the cap, or what the plug has, which is
within the cap already. -/
theorem Occupant.IsCapped.max_offer_le {o : Occupant n} (hcapped : o.IsCapped cap)
    (hs : 0 < step.watts) (ho : o.IsWaiting ∨ o.IsPowered) :
    max (granularOffer budget step cap before o).watts minimumCharge.watts ≤
      max (min (o.allocated.watts + step.watts) cap.watts) minimumCharge.watts := by
  rw [granularOffer]
  split_ifs
  · exact le_rfl
  · -- no step is left, and the plug is offered what it has
    rw [IsCapped] at hcapped
    rcases ho with hwaiting | hpowered
    · rw [IsWaiting] at hwaiting
      have hmin : (0 : ℤ) ≤ minimumCharge.watts := by decide
      omega
    · rw [IsPowered] at hpowered
      omega

theorem rampsTo_of_granularVisit {o : Occupant n} {v : Visit n} (hs : 0 < step.watts)
    (ho : o.IsWaiting ∨ o.IsPowered) (hcapped : o.IsCapped cap)
    (h : granularVisit fleet budget step cap before o = .ok (v, after)) :
    RampsTo step.watts cap.watts o.allocated.watts v.occupant.allocated.watts := by
  rw [granularVisit_eq_ok_iff] at h
  obtain ⟨-, rfl, -⟩ | ⟨request, hrequest, ⟨-, rfl, -⟩ | ⟨-, rfl, -⟩⟩ := h
  · -- whoever leaves keeps its power
    exact .inl rfl
  · -- between the least charge power and what was offered
    right
    constructor
    · exact Vehicle.minimumCharge_le_of_request? hrequest
    · exact (Vehicle.request?_le_max hrequest).trans (hcapped.max_offer_le hs ho)
  · -- whoever is refused keeps its power
    exact .inl rfl

/-! ### One re-allocation -/

/-- An occupant before and after a re-allocation that it stays through. -/
structure Occupant.Ramps (step cap : Power) (o o' : Occupant n) : Prop where
  entry_eq : o'.entry = o.entry
  granted : o.IsWaiting ∨ o.IsPowered
  rampsTo : RampsTo step.watts cap.watts o.allocated.watts o'.allocated.watts

/-- **A re-allocation** of an orderly charger within its cap puts everybody who stays on its
ramp. -/
theorem Orderly.forall₂_ramps {os : List (Occupant n)} {vs : List (Visit n)} {last : ℤ}
    (ho : Orderly budget step os) (hs : 0 < step.watts) (hcapped : ∀ o ∈ os, o.IsCapped cap)
    (h : Visited (granularVisit fleet budget step cap) (stepsInUse step os) os vs last) :
    List.Forall₂ (Occupant.Ramps step cap)
      (os.filter fun o => !(o.vehicleIn fleet).isFinished) (staying vs) := by
  apply forall₂_staying
  apply h.forall₂_of_count_le hs ho.granted ho.inUse_le
  intro o hmem c v c' _ hvisit
  have hof := of_granularVisit hvisit
  have hramps := rampsTo_of_granularVisit hs (ho.granted o hmem) (hcapped o hmem) hvisit
  exact ⟨hof.leaving_eq, Prod.ext hof.id_eq hof.vehicle_eq, ho.granted o hmem, hramps⟩

/-- Without a cap in watts nobody has power. -/
theorem Served.isWaiting_of_cap_error {grid : Power} {plugs : ℤ} {stepKw capKw : Binary64}
    {e : NumberError} {calls : List (Call n)} {t : Station n}
    (h : Served ⟨grid, .granular plugs stepKw capKw⟩ calls t)
    (hstep : Power.ofKilowatts? stepKw = .ok step) (hcap : Power.ofKilowatts? capKw = .error e) :
    ∀ o ∈ t.charger.occupants, o.IsWaiting := by
  refine (h.invariant (P := fun c => ∀ o ∈ c.occupants, o.IsWaiting)
    ?idle ?occupy ?reallocate).2
  case idle => simp [Charger.idle]
  case occupy =>
    intro c vehicle id _ _ hold o hmem
    rcases Charger.mem_occupy hmem with hmem | hnew
    · exact hold o hmem
    · exact hnew
  case reallocate =>
    intro c fleet vs hi hvs _
    -- no re-allocation succeeds
    obtain ⟨cap, last, hcap', -⟩ := hvs.visited_granular hi hstep
    rw [hcap] at hcap'
    cases hcap'

/-! ### The ramp -/

/-- **The ramp of a granular plug.**  At every served granular station each occupant has no power,
or at least the least charge power and at most the cap, lifted to the least charge power.  A
successful re-allocation takes those whose vehicles have not finished, in their order, from what
they had to the same or to at least the least charge power and at most one step more within the cap,
lifted likewise.  So the whole steps of a plug with power grow by at most one, and a plug that had
none gets the steps of the least charge power when it is granted any. -/
theorem granular_ramp {grid : Power} {plugs : ℤ} {stepKw capKw : Binary64} {i : Installation}
    {calls : List (Call n)} {t : Station n}
    (hi : Installation.create? grid (.granular plugs stepKw capKw) = .ok i)
    (h : Served i calls t) :
    (∀ o ∈ t.charger.occupants, o.allocated.watts = 0 ∨
      ∃ cap, Power.ofKilowatts? capKw = .ok cap ∧ 5000 ≤ o.allocated.watts ∧
        o.allocated.watts ≤ max cap.watts 5000) ∧
    ∀ c' departed, t.charger.reallocate t.fleet = (c', .ok departed) →
      ∃ step cap, Power.ofKilowatts? stepKw = .ok step ∧ 0 < step.watts ∧
        Power.ofKilowatts? capKw = .ok cap ∧
        List.Forall₂
          (fun o o' => (o'.id, o'.vehicle) = (o.id, o.vehicle) ∧
            (o'.allocated.watts = o.allocated.watts ∨
              5000 ≤ o'.allocated.watts ∧ o'.allocated.watts ≤
                max (min (o.allocated.watts + step.watts) cap.watts) 5000) ∧
            (0 < o.allocated.watts → ⌈(o'.allocated.watts : ℚ) / step.watts⌉ ≤
              ⌈(o.allocated.watts : ℚ) / step.watts⌉ + 1) ∧
            (o.allocated.watts = 0 → o'.allocated.watts ≠ 0 →
              ⌈(o'.allocated.watts : ℚ) / step.watts⌉ = ⌈(5000 : ℚ) / step.watts⌉))
          (t.charger.occupants.filter fun o => !(o.vehicleIn t.fleet).isFinished)
          c'.occupants := by
  obtain ⟨rfl, step, hstep, hs, hbudget⟩ := create?_granular_eq_ok_iff.mp hi
  have ho := h.orderly hstep hs ((firstSteps_pos hs).le.trans hbudget)
  constructor
  · intro o hmem
    cases hcap : Power.ofKilowatts? capKw with
    | error e =>
      -- nobody has been granted anything yet, as every re-allocation fails
      exact .inl (h.isWaiting_of_cap_error hstep hcap o hmem)
    | ok cap =>
      rcases ho.granted o hmem with hwaiting | hpowered
      · exact .inl hwaiting
      · exact .inr ⟨cap, rfl, hpowered, h.capped hstep hcap o hmem⟩
  · intro c' departed hmade
    obtain ⟨vs, hvs, rfl, -⟩ := reallocated_of_reallocate hmade
    obtain ⟨cap, last, hcap, hvisited⟩ := hvs.visited_granular h.toInstallation_eq hstep
    refine ⟨step, cap, hstep, hs, hcap, ?_⟩
    refine (ho.forall₂_ramps hs (h.capped hstep hcap) hvisited).imp fun o o' hramps => ?_
    refine ⟨hramps.entry_eq, hramps.rampsTo, fun hpositive => ?_, fun hnothing hnew => ?_⟩
    · -- who had power gets one step more at most
      have hpowered : o.IsPowered := hramps.granted.resolve_left hpositive.ne'
      rw [← stepsFor_eq_ceil hs, ← stepsFor_eq_ceil hs]
      exact hramps.rampsTo.stepsFor_le hs hpowered
    · -- who had none starts with the least charge power
      have hfirst := hramps.rampsTo
      rw [hnothing] at hfirst
      rw [← stepsFor_eq_ceil hs, hfirst.stepsFor_eq hs hnew]
      exact stepsFor_eq_ceil hs

/-! ### A station to look at -/

/-- Two sample vehicles at five steps of 3 kW, with a cap of 7 kW: the first has had its first grant
when the second plugs in. -/
def rampingPair : Station 2 :=
  { samplePair with
    charger := { samplePair.charger with grid := ⟨15000⟩, strategy := .granular 2 3 7 } }

theorem served_rampingPair :
    Served ⟨⟨15000⟩, .granular 2 3 7⟩ [.plugIn 0 0, .reallocate, .plugIn 1 1] rampingPair := by
  refine served_of_callAll? rampingPair.fleet ?_
  decide +kernel

/-- The first goes up to its cap, which is less than one step more, and the second from nothing to
5 kW, which takes two steps at once. -/
theorem rampingPair_ramp :
    ∃ c', rampingPair.charger.reallocate rampingPair.fleet = (c', .ok []) ∧
      c'.occupants = [⟨0, 0, ⟨7000⟩⟩, ⟨1, 1, ⟨5000⟩⟩] ∧
      ∃ step cap, Power.ofKilowatts? 3 = .ok step ∧ Power.ofKilowatts? 7 = .ok cap ∧
        List.Forall₂
          (fun o o' => o'.allocated.watts = o.allocated.watts ∨
            5000 ≤ o'.allocated.watts ∧ o'.allocated.watts ≤
              max (min (o.allocated.watts + step.watts) cap.watts) 5000)
          rampingPair.charger.occupants c'.occupants := by
  have hi : Installation.create? ⟨15000⟩ (.granular 2 3 7) = .ok ⟨⟨15000⟩, .granular 2 3 7⟩ := by
    decide +kernel
  have hmade : rampingPair.charger.reallocate rampingPair.fleet =
      ({ rampingPair.charger with occupants := [⟨0, 0, ⟨7000⟩⟩, ⟨1, 1, ⟨5000⟩⟩] }, .ok []) := by
    decide +kernel
  have hstay : (rampingPair.charger.occupants.filter fun o =>
      !(o.vehicleIn rampingPair.fleet).isFinished) = rampingPair.charger.occupants := by
    decide +kernel
  obtain ⟨-, hramp⟩ := granular_ramp hi served_rampingPair
  obtain ⟨step, cap, hstep, -, hcap, hramps⟩ := hramp _ _ hmade
  rw [hstay] at hramps
  exact ⟨_, hmade, rfl, step, cap, hstep, hcap, hramps.imp fun _ _ h => h.2.1⟩

end ChargingSite
