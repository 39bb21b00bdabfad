import ChargingSite.Proofs.Charger.GranularStation

/-!
# The limit of the curve

After every successful re-allocation nobody is granted more than the charge curve of its vehicle
allows at its present state of charge, the least charge power apart (`granted_within_curve`).

A granted request is within that limit by itself (`Vehicle.request?_le_allowed`).  What needs an
argument is a granular plug that is refused and keeps what it was granted earlier, perhaps at
another state of charge.  While the steps in use are within the budget, whoever is powered is never
refused (`Occupant.IsPowered.request_fits`), so one who is refused waits and keeps nothing.
-/

namespace ChargingSite

variable {n : ℕ} {fleet : Fleet n}

/-- The occupant has no more than the curve of its vehicle allows now, or than the least charge
power. -/
def Occupant.WithinCurve (fleet : Fleet n) (o : Occupant n) : Prop :=
  ∃ allowed, (o.vehicleIn fleet).Allows allowed ∧
    o.allocated.watts ≤ max allowed.watts minimumCharge.watts

/-! ### One visit -/

theorem withinCurve_of_flatVisit {offer : Power} {u u' : Unit} {o : Occupant n} {v : Visit n}
    (h : flatVisit fleet offer u o = .ok (v, u')) (hstays : v.leaving = false) :
    v.occupant.WithinCurve fleet := by
  obtain ⟨-, rfl⟩ | ⟨request, hrequest, rfl⟩ := flatVisit_eq_ok_iff.mp h
  · cases hstays
  · exact Vehicle.request?_le_allowed hrequest

theorem withinCurve_of_granularVisit {budget : ℤ} {step cap : Power} {before after : ℤ}
    {o : Occupant n} {v : Visit n} (hs : 0 < step.watts) (ho : o.IsWaiting ∨ o.IsPowered)
    (hbefore : before ≤ budget)
    (h : granularVisit fleet budget step cap before o = .ok (v, after))
    (hstays : v.leaving = false) : v.occupant.WithinCurve fleet := by
  rw [granularVisit_eq_ok_iff] at h
  obtain ⟨-, rfl, -⟩ | ⟨request, hrequest, ⟨-, rfl, -⟩ | ⟨hover, rfl, -⟩⟩ := h
  · cases hstays
  · exact Vehicle.request?_le_allowed hrequest
  · -- refused, so it waits, and nothing is within every limit
    obtain ⟨allowed, hallowed, -⟩ := Vehicle.request?_le_allowed hrequest
    rcases ho with hwaiting | hpowered
    · have hnothing : o.allocated.watts = 0 := hwaiting
      refine ⟨allowed, hallowed, ?_⟩
      rw [hnothing]
      exact le_max_of_le_right (by decide)
    · exact absurd (hpowered.request_fits hs hbefore hrequest) (not_le.mpr hover)

/-! ### One re-allocation -/

/-- **Nobody is granted more than its curve allows.**  After every successful re-allocation at a
served station, whatever its strategy, everybody who is left has a charge power that its curve
allows at its present state of charge, and is granted no more than that or than the least charge
power. -/
theorem granted_within_curve {grid : Power} {strategy : Strategy} {i : Installation}
    {calls : List (Call n)} {t : Station n} {c' : Charger n} {departed : List ℤ}
    (hi : Installation.create? grid strategy = .ok i) (h : Served i calls t)
    (hmade : t.charger.reallocate t.fleet = (c', .ok departed)) :
    ∀ o ∈ c'.occupants, ∃ allowed, (o.vehicleIn t.fleet).Allows allowed ∧
      o.allocated.watts ≤ max allowed.watts 5000 := by
  obtain ⟨vs, hvs, rfl, -⟩ := reallocated_of_reallocate hmade
  have hcharger := h.toInstallation_eq
  obtain rfl := Installation.eq_of_create? hi
  cases hvs with
  | flat _ hvisited =>
    -- every flat visit grants a request, which is within the curve
    exact hvisited.forall_staying fun _ _ _ _ => withinCurve_of_flatVisit
  | @granular plugs stepKw capKw step cap last _ hstrategy hstep _ hvisited =>
    have hgrid : t.charger.grid = grid := congrArg Installation.grid hcharger
    obtain rfl : t.charger.strategy = strategy := congrArg Installation.strategy hcharger
    rw [hstrategy] at hi h
    obtain ⟨hs, hbudget⟩ := budget_of_create? hi hstep
    have ho := h.orderly hstep hs ((firstSteps_pos hs).le.trans hbudget)
    -- within the budget no plug with power is refused, so none keeps more than it asks for
    rw [hgrid] at hvisited
    refine hvisited.forall_staying_of_count_le hs ho.granted ho.inUse_le ?_
    intro o hmem before v after hbefore hvisit
    exact withinCurve_of_granularVisit hs (ho.granted o hmem) hbefore hvisit

/-! ### A vehicle whose curve falls -/

/-- A vehicle with an empty battery of 40 kWh that takes 11 kW at 0 % and 1 kW at 100 %. -/
def Vehicle.tapering : Vehicle where
  model := { Vehicle.sample.model with
    name := "Tapering"
    curve := ⟨[⟨.ofHundredths 0, ⟨11000⟩⟩, ⟨.ofHundredths 10000, ⟨1000⟩⟩], by decide, by decide⟩
    spansFully := by decide }
  energy := ⟨0⟩
  unplugAt := ⟨30000⟩

/-- Two tapering vehicles at three steps of 3 kW: the first climbs to 8 kW and is then half full,
the second waits. -/
def taperingPair : Station 2 where
  fleet := #v[{ Vehicle.tapering with energy := ⟨20000⟩ }, .tapering]
  charger := {
    grid := ⟨9000⟩
    strategy := .granular 2 3 11
    occupants := [⟨0, ⟨0, Nat.two_pos⟩, ⟨8000⟩⟩, ⟨1, ⟨1, Nat.one_lt_two⟩, ⟨0⟩⟩] }

theorem served_taperingPair :
    Served ⟨⟨9000⟩, .granular 2 3 11⟩ [.plugIn 0 0, .plugIn 1 1, .reallocate, .reallocate,
      .change 0 ⟨20000⟩ ⟨30000⟩] taperingPair := by
  refine served_of_callAll? #v[.tapering, .tapering] ?_
  decide +kernel

/-- Half full, the first vehicle is granted 6 kW instead of the 8 kW that it had, and no more is
allowed; the second is refused again and keeps nothing. -/
theorem taperingPair_within_curve :
    ∃ c', taperingPair.charger.reallocate taperingPair.fleet = (c', .ok []) ∧
      c'.occupants = [⟨0, 0, ⟨6000⟩⟩, ⟨1, 1, ⟨0⟩⟩] ∧
      ∀ o ∈ c'.occupants, ∃ allowed, (o.vehicleIn taperingPair.fleet).Allows allowed ∧
        o.allocated.watts ≤ max allowed.watts 5000 := by
  have hi : Installation.create? ⟨9000⟩ (.granular 2 3 11) = .ok ⟨⟨9000⟩, .granular 2 3 11⟩ := by
    decide +kernel
  have hmade : taperingPair.charger.reallocate taperingPair.fleet =
      ({ taperingPair.charger with occupants := [⟨0, 0, ⟨6000⟩⟩, ⟨1, 1, ⟨0⟩⟩] }, .ok []) := by
    decide +kernel
  exact ⟨_, hmade, rfl, granted_within_curve hi served_taperingPair hmade⟩

end ChargingSite
