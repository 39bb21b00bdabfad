import ChargingSite.Proofs.Charger.Station
import ChargingSite.Proofs.Quantity.Charge
import ChargingSite.Simulation.Step

/-!
# Charging

Charging changes nothing about a vehicle but its energy, which it leaves as it is or raises
(`Vehicle.RisesTo`).  A vehicle is `Fillable` if its energy reaches what it comes for in the end,
however small the steps: doubles are coarse, and an energy that is large enough swallows what a step
adds to it.  Charging all occupants raises the energy of everybody who is powered and not yet
finished (`Charged.lt`), and lowers nobody's (`Charged.risesTo`).
-/

namespace ChargingSite

variable {n : ℕ} {d : Duration}

/-! ### One vehicle -/

namespace Vehicle

variable {v v' v'' : Vehicle} {p : Power} {added : Energy}

/-- Who has a state of charge has an energy. -/
theorem energy_ne_nan {soc : Percentage} (h : v.soc? = .ok soc) : v.energy.wattHours ≠ .nan := by
  intro hnan
  unfold soc? socOf? Energy.le at h
  rw [hnan, Binary64.nan_le, if_neg Bool.false_ne_true] at h
  cases h

/-- A vehicle with a state of charge that has not finished is below what it comes for. -/
theorem lt_unplugAt (hnumber : v.unplugAt.wattHours ≠ .nan) {soc : Percentage}
    (hsoc : v.soc? = .ok soc) (hunfinished : v.isFinished = false) :
    v.energy.lt v.unplugAt = true :=
  Binary64.lt_of_not_le hnumber (energy_ne_nan hsoc) hunfinished

/-- Charging may make `v'` of `v`: it is the same vehicle, with its energy as it was or higher. -/
structure RisesTo (v v' : Vehicle) : Prop where
  model_eq : v'.model = v.model
  unplugAt_eq : v'.unplugAt = v.unplugAt
  energy : v'.energy = v.energy ∨ v.energy.le v'.energy = true

theorem RisesTo.refl (v : Vehicle) : v.RisesTo v :=
  ⟨rfl, rfl, .inl rfl⟩

theorem RisesTo.trans (h : v.RisesTo v') (h' : v'.RisesTo v'') : v.RisesTo v'' where
  model_eq := h'.model_eq.trans h.model_eq
  unplugAt_eq := h'.unplugAt_eq.trans h.unplugAt_eq
  energy := by
    rcases h.energy with heq | hle
    · -- nothing was added first
      rw [← heq]
      exact h'.energy
    · -- something was added first, and then nothing or something
      rcases h'.energy with heq' | hle'
      · rw [heq']
        exact .inr hle
      · exact .inr (Binary64.le_trans hle hle')

/-- Whoever is above the lower infinity stays above it. -/
theorem RisesTo.energy_ne (h : v.RisesTo v') (hv : v.energy.wattHours ≠ .infinity true) :
    v'.energy.wattHours ≠ .infinity true := by
  rcases h.energy with heq | hle
  · rwa [heq]
  · intro hlower
    unfold Energy.le at hle
    rw [hlower, Binary64.le_lower_infinity_iff] at hle
    exact hv hle

theorem RisesTo.le_of_le {x : Energy} (h : v.RisesTo v') (hx : v'.energy.le x = true) :
    v.energy.le x = true := by
  rcases h.energy with heq | hle
  · rwa [heq] at hx
  · exact Binary64.le_trans hle hx

theorem RisesTo.lt_of_lt_left {x : Energy} (h : v.RisesTo v') (hx : x.lt v.energy = true) :
    x.lt v'.energy = true := by
  rcases h.energy with heq | hle
  · rwa [heq]
  · exact Binary64.lt_of_lt_of_le hx hle

theorem RisesTo.lt_of_lt_right {x : Energy} (h : v.RisesTo v') (hx : v'.energy.lt x = true) :
    v.energy.lt x = true := by
  rcases h.energy with heq | hle
  · rwa [heq] at hx
  · exact Binary64.lt_of_le_of_lt hle hx

theorem RisesTo.isFinished (h : v.RisesTo v') (hv : v.isFinished = true) :
    v'.isFinished = true := by
  unfold Vehicle.isFinished at hv ⊢
  rw [h.unplugAt_eq]
  rcases h.energy with heq | hle
  · rwa [heq]
  · exact Binary64.le_trans hv hle

/-- Who has not finished either has so afterwards or is still below what it comes for. -/
theorem RisesTo.isFinished_or_lt (h : v.RisesTo v') (hlt : v.energy.lt v.unplugAt = true) :
    v.unplugAt.le v'.energy = true ∨ v'.energy.lt v'.unplugAt = true := by
  obtain ⟨hnumber, hunplug⟩ := Binary64.ne_nan_of_lt hlt
  have hnumber' : v'.energy.wattHours ≠ .nan := by
    rcases h.energy with heq | hle
    · rwa [heq]
    · exact (Binary64.ne_nan_of_le hle).2
  rw [h.unplugAt_eq]
  by_cases hle : v.unplugAt.le v'.energy = true
  · -- the threshold is reached
    exact .inl hle
  · -- it is not, and both sides are numbers
    exact .inr (Binary64.lt_of_not_le hunplug hnumber' (Bool.not_eq_true _ ▸ hle))

/-- The energy that the vehicle comes for is finite, and the least charge power, held for `d`, adds
to every energy from the present one up to there. -/
structure Fillable (d : Duration) (v : Vehicle) : Prop where
  unplugAt_isFinite : v.unplugAt.wattHours.isFinite = true
  lt_add : ∀ least x : Energy, minimumCharge.over? d = .ok least → v.energy.le x = true →
    x.lt v.unplugAt = true → x.lt (x + least) = true

theorem Fillable.risesTo (h : v.Fillable d) (hrises : v.RisesTo v') : v'.Fillable d where
  unplugAt_isFinite := by
    rw [hrises.unplugAt_eq]
    exact h.unplugAt_isFinite
  lt_add least x hleast hx hlt := by
    rw [hrises.unplugAt_eq] at hlt
    exact h.lt_add least x hleast (hrises.le_of_le hx) hlt

/-- Nothing is ever added to the lower infinity. -/
theorem Fillable.energy_ne (h : v.Fillable d) (hd : 0 ≤ d.microseconds) :
    v.energy.wattHours ≠ .infinity true := by
  intro hlower
  obtain ⟨least, hleast⟩ := Power.exists_minimumCharge_over? d
  have hfinite := Power.minimumCharge_over?_isFinite hd hleast
  have hbelow : v.energy.lt v.unplugAt = true := by
    unfold Energy.lt
    rw [hlower]
    exact Binary64.lower_infinity_lt h.unplugAt_isFinite
  have hself : v.energy.le v.energy = true := by
    unfold Energy.le
    rw [hlower]
    decide
  have hlt : v.energy.wattHours.lt (v.energy.wattHours + least.wattHours) = true :=
    h.lt_add least v.energy hleast hself hbelow
  rw [hlower, Binary64.infinity_add_of_isFinite hfinite] at hlt
  exact absurd hlt (by decide)

/-- Charging raises a vehicle, except from the lower infinity. -/
theorem risesTo_of_charge?_of_ne (hd : 0 ≤ d.microseconds)
    (hv : v.energy.wattHours ≠ .infinity true) (h : v.charge? p d = .ok (v', added)) :
    v.RisesTo v' := by
  obtain ⟨hp, hadded, rfl⟩ := charge?_eq_ok_iff.mp h
  obtain ⟨hnumber, hnonneg⟩ := Power.over?_nonneg hp hd hadded
  refine ⟨rfl, rfl, ?_⟩
  by_cases hnan : v.energy.wattHours = .nan
  · -- not a number stays not a number
    left
    show Energy.mk (v.energy.wattHours + added.wattHours) = v.energy
    have hsum : v.energy.wattHours + added.wattHours = v.energy.wattHours := by
      rw [hnan]
      cases added.wattHours <;> rfl
    rw [hsum]
  · exact .inr (Binary64.le_add_of_nonneg hnan hv hnumber hnonneg)

theorem risesTo_of_charge? (hd : 0 ≤ d.microseconds) (hv : v.Fillable d)
    (h : v.charge? p d = .ok (v', added)) : v.RisesTo v' :=
  risesTo_of_charge?_of_ne hd (hv.energy_ne hd) h

/-- Charging with the least charge power raises the energy of whoever has not finished. -/
theorem lt_of_charge? (hd : 0 ≤ d.microseconds) (hv : v.Fillable d)
    (hp : minimumCharge.watts ≤ p.watts) (hlt : v.energy.lt v.unplugAt = true)
    (h : v.charge? p d = .ok (v', added)) : v.energy.lt v'.energy = true := by
  obtain ⟨-, hadded, rfl⟩ := charge?_eq_ok_iff.mp h
  obtain ⟨least, hleast⟩ := Power.exists_minimumCharge_over? d
  have hfinite := Power.minimumCharge_over?_isFinite hd hleast
  have hself : v.energy.le v.energy = true := Binary64.le_refl (Binary64.ne_nan_of_lt hlt).1
  -- the energy of the least charge power adds, and at least that much is added
  have hleads := hv.lt_add least v.energy hleast hself hlt
  have hmore := Power.minimumCharge_over?_le hp hd hadded hleast
  exact Binary64.lt_add_of_lt_add hfinite hmore hleads

end Vehicle

/-! ### All occupants -/

/-- Charging the given occupants in a row makes the second fleet of the first. -/
inductive Charged (d : Duration) : List (Occupant n) → Fleet n → Fleet n → Prop
  /-- Nobody is charged. -/
  | done (fleet : Fleet n) : Charged d [] fleet fleet
  /-- One is charged, and then the others. -/
  | next {o : Occupant n} {v : Vehicle} {added : Energy} {os : List (Occupant n)}
      {fleet fleet' : Fleet n} (head : (o.vehicleIn fleet).charge? o.allocated d = .ok (v, added))
      (tail : Charged d os (fleet.set o.vehicle v o.vehicle.isLt) fleet') :
      Charged d (o :: os) fleet fleet'

theorem get_set_self (fleet : Fleet n) (place : Fin n) (v : Vehicle) :
    (fleet.set place v place.isLt).get place = v :=
  Vector.getElem_set_self place.isLt

theorem get_set_of_ne {place w : Fin n} (hne : place ≠ w) (fleet : Fleet n) (v : Vehicle) :
    (fleet.set place v place.isLt).get w = fleet.get w :=
  Vector.getElem_set_ne place.isLt w.isLt fun heq => hne (Fin.ext heq)

theorem risesTo_set {fleet : Fleet n} {place : Fin n} {v : Vehicle}
    (h : (fleet.get place).RisesTo v) (w : Fin n) :
    (fleet.get w).RisesTo ((fleet.set place v place.isLt).get w) := by
  by_cases hw : place = w
  · subst hw
    rwa [get_set_self]
  · rw [get_set_of_ne hw]
    exact .refl _

namespace Charged

variable {os : List (Occupant n)} {fleet fleet' : Fleet n}

/-- **Charging lowers nobody's energy**, if that of nobody who is charged is the lower infinity. -/
theorem risesTo_of_ne (hd : 0 ≤ d.microseconds) (h : Charged d os fleet fleet')
    (hos : ∀ o ∈ os, (o.vehicleIn fleet).energy.wattHours ≠ .infinity true) (w : Fin n) :
    (fleet.get w).RisesTo (fleet'.get w) := by
  induction h with
  | done => exact .refl _
  | @next o v added os fleet fleet' head _ ih =>
    obtain ⟨ho, hos⟩ := List.forall_mem_cons.mp hos
    have hset := risesTo_set (Vehicle.risesTo_of_charge?_of_ne hd ho head)
    refine (hset w).trans (ih ?_)
    -- the others are not at the lower infinity either after the first one has been charged
    intro later hlater
    exact (hset later.vehicle).energy_ne (hos later hlater)

theorem risesTo (hd : 0 ≤ d.microseconds) (h : Charged d os fleet fleet')
    (hos : ∀ o ∈ os, (o.vehicleIn fleet).Fillable d) (w : Fin n) :
    (fleet.get w).RisesTo (fleet'.get w) :=
  h.risesTo_of_ne hd (fun o ho => (hos o ho).energy_ne hd) w

/-- **Charging raises the energy** of everybody who is powered and has not finished. -/
theorem lt (hd : 0 ≤ d.microseconds) (h : Charged d os fleet fleet')
    (hos : ∀ o ∈ os, (o.vehicleIn fleet).Fillable d) {o : Occupant n} (ho : o ∈ os)
    (hpowered : o.IsPowered)
    (hlt : (o.vehicleIn fleet).energy.lt (o.vehicleIn fleet).unplugAt = true) :
    (o.vehicleIn fleet).energy.lt (o.vehicleIn fleet').energy = true := by
  induction h with
  | done => cases ho
  | @next first v added os fleet fleet' head tail ih =>
    obtain ⟨hfirst, hos⟩ := List.forall_mem_cons.mp hos
    have hset := risesTo_set (Vehicle.risesTo_of_charge? hd hfirst head)
    have hos' : ∀ later ∈ os,
        (later.vehicleIn (fleet.set first.vehicle v first.vehicle.isLt)).Fillable d := by
      intro later hlater
      exact (hos later hlater).risesTo (hset later.vehicle)
    have hrest := tail.risesTo hd hos' o.vehicle
    rcases List.mem_cons.mp ho with rfl | ho
    · -- it is charged now, and the rest of the charging does not lower it
      have hnow := Vehicle.lt_of_charge? hd hfirst hpowered hlt head
      refine hrest.lt_of_lt_left ?_
      rwa [get_set_self]
    · have hbefore := hset o.vehicle
      -- the vehicle may be on two plugs, so charging the first one may have finished it already
      rcases hbefore.isFinished_or_lt hlt with hfinished | hlt'
      · exact hrest.lt_of_lt_left (Binary64.lt_of_lt_of_le hlt hfinished)
      · exact hbefore.lt_of_lt_right (ih hos' ho hlt')

end Charged

end ChargingSite
