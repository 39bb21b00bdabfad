import ChargingSite.Proofs.Quantity.Percentage
import ChargingSite.Proofs.Vehicle

/-!
# States of charge and back

A vehicle that is created at a state of charge stores that share of its capacity, and reports the
state of charge that it was created at (`Vehicle.atSoc_reports`).  The way there and back is rounded
five times before the nearest hundredth of a percent is taken.  That is off by some parts in
`2 ^ 53` only (`VehicleModel.energyAt_approximates`, `VehicleModel.share_approximates`), while half
a hundredth of a percent is one part in 20000.  What could still get lost is a state of charge whose
energy counts as that of an empty battery; from a capacity of 10001 Wh on, only 0 % does
(`VehicleModel.energyAt_le_emptyBelow_iff`).
-/

namespace ChargingSite

open Binary64

/-! ### The energy at a state of charge -/

namespace VehicleModel

variable {m : VehicleModel} {p q : Percentage}

/-- A battery of which one hundredth of a percent is not yet empty. -/
structure IsRoomy (m : VehicleModel) : Prop where
  isFinite : m.capacity.wattHours.isFinite = true
  le_capacity : Energy.le ⟨10001⟩ m.capacity = true

theorem IsRoomy.le_toRat (hm : m.IsRoomy) : 10001 ≤ m.capacity.wattHours.toRat := by
  obtain ⟨hfinite, hvalue⟩ := toRat_ofInt_natCast (n := 10001) (by norm_num)
  have hle := (le_iff_toRat_le hfinite hm.isFinite).mp hm.le_capacity
  rwa [hvalue, Nat.cast_ofNat] at hle

/-- The energy at a state of charge is rounded twice, the fraction and the product. -/
theorem energyAt_approximates (hm : m.IsRoomy) (p : Percentage) :
    Approximates 3 (m.energyAt p).wattHours
      (m.capacity.wattHours.toRat * ((p.hundredths : ℤ) / (10000 : ℕ))) := by
  have hcapacity := hm.le_toRat
  obtain ⟨hfinite, hlow, hhigh⟩ := p.fraction_mem
  refine p.fraction_approximates.mul_left_of_isFinite (by norm_num) hm.isFinite (by linarith) ?_
    (isFinite_mul_of_le_one hm.isFinite hfinite hlow hhigh)
  rcases Nat.eq_zero_or_pos p.hundredths with hzero | hpos
  · -- an empty battery holds exactly nothing
    left
    simp [hzero]
  · -- any other one holds enough for the relative error to count
    right
    have hone : (1 : ℚ) ≤ (p.hundredths : ℤ) := by exact_mod_cast hpos
    calc (1 / 2 ^ 20 : ℚ) ≤ 10001 * (1 / (10000 : ℕ)) := by norm_num
      _ ≤ m.capacity.wattHours.toRat * ((p.hundredths : ℤ) / (10000 : ℕ)) := by gcongr

theorem energyAt_mono (hm : m.IsRoomy) (h : p ≤ q) : (m.energyAt p).le (m.energyAt q) = true := by
  have hcapacity := hm.le_toRat
  have hp := p.fraction_mem.1
  have hq := q.fraction_mem.1
  have hle := (le_iff_toRat_le hp hq).mp (Percentage.fraction_mono h)
  exact mul_le_mul_left hp hq hm.isFinite hle (by linarith)

/-- **Only 0 % is empty** in a battery that is not small. -/
theorem energyAt_le_emptyBelow_iff (hm : m.IsRoomy) :
    (m.energyAt p).le Vehicle.emptyBelow = true ↔ p.hundredths = 0 := by
  have henergy := energyAt_approximates hm p
  obtain ⟨hone, hvalue⟩ := toRat_ofInt_natCast (n := 1) (by norm_num)
  have hle : (m.energyAt p).le Vehicle.emptyBelow = true ↔ (m.energyAt p).wattHours.toRat ≤ 1 := by
    show Binary64.le _ (ofInt (1 : ℕ)) = true ↔ _
    rw [le_iff_toRat_le henergy.isFinite hone, hvalue, Nat.cast_one]
  rw [hle]
  rcases Nat.eq_zero_or_pos p.hundredths with hzero | hpos
  · have hnear := henergy.near
    rw [hzero, Nat.cast_zero, Int.cast_zero, zero_div, mul_zero] at hnear
    rw [hnear.eq_zero]
    simp [hzero]
  · -- a hundredth of a percent is at least 1.0001 Wh, and not rounded down to 1 Wh
    have hcapacity := hm.le_toRat
    have hone : (1 : ℚ) ≤ (p.hundredths : ℤ) := by exact_mod_cast hpos
    have hexact : (10001 * (1 / (10000 : ℕ)) : ℚ) ≤
        m.capacity.wattHours.toRat * ((p.hundredths : ℤ) / (10000 : ℕ)) := by gcongr
    have herror := (abs_le.mp henergy.near.abs_sub_le).1
    have hgreat : 1 < (m.energyAt p).wattHours.toRat := by
      unfold parts at herror
      norm_num at herror hexact
      linarith
    exact iff_of_false hgreat.not_ge hpos.ne'

/-- The share of the capacity is rounded once more. -/
theorem share_approximates (hm : m.IsRoomy) (p : Percentage) :
    Approximates 7 ((m.energyAt p).wattHours / m.capacity.wattHours)
      ((p.hundredths : ℤ) / (10000 : ℕ)) := by
  have hpos : 0 < m.capacity.wattHours.toRat := by linarith [hm.le_toRat]
  have hcapacity : Approximates 0 m.capacity.wattHours m.capacity.wattHours.toRat :=
    ⟨hm.isFinite, Near.refl hpos.le⟩
  have hcancel : m.capacity.wattHours.toRat * ((p.hundredths : ℤ) / (10000 : ℕ)) /
      m.capacity.wattHours.toRat = (p.hundredths : ℤ) / (10000 : ℕ) :=
    mul_div_cancel_left₀ _ hpos.ne'
  have hquotient := (energyAt_approximates hm p).div hcapacity hpos (by norm_num) (by norm_num)
  rw [hcancel] at hquotient
  exact hquotient (p.moderate_hundredths (by norm_num) (by norm_num))

end VehicleModel

/-! ### Vehicles that are created at a state of charge -/

namespace Vehicle

variable {v : Vehicle} {p q : Percentage}

/-- **The state of charge of an energy** is the one that the energy was computed from. -/
theorem socOf?_energyAt (hm : v.model.IsRoomy) (p : Percentage) :
    v.socOf? (v.model.energyAt p) = .ok p := by
  unfold socOf?
  by_cases hzero : p.hundredths = 0
  · -- an empty battery is recognised before anything is divided
    rw [if_pos ((VehicleModel.energyAt_le_emptyBelow_iff hm).mpr hzero)]
    exact congrArg Except.ok (Percentage.hundredths_injective hzero.symm)
  · -- the share that is computed is nearer to this percentage than to any other one
    rw [if_neg (mt (VehicleModel.energyAt_le_emptyBelow_iff hm).mp hzero)]
    exact Percentage.ofFraction?_of_approximates (VehicleModel.share_approximates hm p)
      (by norm_num)

theorem energyAt_le_energyAt_iff (hm : v.model.IsRoomy) :
    (v.model.energyAt p).le (v.model.energyAt q) = true ↔ p ≤ q :=
  ⟨fun h => socOf?_mono h (socOf?_energyAt hm p) (socOf?_energyAt hm q),
    VehicleModel.energyAt_mono hm⟩

/-- **A vehicle reports the states of charge that it was created at**: that at which it arrives as
its own, that at which it leaves as the one it leaves at, and it is finished exactly if the first is
not below the second.  The battery has to be finite and hold at least 10001 Wh. -/
theorem atSoc_reports {m : VehicleModel} (hfinite : m.capacity.wattHours.isFinite = true)
    (hcapacity : Energy.le ⟨10001⟩ m.capacity = true) (p q : Percentage) :
    (atSoc m p q).soc? = .ok p ∧ (atSoc m p q).unplugSoc? = .ok q ∧
      ((atSoc m p q).isFinished = true ↔ q ≤ p) := by
  have hm : (atSoc m p q).model.IsRoomy := ⟨hfinite, hcapacity⟩
  exact ⟨socOf?_energyAt hm p, socOf?_energyAt hm q, energyAt_le_energyAt_iff hm⟩

/-- A model with the given capacity in watt-hours. -/
def sampleOf (wattHours : Binary64) (h : wattHours.le 0 = false) : VehicleModel :=
  { sample.model with capacity := ⟨wattHours⟩, capacity_not_le_zero := h }

/-- The model with the least capacity at which no state of charge gets lost. -/
def leastRoomy : VehicleModel :=
  sampleOf 10001 (by decide +kernel)

/-- Neighbouring hundredths of a percent of 10001 Wh are told apart, also next to an empty
battery. -/
theorem atSoc_reports_leastRoomy :
    leastRoomy.capacity.wattHours.isFinite = true ∧
      Energy.le ⟨10001⟩ leastRoomy.capacity = true ∧
      (atSoc leastRoomy (.ofHundredths 1) (.ofHundredths 2)).soc? = .ok (.ofHundredths 1) ∧
      (atSoc leastRoomy (.ofHundredths 1) (.ofHundredths 2)).unplugSoc? = .ok (.ofHundredths 2) ∧
      (atSoc leastRoomy (.ofHundredths 1) (.ofHundredths 2)).isFinished = false := by
  have hfinite : leastRoomy.capacity.wattHours.isFinite = true := by decide +kernel
  have hcapacity : Energy.le ⟨10001⟩ leastRoomy.capacity = true := by decide +kernel
  obtain ⟨hsoc, hunplug, hfinished⟩ :=
    atSoc_reports hfinite hcapacity (.ofHundredths 1) (.ofHundredths 2)
  exact ⟨hfinite, hcapacity, hsoc, hunplug, Bool.eq_false_iff.mpr (mt hfinished.mp (by decide))⟩

/-- Of 10000 Wh one hundredth of a percent is 1 Wh, which counts as empty. -/
example : (atSoc (sampleOf 10000 (by decide +kernel)) (.ofHundredths 1) (.ofHundredths 2)).soc? =
    .ok (.ofHundredths 0) := by
  decide +kernel

end Vehicle

end ChargingSite
