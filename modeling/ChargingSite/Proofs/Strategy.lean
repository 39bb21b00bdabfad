import ChargingSite.Charger
import ChargingSite.Proofs.Error
import Mathlib.Data.Rat.Floor
import Mathlib.Tactic.Linarith

/-!
# Whole steps

`stepsFor w s` is the least number of steps of `s` watts that covers `w` watts (`stepsFor_le_iff`),
so it is the quotient rounded up (`stepsFor_eq_ceil`).  What a vehicle is granted first, at least
the least charge power and at most one step unless the least charge power is more, always takes the
same number of steps (`stepsFor_first_grant`).  A granular installation is made exactly if its step
is positive and its budget covers that number (`create?_granular_eq_ok_iff`).
-/

namespace ChargingSite

/-! ### Counting steps -/

/-- **Steps cover watts**: `k` steps are enough for `w` watts exactly if they add up to as much. -/
theorem stepsFor_le_iff {w s k : ℤ} (hs : 0 < s) : stepsFor w s ≤ k ↔ w ≤ k * s := by
  rw [stepsFor, neg_le, Int.le_ediv_iff_mul_le hs, Int.neg_mul, neg_le_neg_iff]

theorem lt_stepsFor_iff {w s k : ℤ} (hs : 0 < s) : k < stepsFor w s ↔ k * s < w := by
  rw [← not_le, stepsFor_le_iff hs, not_le]

theorem stepsFor_eq_ceil {w s : ℤ} (hs : 0 < s) : stepsFor w s = ⌈(w : ℚ) / s⌉ := by
  obtain ⟨d, rfl⟩ := Int.eq_ofNat_of_zero_le hs.le
  exact (Rat.ceil_intCast_div_natCast w d).symm

theorem ediv_eq_floor {w s : ℤ} (hs : 0 < s) : w / s = ⌊(w : ℚ) / s⌋ := by
  obtain ⟨d, rfl⟩ := Int.eq_ofNat_of_zero_le hs.le
  exact (Rat.floor_intCast_div_natCast w d).symm

theorem stepsFor_mono {v w s : ℤ} (hs : 0 < s) (h : v ≤ w) : stepsFor v s ≤ stepsFor w s := by
  rw [stepsFor_le_iff hs]
  exact h.trans ((stepsFor_le_iff hs).mp le_rfl)

@[simp] theorem stepsFor_zero (s : ℤ) : stepsFor 0 s = 0 := by
  simp [stepsFor]

/-- One step more takes one step more. -/
theorem stepsFor_add_step {s : ℤ} (hs : 0 < s) (w : ℤ) : stepsFor (w + s) s = stepsFor w s + 1 := by
  have hquotient : -(w + s) / s = -w / s + -1 := by
    rw [← Int.add_mul_ediv_right (-w) (-1) hs.ne']
    congr 1
    ring
  rw [stepsFor, hquotient, stepsFor]
  ring

theorem stepsFor_nonneg {w s : ℤ} (hs : 0 < s) (hw : 0 ≤ w) : 0 ≤ stepsFor w s := by
  have := stepsFor_mono hs hw
  rwa [stepsFor_zero] at this

/-- The number of steps that the least charge power takes. -/
def firstSteps (step : Power) : ℤ :=
  stepsFor minimumCharge.watts step.watts

theorem firstSteps_pos {step : Power} (hs : 0 < step.watts) : 0 < firstSteps step := by
  rw [firstSteps, lt_stepsFor_iff hs, zero_mul]
  decide

/-- Every first grant takes the same number of steps. -/
theorem stepsFor_first_grant {step : Power} {w : ℤ} (hs : 0 < step.watts)
    (hlow : minimumCharge.watts ≤ w) (hhigh : w ≤ max step.watts minimumCharge.watts) :
    stepsFor w step.watts = firstSteps step := by
  apply le_antisymm _ (stepsFor_mono hs hlow)
  rcases le_total step.watts minimumCharge.watts with hle | hle
  · rw [max_eq_right hle] at hhigh
    exact stepsFor_mono hs hhigh
  · -- a single step covers the grant
    rw [max_eq_left hle] at hhigh
    have hone : stepsFor w step.watts ≤ 1 := by
      rw [stepsFor_le_iff hs, one_mul]
      exact hhigh
    exact hone.trans (firstSteps_pos hs)

/-! ### Accepted installations -/

theorem checkBudget_eq_ok_iff {grid step : ℤ} :
    checkBudget grid step = .ok () ↔
      0 < step ∧ stepsFor minimumCharge.watts step ≤ grid / step := by
  unfold checkBudget
  split_ifs with hstep hbudget
  · -- a step that is not positive is refused first
    simp [hstep.not_gt]
  · -- the message of a refusal may fail on its own, and it is a refusal all the same
    simp only [hbudget.not_ge, and_false, iff_false]
    cases Binary64.quotient? (grid / step * step) 1000 <;> simp [liftNumber, bind, Except.bind]
  · simp only [true_iff]
    omega

/-- **Accepted granular installations**: the step is a whole number of watts, it is positive, and
the whole steps of the grid connection cover the least charge power. -/
theorem create?_granular_eq_ok_iff {grid : Power} {plugs : ℤ} {stepKw capKw : Binary64}
    {i : Installation} :
    Installation.create? grid (.granular plugs stepKw capKw) = .ok i ↔
      i = ⟨grid, .granular plugs stepKw capKw⟩ ∧ ∃ step, Power.ofKilowatts? stepKw = .ok step ∧
        0 < step.watts ∧ firstSteps step ≤ grid.watts / step.watts := by
  unfold Installation.create?
  simp only [bind_eq_ok_iff, liftNumber_eq_ok_iff, pure_eq_ok_iff]
  constructor
  · rintro ⟨step, hstep, _, hbudget, rfl⟩
    exact ⟨rfl, step, hstep, checkBudget_eq_ok_iff.mp hbudget⟩
  · rintro ⟨rfl, step, hstep, hbudget⟩
    exact ⟨step, hstep, (), checkBudget_eq_ok_iff.mpr hbudget, rfl⟩

theorem budget_of_create? {grid step : Power} {plugs : ℤ} {stepKw capKw : Binary64}
    {i : Installation} (hi : Installation.create? grid (.granular plugs stepKw capKw) = .ok i)
    (hstep : Power.ofKilowatts? stepKw = .ok step) :
    0 < step.watts ∧ firstSteps step ≤ grid.watts / step.watts := by
  obtain ⟨-, step', hstep', hbudget⟩ := create?_granular_eq_ok_iff.mp hi
  rw [hstep] at hstep'
  cases hstep'
  exact hbudget

end ChargingSite
