import ChargingSite.Proofs.Error
import ChargingSite.Proofs.Number.Binary64.Arithmetic
import ChargingSite.Quantity.Energy
import ChargingSite.Strategy

/-!
# The energy of a power held for a while

A power that is not negative, held for a duration that is not negative, delivers energy that is not
negative (`over?_nonneg`), and no less than the least charge power delivers if it is at least that
(`minimumCharge_over?_le`).  The hours of a duration are always finite, because durations have an
end.
-/

namespace ChargingSite

/-! ### Seconds and hours -/

namespace Duration

variable {d : Duration}

theorem toRat_seconds_mem (hd : 0 ≤ d.microseconds) :
    d.seconds.isFinite = true ∧ 0 ≤ d.seconds.toRat ∧ d.seconds.toRat ≤ 86400000000000 := by
  have hexact : mkRat d.microseconds 1000000 = (d.microseconds : ℚ) / 1000000 := by
    rw [Rat.mkRat_eq_div, Nat.cast_ofNat]
  have hlow : ((0 : ℕ) : ℚ) ≤ mkRat d.microseconds 1000000 := by
    rw [hexact, Nat.cast_zero]
    exact div_nonneg (by exact_mod_cast hd) (by norm_num)
  have hhigh : mkRat d.microseconds 1000000 ≤ ((86400000000000 : ℕ) : ℚ) := by
    have hend : (d.microseconds : ℚ) ≤ 86400000000000000000 := by
      exact_mod_cast d.inRange.2.le
    rw [hexact, div_le_iff₀ (by norm_num)]
    refine hend.trans (le_of_eq ?_)
    norm_num
  obtain ⟨hfinite, hlow, hhigh⟩ := Binary64.toRat_round_mem (by norm_num) hlow hhigh false
  exact ⟨hfinite, by exact_mod_cast hlow, by exact_mod_cast hhigh⟩

theorem toRat_hours_mem (hd : 0 ≤ d.microseconds) :
    d.hours.isFinite = true ∧ 0 ≤ d.hours.toRat ∧ d.hours.toRat ≤ 24000000000 := by
  obtain ⟨hfinite, hlow, hhigh⟩ := toRat_seconds_mem hd
  have h3600 : (3600 : Binary64).isFinite = true ∧ (3600 : Binary64).toRat = (3600 : ℕ) :=
    Binary64.toRat_ofInt_natCast (n := 3600) (by norm_num)
  have h3600' : (3600 : Binary64).toRat = 3600 := by
    rw [h3600.2, Nat.cast_ofNat]
  rw [hours, Binary64.div_of_isFinite hfinite h3600.1 (by rw [h3600']; norm_num), h3600']
  have hlow' : ((0 : ℕ) : ℚ) ≤ d.seconds.toRat / 3600 := by
    rw [Nat.cast_zero]
    exact div_nonneg hlow (by norm_num)
  have hhigh' : d.seconds.toRat / 3600 ≤ ((24000000000 : ℕ) : ℚ) := by
    rw [div_le_iff₀ (by norm_num)]
    refine hhigh.trans (le_of_eq ?_)
    norm_num
  obtain ⟨hfinite, hlow, hhigh⟩ := Binary64.toRat_round_mem (by norm_num) hlow' hhigh' _
  exact ⟨hfinite, by exact_mod_cast hlow, by exact_mod_cast hhigh⟩

end Duration

/-! ### Energies -/

namespace Power

variable {p : Power} {d : Duration} {e least : Energy}

theorem over?_eq_ok_iff :
    p.over? d = .ok e ↔
      (Binary64.ofInt p.watts).isFinite = true ∧ e = ⟨Binary64.ofInt p.watts * d.hours⟩ := by
  unfold over? Binary64.ofInt?
  rw [bind_eq_ok_iff]
  by_cases hfinite : (Binary64.ofInt p.watts).isFinite = true
  · simp only [hfinite, ↓reduceIte, Except.ok.injEq, exists_eq_left', pure_eq_ok_iff, true_and]
    exact eq_comm
  · -- the watts are beyond the doubles, and only that fails
    simp [hfinite]

theorem toRat_ofInt_nonneg (hp : 0 ≤ p.watts) (hfinite : (Binary64.ofInt p.watts).isFinite = true) :
    0 ≤ (Binary64.ofInt p.watts).toRat := by
  obtain ⟨hzero, hzero'⟩ := Binary64.toRat_ofInt_natCast (n := 0) (by norm_num)
  have := Binary64.toRat_ofInt_mono hp hzero hfinite
  rwa [show Binary64.ofInt 0 = Binary64.ofInt ((0 : ℕ) : ℤ) from rfl, hzero', Nat.cast_zero] at this

/-- **Energy is not negative** if power and duration are not. -/
theorem over?_nonneg (hp : 0 ≤ p.watts) (hd : 0 ≤ d.microseconds) (h : p.over? d = .ok e) :
    e.wattHours ≠ .nan ∧ 0 ≤ e.wattHours.place := by
  obtain ⟨hfinite, rfl⟩ := over?_eq_ok_iff.mp h
  obtain ⟨hhours, hhours₀, -⟩ := Duration.toRat_hours_mem hd
  exact Binary64.place_mul_nonneg hfinite hhours (toRat_ofInt_nonneg hp hfinite) hhours₀

theorem minimumCharge_over?_isFinite (hd : 0 ≤ d.microseconds)
    (h : minimumCharge.over? d = .ok least) : least.wattHours.isFinite = true := by
  obtain ⟨hfinite, rfl⟩ := over?_eq_ok_iff.mp h
  obtain ⟨hhours, hhours₀, hhours₁⟩ := Duration.toRat_hours_mem hd
  have h5000 : (Binary64.ofInt minimumCharge.watts).toRat = (5000 : ℕ) :=
    (Binary64.toRat_ofInt_natCast (n := 5000) (by norm_num)).2
  rw [Binary64.mul_of_isFinite hfinite hhours, h5000]
  -- even over the longest duration the energy stays far below the greatest double
  have hlow : ((0 : ℕ) : ℚ) ≤ (5000 : ℕ) * d.hours.toRat := by
    rw [Nat.cast_zero]
    exact mul_nonneg (by norm_num) hhours₀
  have hhigh : (5000 : ℕ) * d.hours.toRat ≤ ((120000000000000 : ℕ) : ℚ) := by
    rw [Nat.cast_ofNat, Nat.cast_ofNat]
    linarith
  exact (Binary64.toRat_round_mem (by norm_num) hlow hhigh _).1

theorem exists_minimumCharge_over? (d : Duration) : ∃ least, minimumCharge.over? d = .ok least :=
  ⟨_, over?_eq_ok_iff.mpr ⟨(Binary64.toRat_ofInt_natCast (n := 5000) (by norm_num)).1, rfl⟩⟩

/-- **At least the least charge power** delivers at least the energy of the least charge power. -/
theorem minimumCharge_over?_le (hp : minimumCharge.watts ≤ p.watts) (hd : 0 ≤ d.microseconds)
    (h : p.over? d = .ok e) (hleast : minimumCharge.over? d = .ok least) :
    least.le e = true := by
  obtain ⟨hfinite, rfl⟩ := over?_eq_ok_iff.mp h
  obtain ⟨hfinite', rfl⟩ := over?_eq_ok_iff.mp hleast
  obtain ⟨hhours, hhours₀, -⟩ := Duration.toRat_hours_mem hd
  exact Binary64.mul_le_mul_right hfinite' hfinite hhours
    (Binary64.toRat_ofInt_mono hp hfinite' hfinite) hhours₀

end Power

end ChargingSite
