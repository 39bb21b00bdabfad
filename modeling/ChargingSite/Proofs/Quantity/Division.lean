import ChargingSite.Proofs.Error
import ChargingSite.Proofs.Number.Binary64.Truncation
import ChargingSite.Quantity.Power

/-!
# Dividing power

A power is divided by an integer exactly, and by a double in doubles.  Both cut the quotient off
toward zero, so that what is left over is less than the divisor and has no other sign than the watts
(`eq_tdiv_iff_exists_remainder`).  For watts and divisors of up to 53 bits the two divisions agree
(`Power.divisions_agree`), because the rounding of the double quotient never gets to the next
integer.
-/

namespace ChargingSite

/-! ### Quotients and remainders -/

/-- A quotient that is cut off toward zero is the one whose remainder is less than the divisor, and
is zero or has the sign of the dividend. -/
theorem eq_tdiv_iff_exists_remainder {a b q : ℤ} (hb : b ≠ 0) :
    q = a.tdiv b ↔ ∃ r, a = q * b + r ∧ |r| < |b| ∧ (r = 0 ∨ r.sign = a.sign) := by
  constructor
  · -- the quotient leaves the remainder of the division
    rintro rfl
    refine ⟨a.tmod b, (Int.tdiv_mul_add_tmod a b).symm, ?_, ?_⟩
    · rw [Int.abs_eq_natAbs, Int.abs_eq_natAbs, Int.natAbs_tmod]
      exact_mod_cast Nat.mod_lt _ (Int.natAbs_pos.mpr hb)
    · by_cases hdvd : b ∣ a
      · exact .inl (Int.tmod_eq_zero_of_dvd hdvd)
      · right
        rw [Int.sign_tmod, if_neg hdvd]
  · -- of two quotients with such remainders there is one, for either sign of `a`
    rintro ⟨r, hr, hlt, hsign⟩
    rw [Int.abs_eq_natAbs b, abs_lt] at hlt
    have hsum : r + b * q = a := by rw [hr, mul_comm, add_comm]
    rcases le_total 0 a with ha | ha
    · have hr₀ : 0 ≤ r := by
        rcases hsign with rfl | hsign
        · exact le_rfl
        · rwa [← Int.sign_nonneg_iff, hsign, Int.sign_nonneg_iff]
      exact ((Int.tdiv_tmod_unique ha hb).mpr ⟨hsum, hr₀, hlt.2⟩).1.symm
    · have hr₀ : r ≤ 0 := by
        rcases hsign with rfl | hsign
        · exact le_rfl
        · rwa [← Int.sign_nonpos_iff, hsign, Int.sign_nonpos_iff]
      exact ((Int.tdiv_tmod_unique' ha hb).mpr ⟨hsum, hlt.1, hr₀⟩).1.symm

/-! ### Both divisions of power -/

/-- An integer of up to 53 bits is a zero divisor in doubles only if it is zero. -/
theorem Binary64.div?_ofInt {x : Binary64} {d : ℤ} (hd : d.natAbs < 2 ^ 53) :
    x.div? (.ofInt d) = if d = 0 then .error .doubleByZero else .ok (x / .ofInt d) := by
  obtain ⟨hfinite, hvalue⟩ := toRat_ofInt hd
  obtain ⟨hzero, hvalue₀⟩ := toRat_ofInt (n := 0) (by norm_num)
  have heq : (ofInt d).eq 0 = true ↔ d = 0 := by
    rw [show (0 : Binary64) = ofInt 0 from rfl,
      eq_iff_place_eq (ne_nan_of_isFinite hfinite) (ne_nan_of_isFinite hzero),
      place_of_isFinite hfinite, place_of_isFinite hzero, hvalue, hvalue₀, Int.cast_inj]
  unfold div?
  simp only [heq]

namespace Power

variable {p : Power} {d : ℤ}

theorem divDouble?_ofInt (hp : p.watts.natAbs < 2 ^ 53) (hd : d.natAbs < 2 ^ 53) :
    p.divDouble? (.ofInt d) =
      if d = 0 then .error .doubleByZero else .ok ⟨p.watts.tdiv d⟩ := by
  have hwatts : Binary64.ofInt? p.watts = .ok (.ofInt p.watts) :=
    if_pos (Binary64.toRat_ofInt hp).1
  have hquotient := Binary64.div?_ofInt (x := .ofInt p.watts) hd
  unfold divDouble?
  split_ifs with hd₀
  · -- the dividend becomes a double, and then the division fails
    rw [if_pos hd₀] at hquotient
    exact bind_eq_error_iff.mpr (.inr ⟨_, hwatts, bind_eq_error_iff.mpr (.inl hquotient)⟩)
  · -- the double quotient, once truncated, is the quotient of the integers
    rw [if_neg hd₀] at hquotient
    have hwhole := Binary64.truncate?_ofInt_div_ofInt hp hd hd₀
    refine bind_eq_ok_iff.mpr ⟨_, hwatts, bind_eq_ok_iff.mpr ⟨_, hquotient, ?_⟩⟩
    exact bind_eq_ok_iff.mpr ⟨_, hwhole, rfl⟩

/-- **The two divisions of power agree** for watts and divisors of up to 53 bits: divided by an
integer that is not zero, and by the double of that integer, a power has the same quotient, and no
other integer leaves a remainder that is less than the divisor, and is zero or has the sign of the
watts.  Zero is refused as a divisor by both. -/
theorem divisions_agree (hp : |p.watts| < 2 ^ 53) (hd : |d| < 2 ^ 53) :
    (d ≠ 0 → ∃ q : ℤ, p.divInt? d = .ok ⟨q⟩ ∧ p.divDouble? (.ofInt d) = .ok ⟨q⟩ ∧
      ∀ q', q' = q ↔
        ∃ r, p.watts = q' * d + r ∧ |r| < |d| ∧ (r = 0 ∨ r.sign = p.watts.sign)) ∧
    (d = 0 → p.divInt? d = .error .integerByZero ∧
      p.divDouble? (.ofInt d) = .error .doubleByZero) := by
  have hdouble := divDouble?_ofInt (p := p) (d := d)
    (by rw [Int.abs_eq_natAbs] at hp; exact_mod_cast hp)
    (by rw [Int.abs_eq_natAbs] at hd; exact_mod_cast hd)
  constructor
  · intro hd₀
    rw [if_neg hd₀] at hdouble
    refine ⟨p.watts.tdiv d, divInt?_eq_ok_iff.mpr ⟨hd₀, rfl⟩, hdouble, fun q' => ?_⟩
    exact eq_tdiv_iff_exists_remainder hd₀
  · intro hd₀
    rw [if_pos hd₀] at hdouble
    exact ⟨if_pos hd₀, hdouble⟩

/-- A quotient that is as near to minus one as doubles can be is cut off to zero. -/
theorem divisions_agree_nearOne :
    |(9007199254740990 : ℤ)| < 2 ^ 53 ∧ |(-9007199254740991 : ℤ)| < 2 ^ 53 ∧
      (Power.mk 9007199254740990).divInt? (-9007199254740991) = .ok ⟨0⟩ ∧
      (Power.mk 9007199254740990).divDouble? (.ofInt (-9007199254740991)) = .ok ⟨0⟩ := by
  have hp : |(Power.mk 9007199254740990).watts| < 2 ^ 53 := by decide
  have hd : |(-9007199254740991 : ℤ)| < 2 ^ 53 := by decide
  obtain ⟨q, hint, hdouble, hunique⟩ := (divisions_agree hp hd).1 (by decide)
  -- all of the watts are left over
  obtain rfl : 0 = q := (hunique 0).mpr ⟨9007199254740990, by decide⟩
  exact ⟨hp, hd, hint, hdouble⟩

end Power

end ChargingSite
