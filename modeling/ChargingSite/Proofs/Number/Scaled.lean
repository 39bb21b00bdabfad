import ChargingSite.Number.Scaled
import Mathlib.Algebra.Order.Floor.Ring
import Mathlib.Data.Rat.Floor
import Mathlib.Tactic.FieldSimp
import Mathlib.Tactic.Linarith
import Mathlib.Tactic.NormNum
import Mathlib.Tactic.Ring

/-!
# The nearest integer

`scaled_eq_mul_zpow` reads a scaled integer as a product with a power.  The nearest integer with
ties to even is described through the floor (`nearestEven_eq_ite`); what the roundings of the
library need of it is that it never decreases (`nearestEven_mono`), that it stays between two
integers that its argument lies between (`nearestEven_le_of_le`, `le_nearestEven_of_le`), and that
it is at most one half off its argument (`abs_nearestEven_sub_le`).  Cutting off is the division of
integers that rounds toward zero (`truncated_div`).
-/

namespace ChargingSite

/-! ### Powers -/

theorem scaled_eq_mul_zpow {b : ℕ} (m e : ℤ) : scaled b m e = m * (b : ℚ) ^ e := by
  unfold scaled
  split
  · next he =>
    obtain ⟨k, rfl⟩ := Int.eq_ofNat_of_zero_le he
    simp
  · next he =>
    obtain ⟨k, rfl⟩ : ∃ k : ℕ, e = -(k : ℤ) := ⟨(-e).toNat, by omega⟩
    simp [Rat.mkRat_eq_div, div_eq_mul_inv]

/-! ### The nearest integer -/

/-- The nearest integer is the floor up to the middle between two integers, and the next integer
beyond it; in the middle it is the even one of the two. -/
theorem nearestEven_eq_ite (x : ℚ) :
    nearestEven x = if x - ⌊x⌋ < 1 / 2 then ⌊x⌋
      else if 1 / 2 < x - ⌊x⌋ then ⌊x⌋ + 1
      else if ⌊x⌋ % 2 = 0 then ⌊x⌋ else ⌊x⌋ + 1 := by
  have hden : (0 : ℚ) < x.den := by exact_mod_cast x.den_pos
  have hfloor : ⌊x⌋ = x.num / x.den := Rat.floor_def x
  -- the part beyond the floor is the remainder over the denominator
  have hrem : x - ⌊x⌋ = (x.num % x.den : ℤ) / x.den := by
    have hnum : (x.num : ℚ) = x * x.den := (Rat.mul_den_eq_num x).symm
    rw [hfloor, eq_div_iff hden.ne', sub_mul, ← hnum, Int.emod_def]
    push_cast
    ring
  have hlow : x - ⌊x⌋ < 1 / 2 ↔ 2 * (x.num % x.den) < x.den := by
    rw [hrem, div_lt_iff₀ hden, ← @Int.cast_lt ℚ]
    push_cast
    constructor <;> intro h <;> linarith
  have hhigh : 1 / 2 < x - ⌊x⌋ ↔ (x.den : ℤ) < 2 * (x.num % x.den) := by
    rw [hrem, lt_div_iff₀ hden, ← @Int.cast_lt ℚ]
    push_cast
    constructor <;> intro h <;> linarith
  simp only [hlow, hhigh]
  rw [hfloor]
  rfl

theorem floor_le_nearestEven (x : ℚ) : ⌊x⌋ ≤ nearestEven x := by
  rw [nearestEven_eq_ite]
  split_ifs <;> omega

theorem nearestEven_le_floor_add_one (x : ℚ) : nearestEven x ≤ ⌊x⌋ + 1 := by
  rw [nearestEven_eq_ite]
  split_ifs <;> omega

/-- A greater number has no smaller nearest integer. -/
theorem nearestEven_mono {x y : ℚ} (h : x ≤ y) : nearestEven x ≤ nearestEven y := by
  rcases (Int.floor_le_floor h).eq_or_lt with heq | hlt
  · -- the same floor: what is beyond it decides
    have hbeyond : x - ⌊x⌋ ≤ y - ⌊y⌋ := by
      rw [heq]
      linarith
    rw [nearestEven_eq_ite x, nearestEven_eq_ite y, heq]
    rw [heq] at hbeyond
    split_ifs <;> first | omega | linarith
  · calc nearestEven x ≤ ⌊x⌋ + 1 := nearestEven_le_floor_add_one x
      _ ≤ ⌊y⌋ := hlt
      _ ≤ nearestEven y := floor_le_nearestEven y

/-- The nearest integer is at most one half off its argument. -/
theorem abs_nearestEven_sub_le (x : ℚ) : |nearestEven x - x| ≤ 1 / 2 := by
  have hfloor : (⌊x⌋ : ℚ) ≤ x := Int.floor_le x
  have hnext : x < ⌊x⌋ + 1 := Int.lt_floor_add_one x
  rw [nearestEven_eq_ite, abs_le]
  split_ifs <;> push_cast <;> constructor <;> linarith

theorem nearestEven_le_of_le {x : ℚ} {n : ℤ} (h : x ≤ n) : nearestEven x ≤ n := by
  have := nearestEven_mono h
  rwa [nearestEven_intCast] at this

theorem le_nearestEven_of_le {x : ℚ} {n : ℤ} (h : (n : ℚ) ≤ x) : n ≤ nearestEven x := by
  have := nearestEven_mono h
  rwa [nearestEven_intCast] at this

/-- What is less than one half away from an integer has it as its nearest integer. -/
theorem nearestEven_eq_of_abs_sub_lt {x : ℚ} {n : ℤ} (h : |x - n| < 1 / 2) : nearestEven x = n := by
  have herror := abs_nearestEven_sub_le x
  have hdistance : |((nearestEven x - n : ℤ) : ℚ)| < 1 := by
    rw [Int.cast_sub]
    calc |(nearestEven x - n : ℚ)| = |(nearestEven x - x) + (x - n)| := by congr 1; ring
      _ ≤ |(nearestEven x - x : ℚ)| + |x - n| := abs_add_le _ _
      _ < 1 := by linarith
  have hzero : nearestEven x - n = 0 := Int.abs_lt_one_iff.mp (by exact_mod_cast hdistance)
  omega

/-! ### Cutting off -/

theorem truncated_of_nonneg {x : ℚ} (hx : 0 ≤ x) : truncated x = ⌊x⌋ := by
  have hfloor : ⌊x⌋ = x.num / x.den := Rat.floor_def x
  rw [truncated, Int.tdiv_eq_ediv_of_nonneg (Rat.num_nonneg.mpr hx), hfloor]

theorem truncated_neg (x : ℚ) : truncated (-x) = -truncated x := by
  rw [truncated, truncated, Rat.neg_num, Rat.neg_den, Int.neg_tdiv]

theorem truncated_le_of_pos {x : ℚ} (h : 0 < truncated x) : (truncated x : ℚ) ≤ x := by
  rcases le_total 0 x with hx | hx
  · rw [truncated_of_nonneg hx]
    exact Int.floor_le x
  · have hcut := truncated_neg x
    have hfloor := Int.floor_nonneg.mpr (neg_nonneg.mpr hx)
    rw [truncated_of_nonneg (neg_nonneg.mpr hx)] at hcut
    omega

theorem truncated_natCast_div (a b : ℕ) : truncated ((a : ℚ) / b) = (a : ℤ).tdiv b := by
  have hfloor : ⌊(a : ℚ) / b⌋ = (a : ℤ) / b := Rat.floor_natCast_div_natCast a b
  rw [truncated_of_nonneg (by positivity), hfloor, Int.tdiv_eq_ediv_of_nonneg (by omega)]

/-- Cutting off a quotient of integers is the division of integers that rounds toward zero. -/
theorem truncated_div (a : ℤ) (b : ℕ) : truncated ((a : ℚ) / b) = a.tdiv b := by
  obtain ⟨n, rfl | rfl⟩ := Int.eq_nat_or_neg a
  · rw [Int.cast_natCast, truncated_natCast_div]
  · rw [Int.neg_tdiv, Int.cast_neg, Int.cast_natCast, neg_div, truncated_neg,
      truncated_natCast_div]

/-- The divisor may have a sign, too. -/
theorem truncated_intCast_div (a b : ℤ) : truncated ((a : ℚ) / b) = a.tdiv b := by
  obtain ⟨n, rfl | rfl⟩ := Int.eq_nat_or_neg b
  · exact truncated_div a n
  · rw [Int.cast_neg, Int.cast_natCast, div_neg, truncated_neg, truncated_div, Int.tdiv_neg]

end ChargingSite
