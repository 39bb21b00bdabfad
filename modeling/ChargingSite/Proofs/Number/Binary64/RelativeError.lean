import ChargingSite.Proofs.Number.Binary64.Truncation

/-!
# Relative errors

How far a calculation in doubles gets away from the exact numbers is counted in parts in `2 ^ 53`:
`Near k x y` says that `x` is off `y` by at most `k` such parts of `y`.  Sums keep the greater count
(`Near.add`), products and quotients add the counts up (`Near.mul`, `Near.inv`), and each rounding
adds one (`near_kept`).  A difference magnifies the error of its terms by as much as the terms are
greater than the difference (`Near.sub`).  Together they bound the error of the four operations on
doubles (`Approximates.add`, `Approximates.sub`, `Approximates.mul`, `Approximates.div`) wherever
the exact result is moderate: nothing at all, or far from the ends of the range of doubles.
-/

namespace ChargingSite.Binary64

/-! ### Parts in `2 ^ 53` -/

/-- `k` parts in `2 ^ 53`. -/
def parts (k : ℕ) : ℚ :=
  k / 2 ^ 53

theorem parts_nonneg (k : ℕ) : 0 ≤ parts k := by
  unfold parts
  positivity

theorem parts_add (j k : ℕ) : parts (j + k) = parts j + parts k := by
  rw [parts, parts, parts, Nat.cast_add, add_div]

theorem parts_mono {j k : ℕ} (h : j ≤ k) : parts j ≤ parts k := by
  unfold parts
  gcongr

theorem parts_mul (j k : ℕ) : parts (j * k) = parts j * k := by
  rw [parts, parts, Nat.cast_mul, mul_div_right_comm]

theorem parts_le_half {k : ℕ} (h : k ≤ 2 ^ 52) : parts k ≤ 1 / 2 := by
  have hk : (k : ℚ) ≤ 2 ^ 52 := by exact_mod_cast h
  rw [parts, div_le_iff₀ (by norm_num)]
  linarith

/-- Few parts of few parts are not even one part. -/
theorem parts_mul_parts_le {j k l : ℕ} (h : j * k ≤ l * 2 ^ 53) : parts j * parts k ≤ parts l := by
  have hjk : (j * k : ℚ) ≤ l * 2 ^ 53 := by exact_mod_cast h
  calc parts j * parts k = j * k / 2 ^ 53 / 2 ^ 53 := by rw [parts, parts]; ring
    _ ≤ parts l := by
      unfold parts
      gcongr
      exact (div_le_iff₀ (by norm_num)).mpr hjk

/-! ### Errors in parts of the exact number -/

/-- `x` is off `y`, which is not negative, by at most `k` parts in `2 ^ 53` of `y`. -/
structure Near (k : ℕ) (x y : ℚ) : Prop where
  nonneg : 0 ≤ y
  abs_sub_le : |x - y| ≤ parts k * y

section Near

variable {j k l : ℕ} {x x' y y' z : ℚ}

theorem Near.refl (hy : 0 ≤ y) : Near k y y := by
  refine ⟨hy, ?_⟩
  rw [sub_self, abs_zero]
  exact mul_nonneg (parts_nonneg k) hy

theorem Near.mono (h : Near j x y) (hjk : j ≤ k) : Near k x y :=
  ⟨h.nonneg, h.abs_sub_le.trans (mul_le_mul_of_nonneg_right (parts_mono hjk) h.nonneg)⟩

/-- Up to `2 ^ 52` parts are at most one half of the exact number. -/
theorem Near.bounds (h : Near k x y) (hk : k ≤ 2 ^ 52) : y / 2 ≤ x ∧ x ≤ 2 * y := by
  have hhalf := mul_le_mul_of_nonneg_right (parts_le_half hk) h.nonneg
  obtain ⟨hlow, hhigh⟩ := abs_le.mp (h.abs_sub_le.trans hhalf)
  constructor <;> linarith [h.nonneg]

/-- What is near nothing is nothing. -/
theorem Near.eq_zero (h : Near k x 0) : x = 0 := by
  have hzero := h.abs_sub_le
  rwa [sub_zero, mul_zero, abs_nonpos_iff] at hzero

theorem Near.add (hx : Near k x y) (hx' : Near k x' y') : Near k (x + x') (y + y') := by
  refine ⟨add_nonneg hx.nonneg hx'.nonneg, ?_⟩
  calc |x + x' - (y + y')| = |(x - y) + (x' - y')| := by congr 1; ring
    _ ≤ |x - y| + |x' - y'| := abs_add_le _ _
    _ ≤ parts k * y + parts k * y' := add_le_add hx.abs_sub_le hx'.abs_sub_le
    _ = parts k * (y + y') := (mul_add _ _ _).symm

/-- A difference has the errors of its terms, which may be many times greater than itself. -/
theorem Near.sub (hx : Near k x y) (hx' : Near k x' y') (hle : y' ≤ y) {m : ℕ}
    (hm : y + y' ≤ m * (y - y')) : Near (k * m) (x - x') (y - y') := by
  refine ⟨sub_nonneg.mpr hle, ?_⟩
  calc |x - x' - (y - y')| = |(x - y) - (x' - y')| := by congr 1; ring
    _ ≤ |x - y| + |x' - y'| := abs_sub _ _
    _ ≤ parts k * y + parts k * y' := add_le_add hx.abs_sub_le hx'.abs_sub_le
    _ = parts k * (y + y') := (mul_add _ _ _).symm
    _ ≤ parts k * (m * (y - y')) := mul_le_mul_of_nonneg_left hm (parts_nonneg k)
    _ = parts (k * m) * (y - y') := by rw [parts_mul, mul_assoc]

/-- Errors add up.  What the error of the error adds is small. -/
theorem Near.trans (hx : Near j x y) (hy : Near k y z) (hjk : j * k ≤ l * 2 ^ 53) :
    Near (j + k + l) x z := by
  -- `y` is itself greater than `z` by few parts only
  have hyz : y ≤ z + parts k * z := by linarith [(abs_le.mp hy.abs_sub_le).2]
  refine ⟨hy.nonneg, ?_⟩
  calc |x - z| = |(x - y) + (y - z)| := by congr 1; ring
    _ ≤ |x - y| + |y - z| := abs_add_le _ _
    _ ≤ parts j * y + parts k * z := add_le_add hx.abs_sub_le hy.abs_sub_le
    _ ≤ parts j * (z + parts k * z) + parts k * z :=
      add_le_add_left (mul_le_mul_of_nonneg_left hyz (parts_nonneg j)) _
    _ = (parts j + parts k + parts j * parts k) * z := by ring
    _ ≤ (parts j + parts k + parts l) * z :=
      mul_le_mul_of_nonneg_right (add_le_add_right (parts_mul_parts_le hjk) _) hy.nonneg
    _ = parts (j + k + l) * z := by rw [parts_add, parts_add]

theorem Near.mul_left (h : Near k x y) (hz : 0 ≤ z) : Near k (z * x) (z * y) := by
  refine ⟨mul_nonneg hz h.nonneg, ?_⟩
  calc |z * x - z * y| = z * |x - y| := by rw [← mul_sub, abs_mul, abs_of_nonneg hz]
    _ ≤ z * (parts k * y) := mul_le_mul_of_nonneg_left h.abs_sub_le hz
    _ = parts k * (z * y) := mul_left_comm _ _ _

theorem Near.mul (hx : Near j x y) (hx' : Near k x' y') (hk : k ≤ 2 ^ 52)
    (hjk : j * k ≤ 2 ^ 53) : Near (j + k + 1) (x * x') (y * y') := by
  have hx₀ : 0 ≤ x' := by linarith [hx'.nonneg, (hx'.bounds hk).1]
  -- one factor at a time: first `x` for `y`, then `x'` for `y'`
  have hfirst : Near j (x * x') (y * x') := by
    rw [mul_comm x, mul_comm y]
    exact hx.mul_left hx₀
  exact hfirst.trans (hx'.mul_left hx.nonneg) (by omega)

/-- The reciprocal of a number is off by one part more. -/
theorem Near.inv (h : Near k x y) (hy : 0 < y) (hk : k ≤ 2 ^ 26) : Near (k + 1) x⁻¹ y⁻¹ := by
  have hx : 0 < x := by linarith [(h.bounds (hk.trans (by norm_num))).1]
  have hk' : (k + 1) * k ≤ 1 * 2 ^ 53 :=
    (Nat.mul_le_mul (Nat.succ_le_succ hk) hk).trans (by norm_num)
  refine ⟨inv_nonneg.mpr hy.le, ?_⟩
  -- an error in parts of `y` is an error in parts of `x`, with one part more
  have herror : |x - y| ≤ parts (k + 1) * x :=
    calc |x - y| ≤ parts k * y := h.abs_sub_le
      _ ≤ (parts (k + 1) - parts (k + 1) * parts k) * y := by
        have := parts_mul_parts_le hk'
        refine mul_le_mul_of_nonneg_right ?_ hy.le
        linarith [parts_add k 1]
      _ = parts (k + 1) * (y - parts k * y) := by ring
      _ ≤ parts (k + 1) * x := by
        refine mul_le_mul_of_nonneg_left ?_ (parts_nonneg _)
        linarith [(abs_le.mp h.abs_sub_le).1]
  calc |x⁻¹ - y⁻¹| = |x - y| / x * y⁻¹ := by
        rw [inv_sub_inv hx.ne' hy.ne', abs_div, abs_mul, abs_of_pos hx, abs_of_pos hy,
          abs_sub_comm, div_mul_eq_div_div, div_eq_mul_inv _ y]
    _ ≤ parts (k + 1) * y⁻¹ :=
      mul_le_mul_of_nonneg_right ((div_le_iff₀ hx).mpr herror) (inv_nonneg.mpr hy.le)

end Near

/-! ### Rounding -/

/-- Nothing, or a number far from the ends of the range of doubles. -/
def Moderate (y : ℚ) : Prop :=
  y = 0 ∨ 1 / 2 ^ 20 ≤ y ∧ y ≤ 2 ^ 50

theorem Moderate.add {y z : ℚ} (hy : Moderate y) (hz : Moderate z) (h : y + z ≤ 2 ^ 50) :
    Moderate (y + z) := by
  have hleast : (0 : ℚ) < 1 / 2 ^ 20 := by norm_num
  rcases hy with rfl | ⟨hy, -⟩
  · rwa [zero_add]
  · rcases hz with rfl | ⟨hz, -⟩
    · rw [add_zero] at h ⊢
      exact .inr ⟨hy, h⟩
    · -- the sum is at least as great as either term
      exact .inr ⟨by linarith, h⟩

theorem moderate_div {n : ℤ} (hn : 0 ≤ n) {d : ℕ} (hd : d ≤ 2 ^ 20) (h : (n : ℚ) / d ≤ 2 ^ 50) :
    Moderate (n / d) := by
  -- without a dividend or a divisor the quotient is nothing
  rcases hn.eq_or_lt with rfl | hn
  · simp [Moderate]
  rcases d.eq_zero_or_pos with rfl | hpos
  · simp [Moderate]
  refine .inr ⟨?_, h⟩
  have hn' : (1 : ℚ) ≤ n := by exact_mod_cast hn
  gcongr
  exact_mod_cast hd

theorem near_kept {x : ℚ} (hx : 1 / 2 ^ 21 ≤ x) : Near 1 (kept x) x := by
  have hpos : 0 < x := hx.trans_lt' (by norm_num)
  have hnormal : -1022 ≤ binaryExponent x := by
    -- even the least such number is far above the subnormal ones
    have hleast : binaryExponent (1 / 2 ^ 21) = -21 := by
      apply binaryExponent_eq <;> norm_num
    have := binaryExponent_mono (by norm_num) hx
    omega
  refine ⟨hpos.le, (abs_kept_sub_le hpos hnormal).trans_eq ?_⟩
  rw [parts, mul_comm]
  norm_num

/-- `x` is a finite double that is off `y` by at most `k` parts in `2 ^ 53`. -/
structure Approximates (k : ℕ) (x : Binary64) (y : ℚ) : Prop where
  isFinite : x.isFinite = true
  near : Near k x.toRat y

/-- What stays finite is not cut off at the infinity. -/
theorem toRat_round_of_pos {x : ℚ} (hx : 0 < x) {nz : Bool} (h : (round x nz).isFinite = true) :
    (round x nz).toRat = kept x := by
  have hplace := place_round_of_pos hx nz
  have hlimit := (abs_lt.mp ((isFinite_iff_abs_place_lt (round_ne_nan x nz)).mp h)).2
  rw [hplace, min_lt_iff] at hlimit
  rw [← place_of_isFinite h, hplace]
  exact min_eq_left (hlimit.resolve_right (lt_irrefl _)).le

/-- Rounding adds one part to the error of what is near a number that is not small, as long as the
result is finite. -/
theorem Near.approximates_of_isFinite {k l : ℕ} {x y : ℚ} (h : Near k x y) (hk : k ≤ 2 ^ 52)
    (hy : y = 0 ∨ 1 / 2 ^ 20 ≤ y) (hkl : k ≤ l * 2 ^ 53) {nz : Bool}
    (hfinite : (round x nz).isFinite = true) : Approximates (1 + k + l) (round x nz) y := by
  refine ⟨hfinite, ?_⟩
  rcases hy with rfl | hlow
  · -- nothing is rounded to nothing
    rw [h.eq_zero] at hfinite ⊢
    rw [← place_of_isFinite hfinite, place_round_zero]
    exact Near.refl le_rfl
  · -- a number that is near another one far from zero is itself far from zero
    have hx : 1 / 2 ^ 21 ≤ x := by linarith [(h.bounds hk).1]
    rw [toRat_round_of_pos (hx.trans_lt' (by norm_num)) hfinite]
    exact (near_kept hx).trans h (by omega)

/-- Near a moderate number the result is finite. -/
theorem Near.approximates_round {k l : ℕ} {x y : ℚ} (h : Near k x y) (hk : k ≤ 2 ^ 52)
    (hy : Moderate y) (hkl : k ≤ l * 2 ^ 53) (nz : Bool) :
    Approximates (1 + k + l) (round x nz) y := by
  have hsize : y = 0 ∨ 1 / 2 ^ 20 ≤ y := hy.imp id And.left
  have hhigh : y ≤ 2 ^ 50 := by
    rcases hy with rfl | ⟨-, hhigh⟩
    · norm_num
    · exact hhigh
  obtain ⟨hlow', hhigh'⟩ := h.bounds hk
  have hnonneg := h.nonneg
  obtain ⟨hfinite, -, -⟩ := toRat_round_mem (x := x) (a := 0) (b := 2 ^ 51) (by norm_num)
    (by push_cast; linarith) (by push_cast; linarith) nz
  exact h.approximates_of_isFinite hk hsize hkl hfinite

/-! ### The four operations -/

section Approximates

variable {j k : ℕ} {x y : Binary64} {a b : ℚ}

theorem Approximates.mono (h : Approximates j x a) (hjk : j ≤ k) : Approximates k x a :=
  ⟨h.isFinite, h.near.mono hjk⟩

/-- A moderate number is rounded with an error of one part. -/
theorem approximates_round (ha : 0 ≤ a) (hmod : Moderate a) (nz : Bool) :
    Approximates 1 (round a nz) a :=
  (Near.refl (k := 0) ha).approximates_round (l := 0) (by norm_num) hmod (by norm_num) nz

/-- The result of an operation, once rounded: two parts more than before. -/
theorem Near.approximates {x : ℚ} (h : Near k x a) (hk : k ≤ 2 ^ 52) (hmod : Moderate a)
    (nz : Bool) : Approximates (k + 2) (round x nz) a :=
  (h.approximates_round (l := 1) hk hmod (by omega) nz).mono (by omega)

theorem Approximates.add (hx : Approximates k x a) (hy : Approximates k y b) (hk : k ≤ 2 ^ 52)
    (hmod : Moderate (a + b)) : Approximates (k + 2) (x + y) (a + b) := by
  rw [add_of_isFinite hx.isFinite hy.isFinite]
  exact (hx.near.add hy.near).approximates hk hmod _

theorem sub_of_isFinite (hx : x.isFinite = true) (hy : y.isFinite = true) :
    x - y = round (x.toRat - y.toRat) (x.isNegative && !y.isNegative) := by
  cases x with
  | nan => cases hx
  | infinity s => cases hx
  | finite s m e h =>
    cases y with
    | nan => cases hy
    | infinity t => cases hy
    | finite t m' e' h' =>
      -- to subtract is to add the double with the other sign
      have hneg : (finite (!t) m' e' h').toRat = -(finite t m' e' h').toRat := by
        rw [toRat_finite, toRat_finite]
        cases t <;> simp [signed]
      rw [sub_eq_add_neg, ← hneg]
      rfl

theorem Approximates.sub (hx : Approximates k x a) (hy : Approximates k y b) (hle : b ≤ a) {m : ℕ}
    (hm : a + b ≤ m * (a - b)) (hk : k * m ≤ 2 ^ 52) (hmod : Moderate (a - b)) :
    Approximates (k * m + 2) (x - y) (a - b) := by
  rw [sub_of_isFinite hx.isFinite hy.isFinite]
  exact (hx.near.sub hy.near hle hm).approximates hk hmod _

theorem Approximates.mul (hx : Approximates j x a) (hy : Approximates k y b) (hj : j ≤ 2 ^ 26)
    (hk : k ≤ 2 ^ 26) (hmod : Moderate (a * b)) : Approximates (j + k + 3) (x * y) (a * b) := by
  have hjk : j * k ≤ 2 ^ 53 := (Nat.mul_le_mul hj hk).trans (by norm_num)
  rw [mul_of_isFinite hx.isFinite hy.isFinite]
  exact (hx.near.mul hy.near (hk.trans (by norm_num)) hjk).approximates (by omega) hmod _

/-- A product with a double of any size, where it stays finite. -/
theorem Approximates.mul_left_of_isFinite (hy : Approximates k y b) (hk : k ≤ 2 ^ 52)
    (hx : x.isFinite = true) (hx₀ : 0 ≤ x.toRat)
    (hsize : x.toRat * b = 0 ∨ 1 / 2 ^ 20 ≤ x.toRat * b)
    (hfinite : (x * y).isFinite = true) : Approximates (k + 2) (x * y) (x.toRat * b) := by
  rw [mul_of_isFinite hx hy.isFinite] at hfinite ⊢
  have hnear := hy.near.mul_left hx₀
  exact (hnear.approximates_of_isFinite (l := 1) hk hsize (by omega) hfinite).mono (by omega)

theorem Approximates.div (hx : Approximates j x a) (hy : Approximates k y b) (hb : 0 < b)
    (hj : j ≤ 2 ^ 26) (hk : k < 2 ^ 26) (hmod : Moderate (a / b)) :
    Approximates (j + k + 4) (x / y) (a / b) := by
  have hjk : j * (k + 1) ≤ 2 ^ 53 := (Nat.mul_le_mul hj hk).trans (by norm_num)
  have hy₀ : y.toRat ≠ 0 := by
    exact ((half_pos hb).trans_le (hy.near.bounds (hk.le.trans (by norm_num))).1).ne'
  rw [div_of_isFinite hx.isFinite hy.isFinite hy₀, div_eq_mul_inv x.toRat]
  rw [div_eq_mul_inv] at hmod ⊢
  exact (hx.near.mul (hy.near.inv hb hk.le) (by omega) hjk).approximates (by omega) hmod _

end Approximates

end ChargingSite.Binary64
