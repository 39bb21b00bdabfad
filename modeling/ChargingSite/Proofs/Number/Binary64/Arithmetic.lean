import ChargingSite.Proofs.Number.Binary64.Order

/-!
# Integers, sums and products in doubles

Rounding keeps the order, so sums and products of doubles grow with their terms and factors as far
as doubles can tell (`mul_le_mul_right`, `lt_add_of_lt_add`), and adding what is not negative never
leads back (`le_add_of_nonneg`).  Integers below `2 ^ 53` are doubles themselves
(`toRat_ofInt_natCast`), and rounding stays between two of them (`toRat_round_mem`).
-/

namespace ChargingSite.Binary64

/-! ### Integers -/

theorem place_of_isFinite {x : Binary64} (hx : x.isFinite = true) : x.place = x.toRat := by
  cases x with
  | finite s m e h => rfl
  | nan => cases hx
  | infinity s => cases hx

theorem ne_nan_of_isFinite {x : Binary64} (hx : x.isFinite = true) : x ≠ nan := by
  rintro rfl
  cases hx

theorem isNaN_of_isFinite {x : Binary64} (hx : x.isFinite = true) : x.isNaN = false := by
  cases x with
  | finite s m e h => rfl
  | nan => cases hx
  | infinity s => rfl

theorem le_iff_toRat_le {x y : Binary64} (hx : x.isFinite = true) (hy : y.isFinite = true) :
    x.le y = true ↔ x.toRat ≤ y.toRat := by
  rw [le_iff_place_le (ne_nan_of_isFinite hx) (ne_nan_of_isFinite hy), place_of_isFinite hx,
    place_of_isFinite hy]

theorem toRat_eq_of_eq {x y : Binary64} (hx : x.isFinite = true) (hy : y.isFinite = true)
    (h : x.eq y = true) : x.toRat = y.toRat := by
  rwa [eq_iff_place_eq (ne_nan_of_isFinite hx) (ne_nan_of_isFinite hy), place_of_isFinite hx,
    place_of_isFinite hy] at h

theorem isFinite_of_le_of_lt {x y z : Binary64} (hx : x.isFinite = true) (hz : z.isFinite = true)
    (hxy : x.le y = true) (hyz : y.lt z = true) :
    y.isFinite = true ∧ x.toRat ≤ y.toRat ∧ y.toRat < z.toRat := by
  have hy := (ne_nan_of_lt hyz).1
  rw [le_iff_place_le (ne_nan_of_isFinite hx) hy] at hxy
  rw [lt_iff_place_lt hy (ne_nan_of_isFinite hz)] at hyz
  have hlow := abs_lt.mp ((isFinite_iff_abs_place_lt (ne_nan_of_isFinite hx)).mp hx)
  have hhigh := abs_lt.mp ((isFinite_iff_abs_place_lt (ne_nan_of_isFinite hz)).mp hz)
  have hfinite : y.isFinite = true := by
    rw [isFinite_iff_abs_place_lt hy]
    exact abs_lt.mpr ⟨hlow.1.trans_le hxy, hyz.trans hhigh.2⟩
  rw [place_of_isFinite hx, place_of_isFinite hfinite] at hxy
  rw [place_of_isFinite hfinite, place_of_isFinite hz] at hyz
  exact ⟨hfinite, hxy, hyz⟩

theorem intCast_lt_limit {n : ℤ} (h : n < 2 ^ 53) : (n : ℚ) < limit :=
  calc (n : ℚ) < 2 ^ (53 : ℤ) := by exact_mod_cast h
    _ ≤ 2 ^ (1024 : ℤ) := zpow_le_zpow_right₀ (by norm_num) (by norm_num)
    _ = limit := zpow_eq_limit rfl

theorem place_round_natCast {n : ℕ} (h : n < 2 ^ 53) (nz : Bool) :
    (round (n : ℚ) nz).place = n := by
  rcases Nat.eq_zero_or_pos n with rfl | hpos
  · rw [Nat.cast_zero, place_round_zero]
  · have hlimit : (n : ℚ) ≤ limit := by
      have := (intCast_lt_limit (n := n) (by exact_mod_cast h)).le
      exact_mod_cast this
    rw [place_round_of_pos (by exact_mod_cast hpos), kept_natCast hpos h, min_eq_left hlimit]

/-- Rounding stays between two naturals that the rounded rational lies between. -/
theorem toRat_round_mem {x : ℚ} {a b : ℕ} (hb : b < 2 ^ 53) (hax : (a : ℚ) ≤ x) (hxb : x ≤ b)
    (nz : Bool) :
    (round x nz).isFinite = true ∧ (a : ℚ) ≤ (round x nz).toRat ∧ (round x nz).toRat ≤ b := by
  have hab : a ≤ b := by exact_mod_cast hax.trans hxb
  have hlow := place_round_mono hax nz nz
  have hhigh := place_round_mono hxb nz nz
  rw [place_round_natCast (by omega)] at hlow
  rw [place_round_natCast hb] at hhigh
  have hfinite : (round x nz).isFinite = true := by
    rw [isFinite_iff_abs_place_lt (round_ne_nan x nz), abs_of_nonneg (a.cast_nonneg.trans hlow)]
    exact hhigh.trans_lt (by exact_mod_cast intCast_lt_limit (n := b) (by exact_mod_cast hb))
  rw [place_of_isFinite hfinite] at hlow hhigh
  exact ⟨hfinite, hlow, hhigh⟩

theorem toRat_ofInt_natCast {n : ℕ} (h : n < 2 ^ 53) :
    (ofInt n).isFinite = true ∧ (ofInt n).toRat = n := by
  obtain ⟨hfinite, hlow, hhigh⟩ := toRat_round_mem (x := (n : ℤ)) (a := n) h (by norm_cast)
    (by norm_cast) false
  exact ⟨hfinite, le_antisymm hhigh hlow⟩

/-- An integer below `2 ^ 53` in magnitude is its own double, whatever its sign. -/
theorem toRat_ofInt {n : ℤ} (h : n.natAbs < 2 ^ 53) :
    (ofInt n).isFinite = true ∧ (ofInt n).toRat = n := by
  have hplace : (ofInt n).place = n := by
    unfold ofInt
    obtain ⟨m, rfl | rfl⟩ := Int.eq_nat_or_neg n
    · exact place_round_natCast (by omega) false
    · rw [Int.cast_neg, place_round_neg _ false false, Int.cast_natCast,
        place_round_natCast (by omega)]
  have hfinite : (ofInt n).isFinite = true := by
    rw [isFinite_iff_abs_place_lt (x := ofInt n) (round_ne_nan _ _), hplace, ← Int.cast_abs,
      Int.abs_eq_natAbs]
    exact intCast_lt_limit (by exact_mod_cast h)
  refine ⟨hfinite, ?_⟩
  rw [← place_of_isFinite hfinite, hplace]

theorem toRat_thousand : (1000 : Binary64).isFinite = true ∧ (1000 : Binary64).toRat = 1000 :=
  toRat_ofInt_natCast (n := 1000) (by norm_num)

theorem toRat_ofInt_mono {a b : ℤ} (hab : a ≤ b) (ha : (ofInt a).isFinite = true)
    (hb : (ofInt b).isFinite = true) : (ofInt a).toRat ≤ (ofInt b).toRat := by
  rw [← place_of_isFinite ha, ← place_of_isFinite hb]
  exact place_round_mono (by exact_mod_cast hab) false false

/-- An integer can be read off exactly the finite doubles. -/
theorem toIntBy_eq_ok_iff {f : ℚ → ℤ} {x : Binary64} {n : ℤ} :
    x.toIntBy f = .ok n ↔ x.isFinite = true ∧ f x.toRat = n := by
  cases x <;> simp [toIntBy, isFinite]

/-! ### Products -/

theorem isFinite_left_of_mul {x y : Binary64} (h : (x * y).isFinite = true) :
    x.isFinite = true := by
  cases x with
  | nan => exact h
  | finite s m e hc => rfl
  | infinity s =>
    cases y with
    -- an infinity times anything is not finite
    | nan => cases h
    | infinity t => cases h
    | finite t m e hc =>
      have hmul : infinity s * finite t m e hc = if m = 0 then nan else infinity (s ^^ t) := rfl
      rw [hmul] at h
      split at h <;> cases h

theorem mul_of_isFinite {x y : Binary64} (hx : x.isFinite = true) (hy : y.isFinite = true) :
    x * y = round (x.toRat * y.toRat) (x.isNegative ^^ y.isNegative) := by
  cases x with
  | nan => cases hx
  | infinity s => cases hx
  | finite s m e h =>
    cases y with
    | nan => cases hy
    | infinity t => cases hy
    | finite t m' e' h' => rfl

/-- A product stays finite when a factor that is not negative gets smaller. -/
theorem isFinite_mul_of_le {x y z : Binary64} (hy : y.isFinite = true) (hz : z.isFinite = true)
    (hy₀ : 0 ≤ y.toRat) (hyz : y.toRat ≤ z.toRat) (h : (x * z).isFinite = true) :
    (x * y).isFinite = true := by
  have hx := isFinite_left_of_mul h
  have habs : |x.toRat * y.toRat| ≤ |x.toRat * z.toRat| := by
    rw [abs_mul, abs_mul, abs_of_nonneg hy₀, abs_of_nonneg (hy₀.trans hyz)]
    exact mul_le_mul_of_nonneg_left hyz (abs_nonneg _)
  rw [mul_of_isFinite hx hz, isFinite_iff_abs_place_lt (round_ne_nan _ _), abs_place_round] at h
  rw [mul_of_isFinite hx hy, isFinite_iff_abs_place_lt (round_ne_nan _ _), abs_place_round]
  exact (place_round_mono habs _ _).trans_lt h

/-- A greater factor gives no smaller product with a factor that is not negative. -/
theorem mul_le_mul_right {x y z : Binary64} (hx : x.isFinite = true) (hy : y.isFinite = true)
    (hz : z.isFinite = true) (hxy : x.toRat ≤ y.toRat) (hz₀ : 0 ≤ z.toRat) :
    (x * z).le (y * z) = true := by
  rw [mul_of_isFinite hx hz, mul_of_isFinite hy hz,
    le_iff_place_le (round_ne_nan _ _) (round_ne_nan _ _)]
  exact place_round_mono (mul_le_mul_of_nonneg_right hxy hz₀) _ _

/-- The same where the greater factor comes second. -/
theorem mul_le_mul_left {x y z : Binary64} (hx : x.isFinite = true) (hy : y.isFinite = true)
    (hz : z.isFinite = true) (hxy : x.toRat ≤ y.toRat) (hz₀ : 0 ≤ z.toRat) :
    (z * x).le (z * y) = true := by
  rw [mul_of_isFinite hz hx, mul_of_isFinite hz hy,
    le_iff_place_le (round_ne_nan _ _) (round_ne_nan _ _)]
  exact place_round_mono (mul_le_mul_of_nonneg_left hxy hz₀) _ _

/-- A finite double times a fraction of one is finite. -/
theorem isFinite_mul_of_le_one {x y : Binary64} (hx : x.isFinite = true) (hy : y.isFinite = true)
    (hy₀ : 0 ≤ y.toRat) (hy₁ : y.toRat ≤ 1) : (x * y).isFinite = true := by
  obtain ⟨hone, hvalue⟩ : (1 : Binary64).isFinite = true ∧ (1 : Binary64).toRat = (1 : ℕ) :=
    toRat_ofInt_natCast (n := 1) (by norm_num)
  rw [Nat.cast_one] at hvalue
  refine isFinite_mul_of_le hy hone hy₀ (hvalue ▸ hy₁) ?_
  rw [mul_of_isFinite hx hone, hvalue, mul_one, isFinite_iff_abs_place_lt (round_ne_nan _ _),
    place_round_toRat hx, ← place_of_isFinite hx]
  exact (isFinite_iff_abs_place_lt (ne_nan_of_isFinite hx)).mp hx

/-- Finite products with a factor that is not negative are in the order of the other factors. -/
theorem toRat_mul_le_mul {x y z : Binary64} (hxy : x.le y = true) (hz : z.isFinite = true)
    (hz₀ : 0 ≤ z.toRat) (hx : (x * z).isFinite = true) (hy : (y * z).isFinite = true) :
    (x * z).toRat ≤ (y * z).toRat := by
  have hx' := isFinite_left_of_mul hx
  have hy' := isFinite_left_of_mul hy
  rw [le_iff_toRat_le hx' hy'] at hxy
  exact (le_iff_toRat_le hx hy).mp (mul_le_mul_right hx' hy' hz hxy hz₀)

theorem place_mul_nonneg {x y : Binary64} (hx : x.isFinite = true) (hy : y.isFinite = true)
    (hx₀ : 0 ≤ x.toRat) (hy₀ : 0 ≤ y.toRat) : x * y ≠ nan ∧ 0 ≤ (x * y).place := by
  rw [mul_of_isFinite hx hy]
  refine ⟨round_ne_nan _ _, ?_⟩
  have := place_round_mono (mul_nonneg hx₀ hy₀) false (x.isNegative ^^ y.isNegative)
  rwa [place_round_zero] at this

/-! ### Quotients -/

theorem div_of_isFinite {x y : Binary64} (hx : x.isFinite = true) (hy : y.isFinite = true)
    (hy₀ : y.toRat ≠ 0) :
    x / y = round (x.toRat / y.toRat) (x.isNegative ^^ y.isNegative) := by
  cases x with
  | nan => cases hx
  | infinity s => cases hx
  | finite s m e h =>
    cases y with
    | nan => cases hy
    | infinity t => cases hy
    | finite t m' e' h' =>
      -- a significand of zero would make the divisor zero
      have hm' : m' ≠ 0 := by
        rintro rfl
        exact hy₀ (by cases t <;> simp [toRat, scaled_eq_mul_zpow])
      exact if_neg hm'

theorem isFinite_left_of_div {x y : Binary64} (h : (x / y).isFinite = true) :
    x.isFinite = true := by
  cases x with
  | nan => exact h
  | finite s m e hc => rfl
  | infinity s => cases y <;> cases h

/-- Finite quotients with a divisor that is not zero or less are in the order of the dividends. -/
theorem div_le_div_right {x y z : Binary64} (hxy : x.le y = true) (hz : z.le 0 = false)
    (hx : (x / z).isFinite = true) (hy : (y / z).isFinite = true) :
    (x / z).le (y / z) = true := by
  have hx' := isFinite_left_of_div hx
  have hy' := isFinite_left_of_div hy
  cases z with
  | nan =>
    cases x with
    | nan => cases hx'
    | infinity s => cases hx'
    | finite s m e hc => cases hx
  | infinity t =>
    -- everything finite is nothing of an infinity
    have hzero {u : Binary64} (hu : u.isFinite = true) : (u / infinity t).toRat = 0 := by
      cases u with
      | nan => cases hu
      | infinity s => cases hu
      | finite s m e hc =>
        show (zero (s ^^ t)).toRat = 0
        cases s <;> cases t <;> simp [zero, toRat, scaled_eq_mul_zpow]
    rw [le_iff_toRat_le hx hy, hzero hx', hzero hy']
  | finite t m e hc =>
    have hfinite : (finite t m e hc).isFinite = true := rfl
    obtain ⟨hzero, hvalue⟩ := toRat_ofInt_natCast (n := 0) (by norm_num)
    have hpos : 0 < (finite t m e hc).toRat := by
      rw [← Bool.not_eq_true, show (0 : Binary64) = ofInt (0 : ℕ) from rfl,
        le_iff_toRat_le hfinite hzero, hvalue, Nat.cast_zero] at hz
      exact not_le.mp hz
    rw [le_iff_toRat_le hx' hy'] at hxy
    rw [div_of_isFinite hx' hfinite hpos.ne', div_of_isFinite hy' hfinite hpos.ne',
      le_iff_place_le (round_ne_nan _ _) (round_ne_nan _ _)]
    exact place_round_mono (div_le_div_of_nonneg_right hxy hpos.le) _ _

/-! ### Sums -/

theorem le_lower_infinity_iff {x : Binary64} :
    x.le (infinity true) = true ↔ x = infinity true := by
  cases x with
  | nan => simp
  | infinity s => cases s <;> decide
  | finite s m e hc => simp [le, lt, eq]

theorem add_of_isFinite {x y : Binary64} (hx : x.isFinite = true) (hy : y.isFinite = true) :
    x + y = round (x.toRat + y.toRat) (x.isNegative && y.isNegative) := by
  cases x with
  | nan => cases hx
  | infinity s => cases hx
  | finite s m e h =>
    cases y with
    | nan => cases hy
    | infinity t => cases hy
    | finite t m' e' h' => rfl

theorem infinity_add_of_isFinite {s : Bool} {a : Binary64} (ha : a.isFinite = true) :
    infinity s + a = infinity s := by
  cases a with
  | nan => cases ha
  | infinity t => cases ha
  | finite t m e h => rfl

theorem lower_infinity_lt {a : Binary64} (ha : a.isFinite = true) :
    (infinity true).lt a = true := by
  cases a with
  | nan => cases ha
  | infinity t => cases ha
  | finite t m e h => rfl

theorem ne_lower_infinity_of_nonneg {a : Binary64} (ha : 0 ≤ a.place) : a ≠ infinity true := by
  rintro rfl
  exact absurd ha (not_le.mpr (neg_neg_of_pos limit_pos))

/-- Adding what is not negative never leads below a double other than the lower infinity. -/
theorem le_add_of_nonneg {x a : Binary64} (hx : x ≠ nan) (hlow : x ≠ infinity true)
    (ha : a ≠ nan) (ha₀ : 0 ≤ a.place) : x.le (x + a) = true := by
  have hlow' := ne_lower_infinity_of_nonneg ha₀
  cases x with
  | nan => exact absurd rfl hx
  | infinity s =>
    cases s with
    | true => exact absurd rfl hlow
    | false =>
      cases a with
      | nan => exact absurd rfl ha
      | infinity t =>
        cases t with
        | false => rfl
        | true => exact absurd rfl hlow'
      | finite t m e h => rfl
  | finite s m e h =>
    cases a with
    | nan => exact absurd rfl ha
    | infinity t =>
      cases t with
      | false => rfl
      | true => exact absurd rfl hlow'
    | finite t m' e' h' =>
      -- adding something of zero or more and rounding does not go below what is a double already
      have hself : (round (finite s m e h).toRat s).place = (finite s m e h).place :=
        place_round_toRat rfl s
      have ha₁ : 0 ≤ (finite t m' e' h').toRat := ha₀
      rw [add_of_isFinite rfl rfl, le_iff_place_le hx (round_ne_nan _ _), ← hself]
      exact place_round_mono (le_add_of_nonneg_right ha₁) _ _

/-- A sum beyond a natural number is greater than a term below that number. -/
theorem lt_add_of_lt_natCast {x a : Binary64} (hx : x.isFinite = true) (ha : a.isFinite = true)
    {m : ℕ} (hm : m < 2 ^ 53) (hxm : x.toRat < m) (hma : (m : ℚ) ≤ x.toRat + a.toRat) :
    x.lt (x + a) = true := by
  rw [add_of_isFinite hx ha, lt_iff_place_lt (ne_nan_of_isFinite hx) (round_ne_nan _ _),
    place_of_isFinite hx]
  calc x.toRat < m := hxm
    _ = (round (m : ℚ) false).place := (place_round_natCast hm false).symm
    _ ≤ _ := place_round_mono hma _ _

/-- If adding a finite double leads up, so does adding a greater one. -/
theorem lt_add_of_lt_add {x a b : Binary64} (ha : a.isFinite = true) (hab : a.le b = true)
    (hx : x.lt (x + a) = true) : x.lt (x + b) = true := by
  obtain ⟨-, hb⟩ := ne_nan_of_le hab
  cases x with
  | nan => simp at hx
  | infinity s =>
    -- nothing finite leads away from an infinity
    rw [infinity_add_of_isFinite ha] at hx
    cases s <;> exact absurd hx (by decide)
  | finite s m e h =>
    cases b with
    | nan => exact absurd rfl hb
    | infinity t =>
      cases t with
      | false => rfl
      | true =>
        -- nothing finite lies at or below the lower infinity
        have hfinite := (isFinite_iff_abs_place_lt (ne_nan_of_isFinite ha)).mp ha
        rw [le_iff_place_le (ne_nan_of_isFinite ha) hb] at hab
        exact absurd hab (not_le.mpr (abs_lt.mp hfinite).1)
    | finite t m' e' h' =>
      -- the greater sum is rounded to no less
      refine lt_of_lt_of_le hx ?_
      rw [le_iff_place_le (ne_nan_of_isFinite ha) hb, place_of_isFinite ha] at hab
      rw [add_of_isFinite rfl ha, add_of_isFinite rfl rfl,
        le_iff_place_le (round_ne_nan _ _) (round_ne_nan _ _)]
      exact place_round_mono (add_le_add_right hab _) _ _

end ChargingSite.Binary64
