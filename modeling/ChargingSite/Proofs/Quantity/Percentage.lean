import ChargingSite.Proofs.Number.Binary64.RelativeError
import ChargingSite.Quantity.Percentage

/-!
# Rounding to percentages

Percentages are ordered linearly by their hundredths.  A number of percent has a percentage exactly
if a hundred times the number is finite (`ofPercent?_eq_ok_iff`), and a greater number never has a
smaller one (`ofPercent?_mono`, `ofFraction?_mono`): the products, the nearest integer and the move
into the range all keep the order.  So do the ways back to doubles (`percent_mono`,
`fraction_mono`), which stay between 0 and 100 (`percent_between`), or 0 and 1 (`fraction_mem`).
A double that is some roundings away from a fraction is still read as that fraction
(`ofFraction?_of_approximates`).
-/

namespace ChargingSite.Percentage

/-! ### The order of percentages -/

theorem lt_iff_hundredths_lt {p q : Percentage} : p < q ↔ p.hundredths < q.hundredths :=
  Iff.rfl

theorem hundredths_injective {p q : Percentage} (h : p.hundredths = q.hundredths) : p = q := by
  cases p
  cases q
  simpa using h

instance : LinearOrder Percentage where
  le := (· ≤ ·)
  lt := (· < ·)
  le_refl p := Nat.le_refl p.hundredths
  le_trans _ _ _ := Nat.le_trans
  lt_iff_le_not_ge _ _ := Nat.lt_iff_le_and_not_ge
  le_antisymm _ _ hpq hqp := hundredths_injective (Nat.le_antisymm hpq hqp)
  le_total p q := Nat.le_total p.hundredths q.hundredths
  toDecidableLE := inferInstance
  toDecidableLT := inferInstance
  toDecidableEq := inferInstance

/-! ### Percentages of doubles -/

variable {x y : Binary64} {p q : Percentage}

theorem ofHundredths_mono {m n : ℤ} (h : m ≤ n) : ofHundredths m ≤ ofHundredths n := by
  show (ofHundredths m).hundredths ≤ (ofHundredths n).hundredths
  simp only [ofHundredths]
  omega

theorem ofPercent?_eq_ok_iff :
    ofPercent? x = .ok p ↔
      (x * 100).isFinite = true ∧ ofHundredths (nearestEven (x * 100).toRat) = p := by
  unfold ofPercent? Binary64.nearestInt?
  cases hn : (x * 100).toIntBy nearestEven with
  | ok n =>
    obtain ⟨hfinite, rfl⟩ := Binary64.toIntBy_eq_ok_iff.mp hn
    simp [Except.map, hfinite]
  | error e =>
    have hinfinite : (x * 100).isFinite ≠ true := fun hfinite => by
      rw [Binary64.toIntBy_eq_ok_iff.mpr ⟨hfinite, rfl⟩] at hn
      cases hn
    simp [Except.map, hinfinite]

theorem toRat_hundred : (100 : Binary64).isFinite = true ∧ (100 : Binary64).toRat = 100 :=
  Binary64.toRat_ofInt_natCast (n := 100) (by norm_num)

theorem hundredfold_mono (hxy : x.le y = true) (hx : (x * 100).isFinite = true)
    (hy : (y * 100).isFinite = true) : (x * 100).toRat ≤ (y * 100).toRat := by
  obtain ⟨hfinite, hvalue⟩ := toRat_hundred
  refine Binary64.toRat_mul_le_mul hxy hfinite ?_ hx hy
  rw [hvalue]
  norm_num

/-- **A greater number of percent has no smaller percentage.** -/
theorem ofPercent?_mono (hxy : x.le y = true) (hp : ofPercent? x = .ok p)
    (hq : ofPercent? y = .ok q) : p ≤ q := by
  obtain ⟨hx, rfl⟩ := ofPercent?_eq_ok_iff.mp hp
  obtain ⟨hy, rfl⟩ := ofPercent?_eq_ok_iff.mp hq
  exact ofHundredths_mono (nearestEven_mono (hundredfold_mono hxy hx hy))

/-- **A greater fraction has no smaller percentage.** -/
theorem ofFraction?_mono (hxy : x.le y = true) (hp : ofFraction? x = .ok p)
    (hq : ofFraction? y = .ok q) : p ≤ q := by
  unfold ofFraction? at hp hq
  have hx := Binary64.isFinite_left_of_mul (ofPercent?_eq_ok_iff.mp hp).1
  have hy := Binary64.isFinite_left_of_mul (ofPercent?_eq_ok_iff.mp hq).1
  refine ofPercent?_mono ?_ hp hq
  rw [Binary64.le_iff_toRat_le hx hy]
  exact hundredfold_mono hxy hx hy

/-- Hundredths of a percent, and parts of them, are far from the ends of the range of doubles. -/
theorem moderate_hundredths (p : Percentage) {d : ℕ} (hd₀ : 1 ≤ d) (hd : d ≤ 2 ^ 20) :
    Binary64.Moderate ((p.hundredths : ℤ) / d) := by
  have hfull : (p.hundredths : ℚ) ≤ 10000 := by exact_mod_cast p.le_full
  refine Binary64.moderate_div (Int.natCast_nonneg _) hd ?_
  calc ((p.hundredths : ℤ) : ℚ) / d ≤ (p.hundredths : ℤ) :=
        div_le_self (by positivity) (by exact_mod_cast hd₀)
    _ ≤ 10000 := by exact_mod_cast hfull
    _ ≤ 2 ^ 50 := by norm_num

/-- **A double near a fraction is read as that fraction.**  Up to some millionths of a millionth
off, it stays nearest to the same hundredth of a percent. -/
theorem ofFraction?_of_approximates {k : ℕ}
    (h : Binary64.Approximates k x ((p.hundredths : ℤ) / (10000 : ℕ))) (hk : k ≤ 2 ^ 20) :
    ofFraction? x = .ok p := by
  have hfull : (p.hundredths : ℚ) ≤ 10000 := by exact_mod_cast p.le_full
  have hhundred : Binary64.Approximates 0 100 100 := by
    obtain ⟨hfinite, hvalue⟩ := toRat_hundred
    refine ⟨hfinite, ?_⟩
    rw [hvalue]
    exact Binary64.Near.refl (by norm_num)
  -- percent, and then hundredths of a percent
  have hpercent : ((p.hundredths : ℤ) / (10000 : ℕ) * 100 : ℚ) =
      (p.hundredths : ℤ) / (100 : ℕ) := by
    push_cast
    ring
  have hhundredths : ((p.hundredths : ℤ) / (100 : ℕ) * 100 : ℚ) = (p.hundredths : ℤ) / (1 : ℕ) := by
    push_cast
    ring
  have hfirst := h.mul hhundred (by omega) (by norm_num)
    (hpercent ▸ p.moderate_hundredths (by norm_num) (by norm_num))
  rw [hpercent] at hfirst
  have hsecond := hfirst.mul hhundred (by omega) (by norm_num)
    (hhundredths ▸ p.moderate_hundredths (by norm_num) (by norm_num))
  rw [hhundredths, Nat.cast_one, div_one] at hsecond
  have herror : |(x * 100 * 100).toRat - (p.hundredths : ℤ)| < 1 / 2 := by
    calc |(x * 100 * 100).toRat - (p.hundredths : ℤ)|
        ≤ Binary64.parts (k + 0 + 3 + 0 + 3) * (p.hundredths : ℤ) := hsecond.near.abs_sub_le
      _ ≤ Binary64.parts (2 ^ 20 + 6) * 10000 :=
        mul_le_mul (Binary64.parts_mono (by omega)) (by exact_mod_cast hfull) (by positivity)
          (Binary64.parts_nonneg _)
      _ < 1 / 2 := by
        unfold Binary64.parts
        norm_num
  refine ofPercent?_eq_ok_iff.mpr ⟨hsecond.isFinite, ?_⟩
  rw [nearestEven_eq_of_abs_sub_lt herror, ofHundredths_hundredths]

/-! ### Percentages as doubles -/

/-- Counted in steps of `n` hundredths, the range of percentages is kept by rounding. -/
theorem toRat_round_mkRat_mem (p : Percentage) {n k : ℕ} (hk : n * k = 10000) :
    (Binary64.round (mkRat p.hundredths n)).isFinite = true ∧
      0 ≤ (Binary64.round (mkRat p.hundredths n)).toRat ∧
      (Binary64.round (mkRat p.hundredths n)).toRat ≤ k := by
  have hexact : mkRat p.hundredths n = (p.hundredths : ℚ) / n := by
    rw [Rat.mkRat_eq_div, Int.cast_natCast]
  have hlow : ((0 : ℕ) : ℚ) ≤ mkRat p.hundredths n := by
    rw [hexact, Nat.cast_zero]
    positivity
  have hhigh : mkRat p.hundredths n ≤ (k : ℚ) := by
    rw [hexact]
    refine div_le_of_le_mul₀ n.cast_nonneg k.cast_nonneg ?_
    rw [mul_comm]
    exact_mod_cast hk ▸ p.le_full
  have hsmall : k ≤ 10000 := Nat.le_of_dvd (by norm_num) ⟨n, by rw [← hk, mul_comm]⟩
  have hmem := Binary64.toRat_round_mem (by omega) hlow hhigh false
  rwa [Nat.cast_zero] at hmem

theorem round_mkRat_mono (h : p ≤ q) (n : ℕ) :
    (Binary64.round (mkRat p.hundredths n)).le (.round (mkRat q.hundredths n)) = true := by
  have hle : (p.hundredths : ℚ) ≤ q.hundredths := by exact_mod_cast h
  rw [Binary64.le_iff_place_le (Binary64.round_ne_nan _ _) (Binary64.round_ne_nan _ _)]
  refine Binary64.place_round_mono ?_ _ _
  rw [Rat.mkRat_eq_div, Rat.mkRat_eq_div, Int.cast_natCast, Int.cast_natCast]
  gcongr

theorem percent_mem (p : Percentage) :
    p.percent.isFinite = true ∧ 0 ≤ p.percent.toRat ∧ p.percent.toRat ≤ 100 := by
  exact_mod_cast p.toRat_round_mkRat_mem (n := 100) (k := 100) rfl

/-- Every percentage is a number from 0 to 100. -/
theorem percent_between (p : Percentage) :
    Binary64.le 0 p.percent = true ∧ p.percent.le 100 = true := by
  obtain ⟨hfinite, hlow, hhigh⟩ := percent_mem p
  obtain ⟨hzero, hvalue₀⟩ := Binary64.toRat_ofInt_natCast (n := 0) (by norm_num)
  obtain ⟨hhundred, hvalue⟩ := toRat_hundred
  constructor
  · rw [show (0 : Binary64) = Binary64.ofInt (0 : ℕ) from rfl,
      Binary64.le_iff_toRat_le hzero hfinite, hvalue₀, Nat.cast_zero]
    exact hlow
  · rw [Binary64.le_iff_toRat_le hfinite hhundred, hvalue]
    exact hhigh

theorem percent_mono (h : p ≤ q) : p.percent.le q.percent = true :=
  round_mkRat_mono h 100

/-! ### Percentages as fractions -/

theorem fraction_mem (p : Percentage) :
    p.fraction.isFinite = true ∧ 0 ≤ p.fraction.toRat ∧ p.fraction.toRat ≤ 1 := by
  exact_mod_cast p.toRat_round_mkRat_mem (n := 10000) (k := 1) rfl

theorem fraction_mono (h : p ≤ q) : p.fraction.le q.fraction = true :=
  round_mkRat_mono h 10000

theorem fraction_approximates (p : Percentage) :
    Binary64.Approximates 1 p.fraction ((p.hundredths : ℤ) / (10000 : ℕ)) := by
  rw [fraction, Rat.mkRat_eq_div]
  exact Binary64.approximates_round (by positivity)
    (p.moderate_hundredths (by norm_num) (by norm_num)) _

end ChargingSite.Percentage
