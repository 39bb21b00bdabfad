import ChargingSite.Number.Decimal.Places
import ChargingSite.Proofs.Number.Binary64.RelativeError

/-!
# Rounding to decimal places

Rounding to a number of decimal places keeps the order of finite doubles
(`roundPlaces_le_roundPlaces`), so what is not negative stays so (`zero_le_roundPlaces`).  A ratio
that exceeds one by no more than the errors of a few roundings is rounded to one at most
(`roundPlaces_four_le_one`).
-/

namespace ChargingSite.Binary64

variable {x y : Binary64}

theorem roundPlaces_of_isFinite (hx : x.isFinite = true) (places : ℕ) :
    x.roundPlaces places =
      round (scaled 10 (nearestEven (x.toRat * scaled 10 1 places)) (-(places : ℤ)))
        x.isNegative := by
  cases x with
  | finite s m e h => rfl
  | nan => cases hx
  | infinity s => cases hx

/-- Decimals of the same number of places are in the order of their units. -/
theorem scaled_le_scaled {m n : ℤ} (h : m ≤ n) (e : ℤ) : scaled 10 m e ≤ scaled 10 n e := by
  rw [scaled_eq_mul_zpow, scaled_eq_mul_zpow]
  gcongr

/-- **Rounding to decimal places keeps the order.** -/
theorem roundPlaces_le_roundPlaces (hx : x.isFinite = true) (hy : y.isFinite = true)
    (h : x.toRat ≤ y.toRat) (places : ℕ) :
    (x.roundPlaces places).le (y.roundPlaces places) = true := by
  have hscale : 0 ≤ scaled 10 1 places := by
    rw [scaled_eq_mul_zpow]
    positivity
  have hunits : nearestEven (x.toRat * scaled 10 1 places) ≤
      nearestEven (y.toRat * scaled 10 1 places) :=
    nearestEven_mono (mul_le_mul_of_nonneg_right h hscale)
  rw [roundPlaces_of_isFinite hx, roundPlaces_of_isFinite hy,
    le_iff_place_le (round_ne_nan _ _) (round_ne_nan _ _)]
  exact place_round_mono (scaled_le_scaled hunits _) _ _

theorem zero_le_roundPlaces (hx : x.isFinite = true) (h : 0 ≤ x.toRat) (places : ℕ) :
    (0 : Binary64).le (x.roundPlaces places) = true := by
  have hunits : 0 ≤ nearestEven (x.toRat * scaled 10 1 places) := by
    apply le_nearestEven_of_le
    rw [scaled_eq_mul_zpow]
    positivity
  have hdecimal := scaled_le_scaled hunits (-(places : ℤ))
  rw [scaled_eq_mul_zpow 0, Int.cast_zero, zero_mul] at hdecimal
  have hzero : (0 : Binary64) = round 0 := by decide +kernel
  rw [roundPlaces_of_isFinite hx, hzero, le_iff_place_le (round_ne_nan _ _) (round_ne_nan _ _)]
  exact place_round_mono hdecimal _ _

/-- Rounding lifts a positive rational by one part in `2 ^ 53` at most. -/
theorem place_round_le {x : ℚ} (hx : 1 / 2 ^ 21 ≤ x) (nz : Bool) :
    (round x nz).place ≤ x * (1 + parts 1) := by
  have hpos : 0 < x := hx.trans_lt' (by norm_num)
  have herror := (abs_le.mp (near_kept hx).abs_sub_le).2
  rw [place_round_of_pos hpos]
  calc min (kept x) limit ≤ kept x := min_le_left _ _
    _ ≤ x * (1 + parts 1) := by linarith

/-- What exceeds one by a few parts in `2 ^ 53` is one to four decimal places. -/
theorem roundPlaces_four_le_one (hx : x.isFinite = true) (h : x.toRat ≤ 1 + parts 8) :
    (x.roundPlaces 4).le 1 = true := by
  have hunits : nearestEven (x.toRat * scaled 10 1 (4 : ℕ)) ≤ 10000 := by
    have hscale : scaled 10 1 (4 : ℕ) = 10000 := by decide +kernel
    have hnear : nearestEven (10000 + 1 / 4) = 10000 := by decide +kernel
    rw [hscale, ← hnear]
    refine nearestEven_mono ?_
    rw [parts] at h
    norm_num at h ⊢
    linarith
  have hone : round (scaled 10 10000 (-(4 : ℕ))) = 1 := by decide +kernel
  rw [roundPlaces_of_isFinite hx, ← hone, le_iff_place_le (round_ne_nan _ _) (round_ne_nan _ _)]
  exact place_round_mono (scaled_le_scaled hunits _) _ _

end ChargingSite.Binary64
