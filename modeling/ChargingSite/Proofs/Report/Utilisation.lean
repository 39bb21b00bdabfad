import ChargingSite.Report.Summary
import ChargingSite.Proofs.Error
import ChargingSite.Proofs.Number.Decimal.Places
import ChargingSite.Proofs.Report.Summation

/-!
# Utilisation

The load on a charger is a mean and a peak of whole watts, divided and rounded several times over.
Dividing and rounding are monotone, so the mean stays below the peak
(`utilisationOf_mean_le_peak`).  The utilisation needs more: the grid connection that limits the
watts has been cut off to whole watts, while the divisor has not, and both have been rounded.  The
errors of a few roundings are far less than half of the fourth decimal place, so a charger in full
use is shown as `1` and not as more (`utilisationOf_mem_unit`).
-/

namespace ChargingSite

open Binary64 (Counts counts_zero counts_ofInt parts)

/-! ### The greatest number -/

theorem Binary64.Counts.max {x y : Binary64} {m n : ℕ} (hx : x.Counts m) (hy : y.Counts n) :
    (x.max y).Counts (Max.max m n) := by
  have hnan : ¬(x.isNaN || y.isNaN) = true := by
    rw [isNaN_of_isFinite hx.isFinite, isNaN_of_isFinite hy.isFinite]
    exact Bool.false_ne_true
  have hlt : x.lt y = true ↔ m < n := by
    rw [lt_iff_place_lt (ne_nan_of_isFinite hx.isFinite) (ne_nan_of_isFinite hy.isFinite),
      place_of_isFinite hx.isFinite, place_of_isFinite hy.isFinite, hx.toRat_eq, hy.toRat_eq,
      Nat.cast_lt]
  rw [Binary64.max, if_neg hnan]
  by_cases h : m < n
  · -- the second number is greater
    rwa [if_pos (hlt.mpr h), max_eq_right h.le]
  · -- the first number is at least as great
    rwa [if_neg (mt hlt.mp h), max_eq_left (not_lt.mp h)]

theorem counts_foldl_max {x : Binary64} {xs : List Binary64} {m : ℕ} {ns : List ℕ}
    (hx : x.Counts m) (hxs : List.Forall₂ Counts xs ns) :
    ∃ most ∈ m :: ns, (xs.foldl Binary64.max x).Counts most ∧ ∀ n ∈ m :: ns, n ≤ most := by
  induction hxs generalizing x m with
  | nil => exact ⟨m, by simp, hx, by simp⟩
  | @cons y n ys ns head _ ih =>
    -- the first two numbers give their maximum, which goes on as the first
    obtain ⟨most, hmem, hcounts, hle⟩ := ih (hx.max head)
    rw [List.forall_mem_cons, max_le_iff] at hle
    refine ⟨most, ?_, hcounts, ?_⟩
    · -- the greatest number is one of the others, or the greater of the first two
      rcases le_total m n with h | h
      · rw [max_eq_right h] at hmem
        exact List.mem_cons_of_mem m hmem
      · rw [max_eq_left h] at hmem
        simp only [List.mem_cons] at hmem ⊢
        tauto
    · rw [List.forall_mem_cons, List.forall_mem_cons]
      exact ⟨hle.1.1, hle.1.2, hle.2⟩

theorem counts_greatest {xs : List Binary64} {ns : List ℕ} (hxs : List.Forall₂ Counts xs ns)
    (hne : ns ≠ []) :
    ∃ most ∈ ns, (greatest xs).Counts most ∧ ∀ n ∈ ns, n ≤ most := by
  cases hxs with
  | nil => exact absurd rfl hne
  | cons head tail => exact counts_foldl_max head tail

/-! ### Means -/

theorem counts_siteWatts {xs : List Binary64} {ns : List ℕ} (hxs : List.Forall₂ Counts xs ns)
    (h : ns.sum < 2 ^ 53) : (siteWatts xs).Counts ns.sum := by
  rw [← Nat.zero_add ns.sum] at h ⊢
  exact counts_zero.add (counts_pairwiseSum hxs (by omega)) h

theorem counts_columnSum {xs : List Binary64} {ns : List ℕ} (chargers : ℕ)
    (hxs : List.Forall₂ Counts xs ns) (h : ns.sum < 2 ^ 53) :
    (columnSum chargers xs).Counts ns.sum := by
  unfold columnSum
  split
  · exact counts_siteWatts hxs h
  · rw [← Nat.zero_add ns.sum] at h ⊢
    exact counts_runningSum counts_zero hxs h

/-- A sum of few numbers, none of which is above a bound, is no more than the bound times their
count, also where the count has no double of its own. -/
theorem le_mul_toRat_ofInt {sum most count : ℕ} (hsum : sum < 2 ^ 53) (hle : sum ≤ most * count)
    (hpos : 0 < count) (hcount : count ≤ 2 ^ 67) :
    (Binary64.ofInt count).isFinite = true ∧ 0 < (Binary64.ofInt count).toRat ∧
      (sum : ℚ) ≤ most * (Binary64.ofInt count).toRat := by
  rcases Nat.lt_or_ge count (2 ^ 53) with hsmall | hlarge
  · obtain ⟨hfinite, hvalue⟩ := Binary64.toRat_ofInt_natCast hsmall
    rw [hvalue]
    exact ⟨hfinite, by exact_mod_cast hpos, by exact_mod_cast hle⟩
  · -- a greater count is rounded, but stays at or above every sum below `2 ^ 53`
    have hhigh := Binary64.place_round_mono (x := ((count : ℤ) : ℚ)) (y := ((2 ^ 67 : ℤ) : ℚ))
      (by exact_mod_cast hcount) false false
    have hlow := Binary64.place_round_mono (x := ((2 ^ 53 - 1 : ℕ) : ℚ)) (y := ((count : ℤ) : ℚ))
      (by norm_cast; omega) false false
    rw [Binary64.place_round_natCast (by norm_num)] at hlow
    have hfinite : (Binary64.ofInt count).isFinite = true := by
      have hgreat : (Binary64.ofInt (2 ^ 67)).isFinite = true := by decide +kernel
      have hbelow := (Binary64.isFinite_iff_abs_place_lt (Binary64.round_ne_nan _ _)).mp hgreat
      refine (Binary64.isFinite_iff_abs_place_lt (Binary64.round_ne_nan _ _)).mpr ?_
      rw [abs_of_nonneg ((Nat.cast_nonneg _).trans hlow)]
      exact hhigh.trans_lt ((le_abs_self _).trans_lt hbelow)
    have hvalue : ((2 ^ 53 - 1 : ℕ) : ℚ) ≤ (Binary64.ofInt count).toRat := by
      rwa [← Binary64.place_of_isFinite hfinite]
    have hcap : (sum : ℚ) ≤ ((2 ^ 53 - 1 : ℕ) : ℚ) := by
      norm_cast
      omega
    refine ⟨hfinite, lt_of_lt_of_le (by norm_num) hvalue, ?_⟩
    rcases Nat.eq_zero_or_pos most with rfl | hmost
    · rw [Nat.zero_mul] at hle
      rw [Nat.le_zero.mp hle, Nat.cast_zero, zero_mul]
    · have hone : (1 : ℚ) ≤ most := by exact_mod_cast hmost
      calc (sum : ℚ) ≤ (Binary64.ofInt count).toRat := hcap.trans hvalue
        _ = 1 * (Binary64.ofInt count).toRat := (one_mul _).symm
        _ ≤ most * (Binary64.ofInt count).toRat := by
          gcongr

/-- Doubles that hold natural numbers, at least one and not too many, whose sum has a double. -/
structure Tally (xs : List Binary64) (ns : List ℕ) : Prop where
  counts : List.Forall₂ Counts xs ns
  ne_nil : ns ≠ []
  length_le : ns.length ≤ 2 ^ 67
  sum_lt : ns.sum < 2 ^ 53

theorem Tally.lt {xs : List Binary64} {ns : List ℕ} (h : Tally xs ns) {n : ℕ} (hn : n ∈ ns) :
    n < 2 ^ 53 :=
  (List.single_le_sum (fun _ _ => Nat.zero_le _) _ hn).trans_lt h.sum_lt

/-- The mean of numbers lies between zero and any bound on them. -/
theorem toRat_mean_mem {xs : List Binary64} {ns : List ℕ} {most : ℕ} (chargers : ℕ)
    (h : Tally xs ns) (hmost : ∀ n ∈ ns, n ≤ most) (hlt : most < 2 ^ 53) :
    (columnSum chargers xs / Binary64.ofInt xs.length).isFinite = true ∧
      0 ≤ (columnSum chargers xs / Binary64.ofInt xs.length).toRat ∧
      (columnSum chargers xs / Binary64.ofInt xs.length).toRat ≤ most := by
  have htotal := counts_columnSum chargers h.counts h.sum_lt
  have hle : ns.sum ≤ most * ns.length := by
    have hbound := List.sum_le_card_nsmul ns most hmost
    rwa [nsmul_eq_mul, Nat.cast_id, mul_comm] at hbound
  obtain ⟨hfinite, hpos, hbound⟩ :=
    le_mul_toRat_ofInt h.sum_lt hle (List.length_pos_of_ne_nil h.ne_nil) h.length_le
  rw [h.counts.length_eq, Binary64.div_of_isFinite htotal.isFinite hfinite hpos.ne',
    htotal.toRat_eq]
  have hmem := Binary64.toRat_round_mem (a := 0) hlt
    (x := ns.sum / (Binary64.ofInt ns.length).toRat) (by positivity) ((div_le_iff₀ hpos).mpr hbound)
  exact_mod_cast hmem _

/-! ### Kilowatts -/

theorem div_thousand {x : Binary64} {bound : ℕ} (hx : x.isFinite = true) (hlow : 0 ≤ x.toRat)
    (hhigh : x.toRat ≤ bound) (hbound : bound < 2 ^ 53) :
    (x / 1000).isFinite = true ∧ 0 ≤ (x / 1000).toRat ∧
      (x / 1000).toRat = (Binary64.round (x.toRat / 1000)).place := by
  obtain ⟨hthousand, hvalue⟩ := Binary64.toRat_thousand
  have hmem := Binary64.toRat_round_mem (a := 0) hbound (x := x.toRat / 1000)
    (by rw [Nat.cast_zero]; positivity) (by linarith) (x.isNegative ^^ (1000 : Binary64).isNegative)
  rw [Binary64.div_of_isFinite hx hthousand (by rw [hvalue]; norm_num), hvalue]
  refine ⟨hmem.1, by exact_mod_cast hmem.2.1, ?_⟩
  rw [← Binary64.place_of_isFinite hmem.1]
  exact le_antisymm (Binary64.place_round_mono le_rfl _ _) (Binary64.place_round_mono le_rfl _ _)

/-- A grid connection that serves a vehicle has no more watts than its kilowatts make, but for the
error of one rounding. -/
theorem watts_le_of_ofKilowatts? {x : Binary64} {p : Power} (h : Power.ofKilowatts? x = .ok p)
    (hp : minimumCharge.watts ≤ p.watts) :
    x.isFinite = true ∧ 1 / 1000 ≤ x.toRat ∧ (p.watts : ℚ) ≤ x.toRat * 1000 * (1 + parts 1) := by
  obtain ⟨n, hn, rfl⟩ := map_eq_ok_iff.mp h
  obtain ⟨hproduct, rfl⟩ := Binary64.toIntBy_eq_ok_iff.mp hn
  have hx := Binary64.isFinite_left_of_mul hproduct
  obtain ⟨hthousand, hvalue⟩ := Binary64.toRat_thousand
  have hmin : (5000 : ℤ) ≤ truncated (x * 1000).toRat := hp
  have hcut := truncated_le_of_pos (hmin.trans_lt' (by norm_num))
  have hplace : (x * 1000).toRat = (Binary64.round (x.toRat * 1000)
      (x.isNegative ^^ (1000 : Binary64).isNegative)).place := by
    rw [← Binary64.place_of_isFinite hproduct, Binary64.mul_of_isFinite hx hthousand,
      hvalue]
  have hone : 1 ≤ x.toRat * 1000 := by
    by_contra hless
    have hround := Binary64.place_round_mono (y := ((1 : ℕ) : ℚ))
      (by exact_mod_cast (not_le.mp hless).le) (x.isNegative ^^ (1000 : Binary64).isNegative) false
    rw [Binary64.place_round_natCast (by norm_num), ← hplace] at hround
    have : (5000 : ℚ) ≤ truncated (x * 1000).toRat := by exact_mod_cast hmin
    norm_num at hround
    linarith
  refine ⟨hx, by linarith, hcut.trans ?_⟩
  rw [hplace]
  exact Binary64.place_round_le (by linarith) _

/-! ### The load on a charger -/

section Loads

variable {xs : List Binary64} {ns : List ℕ} (chargers position : ℕ) (config : ChargerConfig)

/-- **The mean load** is not negative and not above the peak load, also when both are rounded. -/
theorem utilisationOf_mean_le_peak (h : Tally xs ns) :
    let load := utilisationOf chargers position config xs
    Binary64.le 0 load.meanActiveKw = true ∧ load.meanActiveKw.le load.peakActiveKw = true := by
  obtain ⟨most, hmem, hgreatest, hmost⟩ := counts_greatest h.counts h.ne_nil
  have hlt := h.lt hmem
  obtain ⟨hmean, hmean_low, hmean_high⟩ := toRat_mean_mem chargers h hmost hlt
  obtain ⟨hkw, hkw_low, hkw_eq⟩ := div_thousand hmean hmean_low hmean_high hlt
  obtain ⟨hpeak, -, hpeak_eq⟩ := div_thousand hgreatest.isFinite
    (hgreatest.toRat_eq ▸ Nat.cast_nonneg most) hgreatest.toRat_eq.le hlt
  refine ⟨Binary64.zero_le_roundPlaces hkw hkw_low 4,
    Binary64.roundPlaces_le_roundPlaces hkw hpeak ?_ 4⟩
  rw [hkw_eq, hpeak_eq]
  refine Binary64.place_round_mono ?_ _ _
  rw [hgreatest.toRat_eq]
  gcongr

/-- **The utilisation** of a grid connection that serves a vehicle is between zero and one, if none
of the powers is above it. -/
theorem utilisationOf_mem_unit {grid : Power} (h : Tally xs ns)
    (hgrid : Power.ofKilowatts? config.gridConnectionKw = .ok grid)
    (hserves : minimumCharge.watts ≤ grid.watts) (hwithin : ∀ n ∈ ns, (n : ℤ) ≤ grid.watts) :
    let load := utilisationOf chargers position config xs
    Binary64.le 0 load.utilisation = true ∧ load.utilisation.le 1 = true := by
  obtain ⟨most, hmem, -, hmost⟩ := counts_greatest h.counts h.ne_nil
  have hlt := h.lt hmem
  obtain ⟨hmean, hmean_low, hmean_high⟩ := toRat_mean_mem chargers h hmost hlt
  obtain ⟨hkw, hkw_low, hkw_eq⟩ := div_thousand hmean hmean_low hmean_high hlt
  obtain ⟨hfinite, hleast, hwatts⟩ := watts_le_of_ofKilowatts? hgrid hserves
  set k := config.gridConnectionKw.toRat
  set mean := columnSum chargers xs / Binary64.ofInt xs.length
  have hk : 0 < k := by linarith
  have hparts : 0 ≤ parts 1 := Binary64.parts_nonneg 1
  have hpower : mean.toRat / 1000 ≤ k * (1 + parts 1) := by
    have hmost_le : (most : ℚ) ≤ grid.watts := by exact_mod_cast hwithin most hmem
    linarith
  have hratio : (mean / 1000).toRat / k ≤ (1 + parts 1) ^ 2 := by
    rw [div_le_iff₀ hk, hkw_eq]
    calc (Binary64.round (mean.toRat / 1000)).place
        ≤ (Binary64.round (k * (1 + parts 1))).place := Binary64.place_round_mono hpower _ _
      _ ≤ k * (1 + parts 1) * (1 + parts 1) := Binary64.place_round_le (by nlinarith) _
      _ = (1 + parts 1) ^ 2 * k := by ring
  have hquotient := Binary64.div_of_isFinite hkw hfinite hk.ne'
  have hmem_two := Binary64.toRat_round_mem (a := 0) (b := 2) (by norm_num)
    (x := (mean / 1000).toRat / k) (by rw [Nat.cast_zero]; positivity)
    (hratio.trans (by rw [parts]; norm_num))
    ((mean / 1000).isNegative ^^ config.gridConnectionKw.isNegative)
  rw [← hquotient] at hmem_two
  refine ⟨Binary64.zero_le_roundPlaces hmem_two.1 (by exact_mod_cast hmem_two.2.1) 4,
    Binary64.roundPlaces_four_le_one hmem_two.1 ?_⟩
  rw [← Binary64.place_of_isFinite hmem_two.1, hquotient]
  calc _ ≤ (Binary64.round ((1 + parts 1) ^ 2)).place := Binary64.place_round_mono hratio _ _
    _ ≤ (1 + parts 1) ^ 2 * (1 + parts 1) := Binary64.place_round_le (by nlinarith) _
    _ ≤ 1 + parts 8 := by
      rw [parts, parts]
      norm_num

end Loads

end ChargingSite
