import ChargingSite.Proofs.Number.Binary64.Arithmetic

/-!
# Cutting off what was rounded before

A quotient of integers is rounded to a double before it is cut off to an integer.  The two steps
are one exact division of integers as long as the numerator is below `2 ^ 53`
(`truncate?_of_quotient?`, `truncate?_ofInt_div_ofInt`): rounding is off by at most one part in
`2 ^ 53` (`abs_kept_sub_le`), while a rational lies at least one part of its denominator below the
next integer (`add_one_div_den_le_floor`), and no rounding gets over that gap
(`kept_lt_floor_add_one`).
-/

namespace ChargingSite.Binary64

/-! ### The gap to the next integer -/

theorem add_one_div_den_le_floor (x : ℚ) : x + 1 / x.den ≤ ⌊x⌋ + 1 := by
  have hden : (0 : ℚ) < x.den := by exact_mod_cast x.den_pos
  -- between the numerator and the next multiple of the denominator
  have hnum : (x.num : ℚ) + 1 ≤ (⌊x⌋ + 1) * x.den := by
    have hlt : x * x.den < (⌊x⌋ + 1) * x.den := by
      gcongr
      exact Int.lt_floor_add_one x
    rw [Rat.mul_den_eq_num] at hlt
    have hint : x.num < (⌊x⌋ + 1) * x.den := by exact_mod_cast hlt
    exact_mod_cast hint
  calc x + 1 / x.den = (x.num + 1) / x.den := by rw [add_div, Rat.num_div_den]
    _ ≤ ⌊x⌋ + 1 := (div_le_iff₀ hden).mpr hnum

theorem floor_add_one_div_den_le {x : ℚ} (hx : x ≠ ⌊x⌋) : ⌊x⌋ + 1 / x.den ≤ x := by
  have hden : (0 : ℚ) < x.den := by exact_mod_cast x.den_pos
  -- between the multiple of the denominator below and the numerator
  have hnum : ⌊x⌋ * x.den + 1 ≤ (x.num : ℚ) := by
    have hlt : ⌊x⌋ * x.den < x * x.den := by
      gcongr
      exact lt_of_le_of_ne (Int.floor_le x) hx.symm
    rw [Rat.mul_den_eq_num] at hlt
    have hint : ⌊x⌋ * x.den < x.num := by exact_mod_cast hlt
    exact_mod_cast hint
  calc ⌊x⌋ + 1 / (x.den : ℚ) = (⌊x⌋ * x.den + 1) / x.den := by
        rw [add_div, mul_div_cancel_right₀ _ hden.ne']
    _ ≤ x.num / x.den := by gcongr
    _ = x := Rat.num_div_den x

/-! ### The error of the first 53 bits -/

/-- Above the least normal double rounding is off by at most one part in `2 ^ 53`. -/
theorem abs_kept_sub_le {x : ℚ} (hx : 0 < x) (hnormal : -1022 ≤ binaryExponent x) :
    |kept x - x| ≤ x * 2 ^ (-53 : ℤ) := by
  have hlast : lastExponent x = binaryExponent x - 52 := by
    rw [lastExponent]
    omega
  have hself : x * 2 ^ (-lastExponent x) * 2 ^ lastExponent x = x := by
    rw [mul_assoc, ← zpow_add₀ (by norm_num), neg_add_cancel, zpow_zero, mul_one]
  have hpos : (0 : ℚ) < 2 ^ lastExponent x := zpow_pos (by norm_num) _
  have herror : kept x - x =
      (nearestSignificand x - x * 2 ^ (-lastExponent x)) * 2 ^ lastExponent x := by
    rw [sub_mul, hself, kept]
  calc |kept x - x|
      = |nearestSignificand x - x * 2 ^ (-lastExponent x)| * 2 ^ lastExponent x := by
        rw [herror, abs_mul, abs_of_pos hpos]
    _ ≤ 1 / 2 * 2 ^ lastExponent x := by
        gcongr
        exact abs_nearestEven_sub_le _
    _ = 2 ^ binaryExponent x * 2 ^ (-53 : ℤ) := by
        rw [hlast, zpow_sub₀ (by norm_num)]
        norm_num
        ring
    _ ≤ x * 2 ^ (-53 : ℤ) := by
        gcongr
        exact zpow_binaryExponent_le hx

theorem kept_half : kept (1 / 2) = 1 / 2 := by
  have h := kept_of_canonical (m := 4503599627370496) (e := -53) (by decide) (by decide)
  norm_num at h
  exact h

/-- **Rounding does not reach the next integer**, for a numerator below `2 ^ 53`. -/
theorem kept_lt_floor_add_one {x : ℚ} (hx : 0 < x) (hnum : x.num < 2 ^ 53) :
    kept x < ⌊x⌋ + 1 := by
  rcases le_or_gt x (1 / 2) with hle | hgt
  · -- however small the rational is, it is rounded to one half at most
    have hfloor : (0 : ℚ) ≤ ⌊x⌋ := by exact_mod_cast Int.floor_nonneg.mpr hx.le
    calc kept x ≤ 1 / 2 := kept_half ▸ kept_mono hx hle
      _ < ⌊x⌋ + 1 := by linarith
  · have hnormal : -1022 ≤ binaryExponent x := by
      have hhalf : binaryExponent (1 / 2) = -1 := by
        apply binaryExponent_eq <;> norm_num
      have := binaryExponent_mono (by norm_num) hgt.le
      omega
    have hden : (0 : ℚ) < x.den := by exact_mod_cast x.den_pos
    have herror : x * 2 ^ (-53 : ℤ) < 1 / x.den := by
      rw [lt_div_iff₀ hden, mul_right_comm, Rat.mul_den_eq_num]
      calc (x.num : ℚ) * 2 ^ (-53 : ℤ) < 2 ^ (53 : ℤ) * 2 ^ (-53 : ℤ) := by
            gcongr
            exact_mod_cast hnum
        _ = 1 := by norm_num
    calc kept x ≤ x + x * 2 ^ (-53 : ℤ) := by linarith [(abs_le.mp (abs_kept_sub_le hx hnormal)).2]
      _ < x + 1 / x.den := by linarith
      _ ≤ ⌊x⌋ + 1 := add_one_div_den_le_floor x

/-! ### Rounding, then cutting off -/

theorem floor_place_round {x : ℚ} (hx : 0 ≤ x) (hnum : x.num < 2 ^ 53) (nz : Bool) :
    0 ≤ (round x nz).place ∧ (round x nz).place < limit ∧ ⌊(round x nz).place⌋ = ⌊x⌋ := by
  have hle : ⌊x⌋ ≤ x.num := by
    have hfloor : ⌊x⌋ = x.num / x.den := Rat.floor_def x
    rw [hfloor]
    exact Int.ediv_le_self _ (Rat.num_nonneg.mpr hx)
  obtain ⟨n, hn⟩ := Int.eq_ofNat_of_zero_le (Int.floor_nonneg.mpr hx)
  have hnx : (n : ℚ) ≤ x := by exact_mod_cast hn ▸ Int.floor_le x
  -- rounding is monotone and keeps whole numbers
  have hlow : (n : ℚ) ≤ (round x nz).place := by
    rw [← place_round_natCast (by omega) false]
    exact place_round_mono hnx false nz
  -- the fraction is too far away from the next whole number to be rounded up to it
  have hhigh : (round x nz).place < n + 1 := by
    rcases hx.eq_or_lt with rfl | hpos
    · rw [place_round_zero]
      exact_mod_cast n.succ_pos
    · have hkept : kept x < n + 1 := by exact_mod_cast hn ▸ kept_lt_floor_add_one hpos hnum
      rw [place_round_of_pos hpos]
      exact (min_le_left _ _).trans_lt hkept
  refine ⟨n.cast_nonneg.trans hlow, ?_, ?_⟩
  · calc (round x nz).place < ((n + 1 : ℤ) : ℚ) := by exact_mod_cast hhigh
      _ ≤ 2 ^ (53 : ℤ) := by
        have : (n : ℤ) + 1 ≤ 2 ^ 53 := by omega
        exact_mod_cast this
      _ ≤ 2 ^ (1024 : ℤ) := zpow_le_zpow_right₀ (by norm_num) (by norm_num)
      _ = limit := zpow_eq_limit rfl
  · rw [hn, Int.floor_eq_iff]
    exact ⟨hlow, hhigh⟩

/-- **Rounding before cutting off changes nothing** for a numerator below `2 ^ 53`, on both sides of
zero. -/
theorem truncated_toRat_round {x : ℚ} (hnum : x.num.natAbs < 2 ^ 53) (nz : Bool) :
    (round x nz).isFinite = true ∧ truncated (round x nz).toRat = truncated x := by
  rw [isFinite_iff_abs_place_lt (round_ne_nan x nz)]
  suffices h : |(round x nz).place| < limit ∧ truncated (round x nz).place = truncated x by
    have hfinite := (isFinite_iff_abs_place_lt (round_ne_nan x nz)).mpr h.1
    rwa [← place_of_isFinite hfinite]
  rcases le_total 0 x with hx | hx
  · obtain ⟨hnonneg, hlt, hfloor⟩ := floor_place_round hx (by omega) nz
    rw [abs_of_nonneg hnonneg, truncated_of_nonneg hnonneg, truncated_of_nonneg hx]
    exact ⟨hlt, hfloor⟩
  · -- the opposite rational lies on the other side
    have hx' : 0 ≤ -x := neg_nonneg.mpr hx
    have hnum' : (-x).num < 2 ^ 53 := by
      rw [Rat.neg_num]
      omega
    obtain ⟨hnonneg, hlt, hfloor⟩ := floor_place_round hx' hnum' nz
    have hplace : (round x nz).place = -(round (-x) nz).place := by
      rw [place_round_neg x nz nz, neg_neg]
    have htrunc : truncated x = -⌊-x⌋ := by
      rw [← truncated_of_nonneg hx', truncated_neg, neg_neg]
    rw [hplace, abs_neg, abs_of_nonneg hnonneg, truncated_neg, truncated_of_nonneg hnonneg, htrunc,
      hfloor]
    exact ⟨hlt, rfl⟩

theorem natAbs_num_mkRat_le (a : ℤ) (b : ℕ) : (mkRat a b).num.natAbs ≤ a.natAbs := by
  rw [Rat.num_mkRat]
  split
  · exact Nat.zero_le _
  · exact Int.natAbs_ediv_le_natAbs _ _

/-- **Cutting off the double nearest to a quotient is exact division**, toward zero, for a numerator
of at most 53 bits. -/
theorem truncate?_of_quotient? {a : ℤ} (ha : a.natAbs < 2 ^ 53) (b : ℕ) :
    (quotient? a b >>= truncate?) = .ok (a.tdiv b) := by
  have hnum : (mkRat a b).num.natAbs < 2 ^ 53 := (natAbs_num_mkRat_le a b).trans_lt ha
  obtain ⟨hfinite, htrunc⟩ := truncated_toRat_round hnum false
  unfold quotient?
  rw [if_pos hfinite]
  refine toIntBy_eq_ok_iff.mpr ⟨hfinite, ?_⟩
  rw [htrunc, Rat.mkRat_eq_div, truncated_div]

theorem natAbs_num_intCast_div_le (a b : ℤ) : ((a : ℚ) / b).num.natAbs ≤ a.natAbs := by
  obtain ⟨n, rfl | rfl⟩ := Int.eq_nat_or_neg b
  · rw [Int.cast_natCast, ← Rat.mkRat_eq_div]
    exact natAbs_num_mkRat_le a n
  · rw [Int.cast_neg, Int.cast_natCast, div_neg, ← Rat.mkRat_eq_div, Rat.neg_num, Int.natAbs_neg]
    exact natAbs_num_mkRat_le a n

/-- **The quotient of two doubles that are integers**, cut off, is exact division, too. -/
theorem truncate?_ofInt_div_ofInt {a b : ℤ} (ha : a.natAbs < 2 ^ 53) (hb : b.natAbs < 2 ^ 53)
    (hb₀ : b ≠ 0) : (ofInt a / ofInt b).truncate? = .ok (a.tdiv b) := by
  obtain ⟨hfinite, hvalue⟩ := toRat_ofInt ha
  obtain ⟨hfinite', hvalue'⟩ := toRat_ofInt hb
  have hdivisor : (ofInt b).toRat ≠ 0 := by
    rw [hvalue']
    exact_mod_cast hb₀
  rw [div_of_isFinite hfinite hfinite' hdivisor, hvalue, hvalue']
  have hnum := (natAbs_num_intCast_div_le a b).trans_lt ha
  obtain ⟨hround, htrunc⟩ := truncated_toRat_round hnum
    ((ofInt a).isNegative ^^ (ofInt b).isNegative)
  refine toIntBy_eq_ok_iff.mpr ⟨hround, ?_⟩
  rw [htrunc, truncated_intCast_div]

end ChargingSite.Binary64
