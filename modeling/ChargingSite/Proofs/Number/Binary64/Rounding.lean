import ChargingSite.Number.Binary64
import ChargingSite.Proofs.Number.Scaled
import Mathlib.Algebra.Order.Field.Power
import Mathlib.Tactic.GCongr
import Mathlib.Tactic.Positivity

/-!
# Rounding to doubles

Every double that is a number has a place on the number line (`Binary64.place`): a finite one stands
at its value and the infinities at `± 2 ^ 1024`, beyond all finite ones.  Rounding a positive
rational keeps its first 53 bits (`kept`) and cuts the result off at `2 ^ 1024`
(`place_roundMagnitude`).  Hence rounding never changes the order of two numbers
(`place_round_mono`), and the value of a finite double is rounded to itself (`place_round_toRat`).
-/

namespace ChargingSite.Binary64

/-! ### Places on the number line -/

/-- Where the infinities stand: just beyond the greatest finite double. -/
@[irreducible] def limit : ℚ := (2 : ℚ) ^ (1024 : ℤ)

/-- A magnitude with a sign, where `true` stands for the minus. -/
def signed (s : Bool) (x : ℚ) : ℚ :=
  if s then -x else x

/-- The place of a double on the number line; that of not a number means nothing. -/
def place : Binary64 → ℚ
  | nan => 0
  | infinity s => signed s limit
  | x@(finite ..) => x.toRat

@[simp] theorem abs_signed (s : Bool) (x : ℚ) : |signed s x| = |x| := by
  cases s <;> simp [signed]

theorem zpow_eq_limit {a : ℤ} (h : a = 1024) : (2 : ℚ) ^ a = limit := by
  rw [limit, h]

theorem limit_pos : 0 < limit := by
  rw [limit]
  exact zpow_pos (by norm_num) _

theorem toRat_finite {s : Bool} {m : ℕ} {e : ℤ} (h : Canonical m e) :
    (finite s m e h).toRat = signed s (m * 2 ^ e) := by
  cases s <;> simp [toRat, signed, scaled_eq_mul_zpow]

theorem significand_mul_zpow_lt_limit {m : ℕ} {e : ℤ} (h : Canonical m e) :
    (m : ℚ) * 2 ^ e < limit := by
  obtain ⟨hm, -, he, -⟩ := h
  have hm' : (m : ℚ) < 2 ^ (53 : ℤ) := by
    have : m < 2 ^ 53 := by omega
    exact_mod_cast this
  have hpos : (0 : ℚ) < 2 ^ e := zpow_pos (by norm_num) _
  calc (m : ℚ) * 2 ^ e < 2 ^ (53 : ℤ) * 2 ^ e := mul_lt_mul_of_pos_right hm' hpos
    _ = 2 ^ (53 + e) := (zpow_add₀ (by norm_num) _ _).symm
    _ ≤ 2 ^ (1024 : ℤ) := zpow_le_zpow_right₀ (by norm_num) (by omega)
    _ = limit := zpow_eq_limit rfl

theorem abs_toRat_finite_lt_limit {s : Bool} {m : ℕ} {e : ℤ} (h : Canonical m e) :
    |(finite s m e h).toRat| < limit := by
  rw [toRat_finite, abs_signed, abs_of_nonneg (by positivity)]
  exact significand_mul_zpow_lt_limit h

/-- A double that is a number is finite exactly if it stands between the infinities. -/
theorem isFinite_iff_abs_place_lt {x : Binary64} (hx : x ≠ nan) :
    x.isFinite = true ↔ |x.place| < limit := by
  cases x with
  | nan => exact absurd rfl hx
  | infinity s => simp [isFinite, place, abs_of_pos limit_pos]
  | finite s m e h => simp [isFinite, place, abs_toRat_finite_lt_limit h]

/-! ### The exponent of a rational -/

/-- The bit lengths of numerator and denominator enclose a positive rational. -/
theorem between_log2 {x : ℚ} (hx : 0 < x) :
    (2 : ℚ) ^ ((x.num.natAbs.log2 : ℤ) - x.den.log2 - 1) ≤ x ∧
      x < 2 ^ ((x.num.natAbs.log2 : ℤ) - x.den.log2 + 1) := by
  have hnum : x.num.natAbs ≠ 0 := by
    have := Rat.num_pos.mpr hx
    omega
  have hden : (0 : ℚ) < x.den := by exact_mod_cast x.den_pos
  have hx' : x * x.den = (x.num.natAbs : ℚ) := by
    have hcast : (x.num.natAbs : ℤ) = x.num := Int.natAbs_of_nonneg (Rat.num_pos.mpr hx).le
    rw [Rat.mul_den_eq_num, ← Int.cast_natCast x.num.natAbs, hcast]
  have hnum₁ : (2 : ℚ) ^ x.num.natAbs.log2 ≤ x.num.natAbs := by
    exact_mod_cast Nat.log2_self_le hnum
  have hnum₂ : (x.num.natAbs : ℚ) < 2 ^ (x.num.natAbs.log2 + 1) := by
    exact_mod_cast Nat.lt_log2_self
  have hden₁ : (2 : ℚ) ^ x.den.log2 ≤ x.den := by
    exact_mod_cast Nat.log2_self_le x.den_nz
  have hden₂ : (x.den : ℚ) < 2 ^ (x.den.log2 + 1) := by
    exact_mod_cast Nat.lt_log2_self
  rw [← hx'] at hnum₁ hnum₂
  have two : (2 : ℚ) ≠ 0 := by norm_num
  have pos (k : ℤ) : (0 : ℚ) < 2 ^ k := zpow_pos (by norm_num) k
  constructor
  · -- the numerator is at its least and the denominator at its greatest
    rw [sub_sub, zpow_sub₀ two, div_le_iff₀ (pos _)]
    calc (2 : ℚ) ^ ((x.num.natAbs.log2 : ℕ) : ℤ) = 2 ^ x.num.natAbs.log2 := zpow_natCast _ _
      _ ≤ x * x.den := hnum₁
      _ ≤ x * 2 ^ ((x.den.log2 : ℤ) + 1) := by
        gcongr
        exact_mod_cast hden₂.le
  · -- and the other way round
    rw [show (x.num.natAbs.log2 : ℤ) - x.den.log2 + 1 = (x.num.natAbs.log2 + 1 : ℕ) - x.den.log2 by
      push_cast; ring, zpow_sub₀ two, lt_div_iff₀ (pos _)]
    calc x * 2 ^ ((x.den.log2 : ℕ) : ℤ) ≤ x * x.den := by
          gcongr
          exact_mod_cast hden₁
      _ < 2 ^ (x.num.natAbs.log2 + 1) := hnum₂
      _ = 2 ^ ((x.num.natAbs.log2 + 1 : ℕ) : ℤ) := (zpow_natCast _ _).symm

theorem zpow_binaryExponent_le {x : ℚ} (hx : 0 < x) : (2 : ℚ) ^ binaryExponent x ≤ x := by
  unfold binaryExponent
  simp only [scaled_eq_mul_zpow, Int.cast_one, one_mul, Nat.cast_ofNat]
  split_ifs with h
  · exact h
  · exact (between_log2 hx).1

theorem lt_zpow_binaryExponent_add_one {x : ℚ} (hx : 0 < x) :
    x < (2 : ℚ) ^ (binaryExponent x + 1) := by
  unfold binaryExponent
  simp only [scaled_eq_mul_zpow, Int.cast_one, one_mul, Nat.cast_ofNat]
  split_ifs with h
  · exact (between_log2 hx).2
  · rw [sub_add_cancel]
    exact not_le.mp h

theorem binaryExponent_mono {x y : ℚ} (hx : 0 < x) (h : x ≤ y) :
    binaryExponent x ≤ binaryExponent y := by
  have hlt : (2 : ℚ) ^ binaryExponent x < 2 ^ (binaryExponent y + 1) :=
    calc (2 : ℚ) ^ binaryExponent x ≤ x := zpow_binaryExponent_le hx
      _ ≤ y := h
      _ < 2 ^ (binaryExponent y + 1) := lt_zpow_binaryExponent_add_one (hx.trans_le h)
  have := (zpow_lt_zpow_iff_right₀ (by norm_num : (1 : ℚ) < 2)).mp hlt
  omega

/-- The two bounds determine the exponent. -/
theorem binaryExponent_eq {x : ℚ} {e : ℤ} (hlow : (2 : ℚ) ^ e ≤ x) (hhigh : x < 2 ^ (e + 1)) :
    binaryExponent x = e := by
  have hx : 0 < x := lt_of_lt_of_le (zpow_pos (by norm_num) _) hlow
  have one_lt : (1 : ℚ) < 2 := by norm_num
  have h₁ := (zpow_lt_zpow_iff_right₀ one_lt).mp ((zpow_binaryExponent_le hx).trans_lt hhigh)
  have h₂ := (zpow_lt_zpow_iff_right₀ one_lt).mp (hlow.trans_lt (lt_zpow_binaryExponent_add_one hx))
  omega

/-! ### The first 53 bits of a positive rational -/

/-- The exponent of the last bit that rounding keeps: of 53 bits, but never below the least one. -/
def lastExponent (x : ℚ) : ℤ :=
  max (binaryExponent x - 52) (-1074)

/-- A positive rational in units of its last bit, to the nearest integer. -/
def nearestSignificand (x : ℚ) : ℤ :=
  nearestEven (x * 2 ^ (-lastExponent x))

/-- A positive rational rounded to its last bit, where no exponent is too great. -/
def kept (x : ℚ) : ℚ :=
  nearestSignificand x * 2 ^ lastExponent x

theorem nearestSignificand_nonneg {x : ℚ} (hx : 0 < x) : 0 ≤ nearestSignificand x := by
  apply le_nearestEven_of_le
  rw [Int.cast_zero]
  positivity

theorem nearestSignificand_le {x : ℚ} (hx : 0 < x) : nearestSignificand x ≤ 2 ^ 53 := by
  apply nearestEven_le_of_le
  have hx₁ : x ≤ 2 ^ (53 + lastExponent x) :=
    calc x ≤ 2 ^ (binaryExponent x + 1) := (lt_zpow_binaryExponent_add_one hx).le
      _ ≤ 2 ^ (53 + lastExponent x) := zpow_le_zpow_right₀ (by norm_num) (by
        rw [lastExponent]
        omega)
  calc x * 2 ^ (-lastExponent x) ≤ 2 ^ (53 + lastExponent x) * 2 ^ (-lastExponent x) := by gcongr
    _ = 2 ^ (53 : ℤ) := by rw [← zpow_add₀ (by norm_num)]; congr 1; ring
    _ = ((2 ^ 53 : ℤ) : ℚ) := by norm_num

/-- Above the least exponent all 53 bits are used. -/
theorem le_nearestSignificand {x : ℚ} (hx : 0 < x) (h : -1074 < lastExponent x) :
    2 ^ 52 ≤ nearestSignificand x := by
  apply le_nearestEven_of_le
  have hlast : lastExponent x = binaryExponent x - 52 := by
    rw [lastExponent] at h ⊢
    omega
  calc ((2 ^ 52 : ℤ) : ℚ) = 2 ^ (52 : ℤ) := by norm_num
    _ = 2 ^ binaryExponent x * 2 ^ (-lastExponent x) := by
      rw [← zpow_add₀ (by norm_num), hlast]
      congr 1
      ring
    _ ≤ x * 2 ^ (-lastExponent x) := by
      gcongr
      exact zpow_binaryExponent_le hx

theorem kept_nonneg {x : ℚ} (hx : 0 < x) : 0 ≤ kept x := by
  have : (0 : ℚ) ≤ nearestSignificand x := by exact_mod_cast nearestSignificand_nonneg hx
  unfold kept
  positivity

/-- Rounding to the last bit keeps the order, also where the last bit changes. -/
theorem kept_mono {x y : ℚ} (hx : 0 < x) (h : x ≤ y) : kept x ≤ kept y := by
  have hy : 0 < y := hx.trans_le h
  have hexp : lastExponent x ≤ lastExponent y := by
    have := binaryExponent_mono hx h
    rw [lastExponent, lastExponent]
    omega
  have two : (1 : ℚ) ≤ 2 := by norm_num
  unfold kept
  rcases hexp.eq_or_lt with heq | hlt
  · rw [heq]
    gcongr
    rw [nearestSignificand, nearestSignificand, heq]
    apply nearestEven_mono
    gcongr
  · -- a power of two lies between the two
    have hlow : (nearestSignificand x : ℚ) ≤ 2 ^ (53 : ℤ) := by
      exact_mod_cast nearestSignificand_le hx
    have hhigh : (2 : ℚ) ^ (52 : ℤ) ≤ nearestSignificand y := by
      have : -1074 ≤ lastExponent x := le_max_right _ _
      exact_mod_cast le_nearestSignificand hy (by omega)
    calc (nearestSignificand x : ℚ) * 2 ^ lastExponent x ≤ 2 ^ (53 : ℤ) * 2 ^ lastExponent x := by
          gcongr
      _ = 2 ^ (53 + lastExponent x) := (zpow_add₀ (by norm_num) _ _).symm
      _ ≤ 2 ^ (52 + lastExponent y) := zpow_le_zpow_right₀ two (by omega)
      _ = 2 ^ (52 : ℤ) * 2 ^ lastExponent y := zpow_add₀ (by norm_num) _ _
      _ ≤ nearestSignificand y * 2 ^ lastExponent y := by gcongr

/-- A whole number of last bits is kept as it is. -/
theorem kept_eq_self {x : ℚ} {k : ℤ} (h : x * 2 ^ (-lastExponent x) = k) : kept x = x := by
  rw [kept, nearestSignificand, h, nearestEven_intCast, ← h, mul_assoc,
    ← zpow_add₀ (by norm_num), neg_add_cancel, zpow_zero, mul_one]

theorem kept_natCast {n : ℕ} (hpos : 0 < n) (hlt : n < 2 ^ 53) : kept n = n := by
  have hpos' : (0 : ℚ) < n := by exact_mod_cast hpos
  have hlast : lastExponent n ≤ 0 := by
    have hlt' : (2 : ℚ) ^ binaryExponent n < 2 ^ (53 : ℤ) :=
      calc (2 : ℚ) ^ binaryExponent n ≤ n := zpow_binaryExponent_le hpos'
        _ < 2 ^ (53 : ℤ) := by exact_mod_cast hlt
    have := (zpow_lt_zpow_iff_right₀ (by norm_num : (1 : ℚ) < 2)).mp hlt'
    rw [lastExponent]
    omega
  obtain ⟨k, hk⟩ := Int.eq_ofNat_of_zero_le (neg_nonneg.mpr hlast)
  apply kept_eq_self (k := n * 2 ^ k)
  rw [hk]
  push_cast
  rw [zpow_natCast]

/-- The bits of a double are all kept. -/
theorem kept_of_canonical {m : ℕ} {e : ℤ} (hm : m ≠ 0) (h : Canonical m e) :
    kept (m * 2 ^ e) = m * 2 ^ e := by
  obtain ⟨hlt, hmin, -, hfull⟩ := h
  have hpos : (0 : ℚ) < m * 2 ^ e := by
    have : (0 : ℚ) < m := by exact_mod_cast Nat.pos_of_ne_zero hm
    positivity
  -- the last bit has the exponent of the double
  have hlast : lastExponent (m * 2 ^ e) = e := by
    have hbelow : binaryExponent (m * 2 ^ e) - 52 ≤ e := by
      have hlt' : (m : ℚ) * 2 ^ e < 2 ^ (53 + e) := by
        rw [zpow_add₀ (by norm_num)]
        gcongr
        have : m < 2 ^ 53 := by omega
        exact_mod_cast this
      have := (zpow_lt_zpow_iff_right₀ (by norm_num : (1 : ℚ) < 2)).mp
        ((zpow_binaryExponent_le hpos).trans_lt hlt')
      omega
    rcases hfull with hfull | rfl
    · have : binaryExponent (m * 2 ^ e) = 52 + e := by
        apply binaryExponent_eq
        · rw [zpow_add₀ (by norm_num)]
          gcongr
          have : 2 ^ 52 ≤ m := by omega
          exact_mod_cast this
        · rw [add_right_comm, zpow_add₀ (by norm_num)]
          gcongr
          have : m < 2 ^ 53 := by omega
          exact_mod_cast this
      rw [lastExponent]
      omega
    · rw [lastExponent]
      omega
  apply kept_eq_self (k := m)
  rw [hlast, mul_assoc, ← zpow_add₀ (by norm_num), add_neg_cancel, zpow_zero, mul_one]
  norm_cast

/-! ### Rounding to a double -/

/-- Parts with at most 53 bits make the double of that value, or the infinity if it is too great. -/
theorem place_ofParts (s : Bool) {m : ℕ} {e : ℤ} (hm : m < 2 ^ 53) (he : -1074 ≤ e)
    (hfull : 2 ^ 52 ≤ m ∨ e = -1074) :
    (ofParts s m e).place = signed s (min ((m : ℚ) * 2 ^ e) limit) := by
  unfold ofParts
  by_cases h : Canonical m e
  · -- the parts are those of a double
    rw [dif_pos h, min_eq_left (significand_mul_zpow_lt_limit h).le, place, toRat_finite]
  · -- they are not, as the exponent is too great, and the number is above the limit
    have hgreat : limit ≤ m * 2 ^ e := by
      have he' : 971 < e := by
        by_contra hle
        exact h ⟨by omega, he, by omega, by omega⟩
      have hm' : (2 : ℚ) ^ (52 : ℤ) ≤ m := by
        have : 2 ^ 52 ≤ m := by omega
        exact_mod_cast this
      calc limit = 2 ^ (1024 : ℤ) := (zpow_eq_limit rfl).symm
        _ ≤ 2 ^ (52 + e) := zpow_le_zpow_right₀ (by norm_num) (by omega)
        _ = 2 ^ (52 : ℤ) * 2 ^ e := zpow_add₀ (by norm_num) _ _
        _ ≤ m * 2 ^ e := by gcongr
    rw [dif_neg h, min_eq_right hgreat, place]

/-- Rounding a positive rational keeps its first bits and cuts it off at the infinity. -/
theorem place_roundMagnitude (s : Bool) {x : ℚ} (hx : 0 < x) :
    (roundMagnitude s x).place = signed s (min (kept x) limit) := by
  obtain ⟨m, hm⟩ := Int.eq_ofNat_of_zero_le (nearestSignificand_nonneg hx)
  have hle := nearestSignificand_le hx
  have hfull (h : -1074 < lastExponent x) := le_nearestSignificand hx h
  have hmin : -1074 ≤ lastExponent x := le_max_right _ _
  have hkept : kept x = m * 2 ^ lastExponent x := by
    rw [kept, hm]
    norm_cast
  have hround : roundMagnitude s x =
      if m = 9007199254740992 then ofParts s 4503599627370496 (lastExponent x + 1)
      else ofParts s m (lastExponent x) := by
    have hnearest : nearestEven (x * scaled 2 1 (-max (binaryExponent x - 52) (-1074))) = m := by
      rw [← hm, nearestSignificand, lastExponent, scaled_eq_mul_zpow]
      norm_num
    simp only [roundMagnitude, hnearest, Int.toNat_natCast, lastExponent]
  rw [hm] at hle hfull
  rw [hround, hkept]
  by_cases hcarry : m = 9007199254740992
  · -- a carry: the last bit is dropped
    have hvalue : ((4503599627370496 : ℕ) : ℚ) * 2 ^ (lastExponent x + 1) =
        m * 2 ^ lastExponent x := by
      rw [hcarry, zpow_add₀ (by norm_num)]
      push_cast
      ring
    rw [if_pos hcarry, place_ofParts s (by norm_num) (by omega) (by norm_num), hvalue]
  · rw [if_neg hcarry, place_ofParts s (by omega) hmin (by omega)]

theorem roundMagnitude_ne_nan (s : Bool) (x : ℚ) : roundMagnitude s x ≠ nan := by
  have hparts (m : ℕ) (e : ℤ) : ofParts s m e ≠ nan := by
    unfold ofParts
    split <;> simp
  unfold roundMagnitude
  dsimp only
  split <;> exact hparts _ _

theorem round_ne_nan (x : ℚ) (nz : Bool) : round x nz ≠ nan := by
  unfold round
  split_ifs
  · simp [zero]
  · exact roundMagnitude_ne_nan _ _
  · exact roundMagnitude_ne_nan _ _

/-- The sign of zero matters to nothing but zero. -/
theorem round_of_ne_zero {x : ℚ} (hx : x ≠ 0) (a b : Bool) : round x a = round x b := by
  have hnum : x.num ≠ 0 := mt Rat.num_eq_zero.mp hx
  rw [round, round, if_neg hnum, if_neg hnum]

theorem place_round_zero (nz : Bool) : (round 0 nz).place = 0 := by
  cases nz <;> simp [round, zero, place, toRat, scaled_eq_mul_zpow]

theorem place_round_of_pos {x : ℚ} (hx : 0 < x) (nz : Bool) :
    (round x nz).place = min (kept x) limit := by
  have hnum := Rat.num_pos.mpr hx
  rw [round, if_neg hnum.ne', if_neg hnum.not_gt, place_roundMagnitude false hx]
  rfl

theorem place_round_of_neg {x : ℚ} (hx : x < 0) (nz : Bool) :
    (round x nz).place = -min (kept (-x)) limit := by
  have hnum := Rat.num_neg.mpr hx
  rw [round, if_neg hnum.ne, if_pos hnum, place_roundMagnitude true (neg_pos.mpr hx)]
  rfl

/-- **Rounding keeps the order** of two rationals, whatever signs their zeros would have. -/
theorem place_round_mono {x y : ℚ} (h : x ≤ y) (a b : Bool) :
    (round x a).place ≤ (round y b).place := by
  have hlimit := limit_pos.le
  rcases lt_trichotomy x 0 with hx | rfl | hx
  · have hkept := kept_nonneg (neg_pos.mpr hx)
    rw [place_round_of_neg hx]
    rcases lt_trichotomy y 0 with hy | rfl | hy
    · -- both are negative, so the greater one has the smaller magnitude
      rw [place_round_of_neg hy]
      exact neg_le_neg (min_le_min_right _ (kept_mono (neg_pos.mpr hy) (neg_le_neg h)))
    · -- rounding a negative number gives none above zero
      rw [place_round_zero]
      exact neg_nonpos.mpr (le_min hkept hlimit)
    · -- zero is between the two
      rw [place_round_of_pos hy]
      exact (neg_nonpos.mpr (le_min hkept hlimit)).trans (le_min (kept_nonneg hy) hlimit)
  · rw [place_round_zero]
    rcases h.eq_or_lt with rfl | hy
    · rw [place_round_zero]
    · rw [place_round_of_pos hy]
      exact le_min (kept_nonneg hy) hlimit
  · -- both are positive
    rw [place_round_of_pos hx, place_round_of_pos (hx.trans_le h)]
    exact min_le_min_right _ (kept_mono hx h)

/-- The signs of a rational and of the double nearest to it change together. -/
theorem place_round_neg (x : ℚ) (a b : Bool) : (round (-x) a).place = -(round x b).place := by
  rcases lt_trichotomy x 0 with hx | rfl | hx
  · rw [place_round_of_pos (neg_pos.mpr hx), place_round_of_neg hx, neg_neg]
  · rw [neg_zero, place_round_zero, place_round_zero, neg_zero]
  · rw [place_round_of_neg (neg_neg_of_pos hx), place_round_of_pos hx, neg_neg]

/-- The magnitude of a rounded rational is that of its rounded magnitude. -/
theorem abs_place_round (x : ℚ) (nz : Bool) : |(round x nz).place| = (round |x|).place := by
  have hnonneg : 0 ≤ (round |x|).place := by
    have := place_round_mono (abs_nonneg x) false false
    rwa [place_round_zero] at this
  rcases abs_choice x with h | h
  · have hplace : (round x nz).place = (round |x|).place := by
      rw [h]
      exact le_antisymm (place_round_mono le_rfl _ _) (place_round_mono le_rfl _ _)
    rw [hplace, abs_of_nonneg hnonneg]
  · have hplace : (round x nz).place = -(round |x|).place := by
      rw [h, place_round_neg x false nz, neg_neg]
    rw [hplace, abs_neg, abs_of_nonneg hnonneg]

/-- **A finite double is rounded to itself**, up to the sign of a zero. -/
theorem place_round_toRat {x : Binary64} (hx : x.isFinite = true) (nz : Bool) :
    (round x.toRat nz).place = x.toRat := by
  cases x with
  | nan => cases hx
  | infinity s => cases hx
  | finite s m e h =>
    rw [toRat_finite]
    -- a significand of zero has two signs and one place
    by_cases hm : m = 0
    · subst hm
      have : signed s ((0 : ℕ) * 2 ^ e) = 0 := by cases s <;> simp [signed]
      rw [this, place_round_zero]
    · have hpos : (0 : ℚ) < m * 2 ^ e := by
        have : (0 : ℚ) < m := by exact_mod_cast Nat.pos_of_ne_zero hm
        positivity
      have hmin : min (kept (m * 2 ^ e)) limit = m * 2 ^ e := by
        rw [kept_of_canonical hm h, min_eq_left (significand_mul_zpow_lt_limit h).le]
      cases s with
      | false => exact (place_round_of_pos hpos nz).trans hmin
      | true =>
        have hneg : -((m : ℚ) * 2 ^ e) < 0 := neg_neg_of_pos hpos
        refine (place_round_of_neg hneg nz).trans ?_
        rw [neg_neg, hmin]
        rfl

end ChargingSite.Binary64
