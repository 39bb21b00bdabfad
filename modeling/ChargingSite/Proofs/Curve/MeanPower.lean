import ChargingSite.Proofs.Curve.WindowPower
import ChargingSite.Proofs.Number.Binary64.RelativeError
import Mathlib.Algebra.BigOperators.Ring.List
import Mathlib.Algebra.Order.BigOperators.Group.List
import Mathlib.Tactic.Qify

/-!
# The mean power

The mean power of a curve is the area under it divided by its span (`ChargeCurve.meanPower`), which
`ChargeCurve.averagePower?` calculates in doubles and cuts off.  The error is followed along the
calculation: differences of fractions of the state of charge are off by some 20000 parts in `2 ^ 53`
(`fraction_sub_approximates`), each trapezoid adds little to that (`trapezoid?_approximates`), and
each step of the sum two parts more (`foldlM_approximates`).  In the end the quotient is off by at
most one part in `2 ^ 37` (`averagePower?_eq_floor`).  That is too little to get beyond the next
integer, but a mean that is an integer itself may be missed from below.
-/

namespace ChargingSite

open Binary64

/-! ### Widths -/

/-- The hundredths of a percent from `p` to `q`. -/
def width (p q : Percentage) : ℚ :=
  q.hundredths - p.hundredths

theorem one_le_width {p q : Percentage} (h : p < q) : 1 ≤ width p q := by
  have : (p.hundredths : ℚ) + 1 ≤ q.hundredths := by
    rw [Percentage.lt_iff_hundredths_lt] at h
    exact_mod_cast h
  rw [width]
  linarith

theorem width_le (p q : Percentage) : width p q ≤ 10000 := by
  have hq : (q.hundredths : ℚ) ≤ 10000 := by exact_mod_cast q.le_full
  rw [width]
  linarith [(p.hundredths.cast_nonneg : (0 : ℚ) ≤ p.hundredths)]

/-- The error of a difference of fractions, which may be 20000 times as great themselves. -/
theorem fraction_sub_approximates {p q : Percentage} (h : p < q) :
    Approximates 20002 (q.fraction - p.fraction) (width p q / 10000) := by
  have hone := one_le_width h
  have hle := width_le p q
  have hp : (p.hundredths : ℚ) ≤ 10000 := by exact_mod_cast p.le_full
  have hq : (q.hundredths : ℚ) ≤ 10000 := by exact_mod_cast q.le_full
  have hsub : width p q / 10000 =
      (q.hundredths : ℤ) / (10000 : ℕ) - (p.hundredths : ℤ) / (10000 : ℕ) := by
    rw [width]
    push_cast
    ring
  have hsum : ((q.hundredths : ℤ) / (10000 : ℕ) + (p.hundredths : ℤ) / (10000 : ℕ) : ℚ) ≤
      (20000 : ℕ) * (width p q / 10000) := by
    push_cast
    linarith
  have hmod : Moderate (width p q / 10000) := .inr ⟨by linarith, by linarith⟩
  rw [hsub] at hsum hmod ⊢
  refine q.fraction_approximates.sub p.fraction_approximates ?_ hsum (by norm_num) hmod
  rw [← sub_nonneg, ← hsub]
  positivity

/-- The exact area under the line from `a` to `b`, in watts times hundredths of a percent. -/
def exactTrapezoid (a b : CurvePoint) : ℚ :=
  (a.power.watts + b.power.watts) / 2 * width a.stateOfCharge b.stateOfCharge

namespace ChargeCurve

variable {c part : ChargeCurve} {a b : CurvePoint} {m n : ℤ}

/-! ### The exact mean -/

/-- The exact area under a curve, in watts times hundredths of a percent. -/
def exactArea (c : ChargeCurve) : ℚ :=
  (c.segments.map fun s => exactTrapezoid s.1 s.2).sum

/-- The hundredths of a percent that a curve covers. -/
def span (c : ChargeCurve) : ℚ :=
  width c.first.stateOfCharge c.last.stateOfCharge

/-- The exact mean power over the states of charge that the curve covers, in watts. -/
def meanPower (c : ChargeCurve) : ℚ :=
  c.exactArea / c.span

theorem span_pos (c : ChargeCurve) : 0 < c.span :=
  zero_lt_one.trans_le (one_le_width c.first_lt_last)

theorem sum_zip_tail_width (p : CurvePoint) (ps : List CurvePoint) :
    (((p :: ps).zip ps).map fun s => width s.1.stateOfCharge s.2.stateOfCharge).sum =
      width p.stateOfCharge ((p :: ps).getLast (List.cons_ne_nil _ _)).stateOfCharge := by
  induction ps generalizing p with
  | nil => simp [width]
  | cons q ps ih =>
    rw [List.zip_cons_cons, List.map_cons, List.sum_cons, ih, List.getLast_cons_cons, width, width,
      width]
    ring

/-- The widths of its segments add up to the span of a curve. -/
theorem sum_width (c : ChargeCurve) :
    (c.segments.map fun s => width s.1.stateOfCharge s.2.stateOfCharge).sum = c.span := by
  obtain ⟨points, htwo, hsorted⟩ := c
  cases points with
  | nil => simp at htwo
  | cons p ps => exact sum_zip_tail_width p ps

/-- There are at most as many segments as hundredths of a percent. -/
theorem length_segments_le (c : ChargeCurve) : c.segments.length ≤ 10000 := by
  have hlength := List.card_nsmul_le_sum
    (c.segments.map fun s => width s.1.stateOfCharge s.2.stateOfCharge) 1 fun w hw => by
      obtain ⟨⟨a, b⟩, hab, rfl⟩ := List.mem_map.mp hw
      exact one_le_width (lt_of_mem_segments hab)
  rw [sum_width, List.length_map, nsmul_one] at hlength
  exact_mod_cast hlength.trans (width_le _ _)

/-- The area under a line lies between those under the least and the greatest power of a curve. -/
theorem exactTrapezoid_mem (h : ∀ p ∈ c.points, m ≤ p.power.watts ∧ p.power.watts ≤ n)
    (hab : (a, b) ∈ c.segments) :
    m * width a.stateOfCharge b.stateOfCharge ≤ exactTrapezoid a b ∧
      exactTrapezoid a b ≤ n * width a.stateOfCharge b.stateOfCharge := by
  have hwidth := one_le_width (lt_of_mem_segments hab)
  obtain ⟨hma, han⟩ := h a (left_mem_of_mem_segments hab)
  obtain ⟨hmb, hbn⟩ := h b (right_mem_of_mem_segments hab)
  qify at hma han hmb hbn
  unfold exactTrapezoid
  constructor <;> gcongr <;> linarith

/-- The mean power lies between the least and the greatest one. -/
theorem meanPower_mem (h : ∀ p ∈ c.points, m ≤ p.power.watts ∧ p.power.watts ≤ n) :
    m ≤ c.meanPower ∧ c.meanPower ≤ n := by
  have hspan := c.span_pos
  rw [meanPower, le_div_iff₀ hspan, div_le_iff₀ hspan, ← sum_width, ← List.sum_map_mul_left,
    ← List.sum_map_mul_left]
  constructor
  · exact List.sum_le_sum fun s hs => (exactTrapezoid_mem h hs).1
  · exact List.sum_le_sum fun s hs => (exactTrapezoid_mem h hs).2

/-- A mean power is an integer over at most 20000. -/
theorem meanPower_eq_div (c : ChargeCurve) :
    ∃ (k : ℤ) (d : ℕ), 0 < d ∧ d ≤ 20000 ∧ c.meanPower = k / d := by
  have hsum (segs : List (CurvePoint × CurvePoint)) :
      ∃ k : ℤ, 2 * (segs.map fun s => exactTrapezoid s.1 s.2).sum = k := by
    induction segs with
    | nil => exact ⟨0, by simp⟩
    | cons s segs ih =>
      -- twice a trapezoid is a whole number of watts times hundredths
      obtain ⟨k, hk⟩ := ih
      refine ⟨(s.1.power.watts + s.2.power.watts) *
        (s.2.stateOfCharge.hundredths - s.1.stateOfCharge.hundredths) + k, ?_⟩
      rw [List.map_cons, List.sum_cons, mul_add, hk, exactTrapezoid, width]
      push_cast
      ring
  obtain ⟨k, hk⟩ := hsum c.segments
  have hlt := c.first_lt_last
  have hfull := c.last.stateOfCharge.le_full
  rw [Percentage.lt_iff_hundredths_lt] at hlt
  refine ⟨k, 2 * (c.last.stateOfCharge.hundredths - c.first.stateOfCharge.hundredths), by omega,
    by omega, ?_⟩
  rw [← hk, meanPower, exactArea, span, width]
  push_cast [hlt.le]
  rw [mul_div_mul_left _ _ (by norm_num)]

/-! ### The error of the area -/

section Error

variable (hpower : ∀ p ∈ c.points, 0 ≤ p.power.watts ∧ p.power.watts ≤ 10 ^ 9)

include hpower

theorem exactTrapezoid_bounds (hab : (a, b) ∈ c.segments) :
    0 ≤ exactTrapezoid a b ∧ exactTrapezoid a b ≤ 10 ^ 13 := by
  have hwidth := one_le_width (lt_of_mem_segments hab)
  obtain ⟨hlow, hhigh⟩ := exactTrapezoid_mem hpower hab
  push_cast at hlow hhigh
  constructor <;> linarith [width_le a.stateOfCharge b.stateOfCharge]

theorem exactTrapezoid_moderate (hab : (a, b) ∈ c.segments) :
    Moderate (exactTrapezoid a b / 10000) := by
  obtain ⟨hlow, hhigh⟩ := exactTrapezoid_bounds hpower hab
  have hdiv : exactTrapezoid a b / 10000 =
      ((a.power.watts + b.power.watts) *
        (b.stateOfCharge.hundredths - a.stateOfCharge.hundredths) : ℤ) / (20000 : ℕ) := by
    rw [exactTrapezoid, width]
    push_cast
    ring
  have hbound : exactTrapezoid a b / 10000 ≤ 2 ^ 50 := by linarith
  have hnonneg : 0 ≤ exactTrapezoid a b / 10000 := by positivity
  rw [hdiv] at hbound hnonneg ⊢
  refine moderate_div ?_ (by norm_num) hbound
  rw [le_div_iff₀ (by norm_num), zero_mul] at hnonneg
  exact_mod_cast hnonneg

/-- The error of one trapezoid. -/
theorem trapezoid?_approximates (hab : (a, b) ∈ c.segments) :
    ∃ x, trapezoid? a b = .ok x ∧ Approximates 20006 x (exactTrapezoid a b / 10000) := by
  obtain ⟨ha, ha'⟩ := hpower a (left_mem_of_mem_segments hab)
  obtain ⟨hb, hb'⟩ := hpower b (right_mem_of_mem_segments hab)
  have hheight : Approximates 1 (round (mkRat (a.power.watts + b.power.watts) 2))
      ((a.power.watts + b.power.watts : ℤ) / (2 : ℕ)) := by
    have hsum : ((a.power.watts + b.power.watts : ℤ) : ℚ) ≤ 2 * 10 ^ 9 := by
      exact_mod_cast (by omega : a.power.watts + b.power.watts ≤ 2 * 10 ^ 9)
    have hnonneg : 0 ≤ a.power.watts + b.power.watts := by omega
    rw [Rat.mkRat_eq_div]
    refine approximates_round (by positivity) (moderate_div hnonneg (by norm_num) ?_) _
    rw [div_le_iff₀ (by norm_num)]
    push_cast at hsum ⊢
    linarith
  have hproduct : exactTrapezoid a b / 10000 =
      (a.power.watts + b.power.watts : ℤ) / (2 : ℕ) *
        (width a.stateOfCharge b.stateOfCharge / 10000) := by
    rw [exactTrapezoid]
    push_cast
    ring
  have hmod := exactTrapezoid_moderate hpower hab
  rw [hproduct] at hmod ⊢
  refine ⟨_, ?_, hheight.mul (fraction_sub_approximates (lt_of_mem_segments hab)) (by norm_num)
    (by norm_num) hmod⟩
  rw [trapezoid?, quotient?, if_pos hheight.isFinite]
  rfl

/-- **The error of a sum of trapezoids**: two parts more with each of them. -/
theorem foldlM_approximates {segs : List (CurvePoint × CurvePoint)}
    (hsegs : ∀ s ∈ segs, s ∈ c.segments) {area : Binary64} {exact : ℚ} {k : ℕ}
    (h : Approximates k area (exact / 10000)) (hk : 20006 ≤ k) (hmax : k + 2 * segs.length ≤ 2 ^ 26)
    (hmod : Moderate (exact / 10000)) (hbound : exact + 10 ^ 13 * segs.length ≤ 2 ^ 57) :
    ∃ x, segs.foldlM (fun area s => do return area + (← trapezoid? s.1 s.2)) area = .ok x ∧
      Approximates (k + 2 * segs.length) x
        ((exact + (segs.map fun s => exactTrapezoid s.1 s.2).sum) / 10000) := by
  induction segs generalizing area exact k with
  | nil => exact ⟨area, rfl, by simpa using h⟩
  | cons s segs ih =>
    obtain ⟨hs, hrest⟩ := List.forall_mem_cons.mp hsegs
    obtain ⟨x, hx, happrox⟩ := trapezoid?_approximates hpower hs
    obtain ⟨-, hhigh⟩ := exactTrapezoid_bounds hpower hs
    rw [List.length_cons] at hmax hbound
    push_cast at hbound
    have hlength : (0 : ℚ) ≤ 10 ^ 13 * segs.length := by positivity
    -- one trapezoid more
    have hmod' : Moderate ((exact + exactTrapezoid s.1 s.2) / 10000) := by
      have hle : (exact + exactTrapezoid s.1 s.2) / 10000 ≤ 2 ^ 50 := by
        rw [div_le_iff₀ (by norm_num)]
        linarith
      rw [add_div] at hle ⊢
      exact hmod.add (exactTrapezoid_moderate hpower hs) hle
    have hstep : Approximates (k + 2) (area + x) ((exact + exactTrapezoid s.1 s.2) / 10000) := by
      have hadd := hmod'
      rw [add_div] at hadd ⊢
      exact h.add (happrox.mono hk) (by omega) hadd
    obtain ⟨y, hy, hresult⟩ := ih hrest hstep (by omega) (by omega) hmod' (by linarith)
    refine ⟨y, ?_, ?_⟩
    · rw [List.foldlM_cons, hx]
      exact hy
    · rw [List.length_cons, List.map_cons, List.sum_cons, ← add_assoc, mul_add, add_comm _ (2 * 1),
        ← add_assoc]
      exact hresult

theorem area?_approximates :
    ∃ x, c.area? = .ok x ∧ Approximates 40006 x (c.exactArea / 10000) := by
  have hlength := c.length_segments_le
  have hlength' : (c.segments.length : ℚ) ≤ 10000 := by exact_mod_cast hlength
  have hzero : Approximates 20006 0 (0 / 10000) := by
    obtain ⟨hfinite, hvalue⟩ := toRat_ofInt_natCast (n := 0) (by norm_num)
    refine ⟨hfinite, ?_⟩
    have hvalue' : (0 : Binary64).toRat = 0 := by exact_mod_cast hvalue
    rw [hvalue', zero_div]
    exact Near.refl le_rfl
  obtain ⟨x, hx, happrox⟩ := foldlM_approximates hpower (fun s hs => hs) hzero le_rfl (by omega)
    (.inl (zero_div _)) (by linarith)
  rw [zero_add] at happrox
  exact ⟨x, hx, happrox.mono (by omega)⟩

theorem meanPower_moderate : Moderate c.meanPower := by
  obtain ⟨hlow, hhigh⟩ := meanPower_mem hpower
  obtain ⟨k, d, hpos, hd, hmean⟩ := c.meanPower_eq_div
  have hpos' : (0 : ℚ) < d := by exact_mod_cast hpos
  push_cast at hlow hhigh
  rw [hmean] at hlow hhigh ⊢
  refine moderate_div ?_ (hd.trans (by norm_num)) (hhigh.trans (by norm_num))
  rw [le_div_iff₀ hpos', zero_mul] at hlow
  exact_mod_cast hlow

/-- **The error of a mean power** before it is cut off: at most one part in `2 ^ 37`. -/
theorem averagePower?_eq_floor :
    ∃ x : ℚ, |x - c.meanPower| ≤ c.meanPower / 2 ^ 37 ∧ c.averagePower? = .ok ⟨⌊x⌋⟩ := by
  obtain ⟨area, harea, happrox⟩ := area?_approximates hpower
  have hmean : c.meanPower = c.exactArea / 10000 / (c.span / 10000) := by
    rw [meanPower, div_div_div_cancel_right₀ (by norm_num)]
  have hquotient : Approximates (2 ^ 16)
      (area / (c.last.stateOfCharge.fraction - c.first.stateOfCharge.fraction)) c.meanPower := by
    have hmod := meanPower_moderate hpower
    rw [hmean] at hmod ⊢
    exact (happrox.div (fraction_sub_approximates c.first_lt_last)
      (div_pos c.span_pos (by norm_num)) (by norm_num) (by norm_num) hmod).mono (by norm_num)
  obtain ⟨hfinite, hnear⟩ := hquotient
  have hnonneg := (div_nonneg hnear.nonneg (by norm_num)).trans (hnear.bounds (by norm_num)).1
  refine ⟨_, hnear.abs_sub_le.trans_eq ?_, bind_eq_ok_iff.mpr ⟨area, harea, bind_eq_ok_iff.mpr
    ⟨_, toIntBy_eq_ok_iff.mpr ⟨hfinite, truncated_of_nonneg hnonneg⟩, rfl⟩⟩⟩
  rw [parts]
  push_cast
  ring

end Error

/-! ### Flat curves -/

/-- The power on a flat curve is the same everywhere. -/
theorem watts_of_powerAt?_flat {w : ℤ} (h : ∀ p ∈ c.points, p.power.watts = w) {s : Percentage}
    {p : Power} (hp : c.powerAt? s = .ok p) : p.watts = w := by
  have hplace := liesAt_locate c s
  cases hl : c.locate s with
  | outside =>
    rw [hl] at hplace
    rw [powerAt?_eq_of_outside hplace] at hp
    cases hp
  | sample q =>
    rw [hl] at hplace
    rw [powerAt?_eq_of_sample hplace] at hp
    cases hp
    exact h q hplace.1
  | segment a b =>
    rw [hl] at hplace
    have ha := h a (left_mem_of_mem_segments hplace.1)
    have hb := h b (right_mem_of_mem_segments hplace.1)
    rw [powerAt?_eq_of_segment hplace (by simp [ha, hb]), ha, hb, sub_self, zero_mul,
      Int.zero_tdiv, add_zero] at hp
    cases hp
    rfl

/-- The windows of a flat curve are flat. -/
theorem watts_of_mem_window_flat {w : ℤ} (h : ∀ p ∈ c.points, p.power.watts = w)
    {start stop : Percentage} (hpart : c.window? start stop = .ok (some part)) :
    ∀ p ∈ part.points, p.power.watts = w :=
  fun _ hp => watts_of_powerAt?_flat h (powerAt?_of_mem_window hpart hp)

/-! ### The mean power, cut off -/

theorem den_meanPower_le (c : ChargeCurve) : c.meanPower.den ≤ 20000 := by
  obtain ⟨k, d, hpos, hd, hmean⟩ := c.meanPower_eq_div
  rw [hmean, ← Rat.mkRat_eq_div, Rat.den_mkRat, if_neg hpos.ne']
  exact (Nat.div_le_self _ _).trans hd

/-- A number that is off an integer by less than one is cut off to it or to the one before. -/
theorem floor_eq_or_of_near_intCast {x : ℚ} {k : ℤ} (h : |x - k| < 1) : ⌊x⌋ = k ∨ ⌊x⌋ = k - 1 := by
  obtain ⟨hlow, hhigh⟩ := abs_lt.mp h
  rw [Int.floor_eq_iff, Int.floor_eq_iff]
  push_cast
  rcases le_or_gt (k : ℚ) x with hle | hlt
  · exact .inl ⟨hle, by linarith⟩
  · exact .inr ⟨by linarith, by linarith⟩

/-- A number that is off a mean power by too little for the gap to the next integer is cut off to
the same integer, or the mean power is an integer that it falls short of. -/
theorem floor_eq_or_of_near {x : ℚ} (h : |x - c.meanPower| < 1 / 20000) :
    ⌊x⌋ = ⌊c.meanPower⌋ ∨ (⌊x⌋ : ℚ) + 1 = c.meanPower := by
  have hgap : (1 : ℚ) / 20000 ≤ 1 / c.meanPower.den := by
    have hden : (c.meanPower.den : ℚ) ≤ 20000 := by exact_mod_cast c.den_meanPower_le
    have hpos : (0 : ℚ) < c.meanPower.den := by exact_mod_cast c.meanPower.den_pos
    gcongr
  obtain ⟨hlow, hhigh⟩ := abs_lt.mp h
  have hnext := add_one_div_den_le_floor c.meanPower
  rcases eq_or_ne c.meanPower ⌊c.meanPower⌋ with hint | hint
  · -- a whole mean may be missed by one, if the doubles fall short of it
    rw [hint] at hlow hhigh
    refine (floor_eq_or_of_near_intCast (abs_lt.mpr ⟨by linarith, by linarith⟩)).imp_right ?_
    intro hfloor
    rw [hfloor, Int.cast_sub, Int.cast_one, sub_add_cancel]
    exact hint.symm
  · -- any other mean is further away from the next whole number than the error
    have hfloor := floor_add_one_div_den_le hint
    left
    rw [Int.floor_eq_iff]
    constructor <;> linarith

/-- **The mean power** that is reported, for powers that are not negative and below a gigawatt.  It
is there, and it is the exact one to within a hundredth of a watt, cut off.  If no power is above
5 megawatts, then it is the exact one cut off, unless that is an integer and is missed by one watt.
So every window of a curve whose powers are all the same, and the curve itself as one of them, has
that mean power or one watt less. -/
theorem averagePower?_near (c : ChargeCurve)
    (hpower : ∀ p ∈ c.points, 0 ≤ p.power.watts ∧ p.power.watts < 10 ^ 9) :
    (∃ w : ℤ, c.averagePower? = .ok ⟨w⟩ ∧
      ⌊c.meanPower - 1 / 100⌋ ≤ w ∧ w ≤ ⌊c.meanPower + 1 / 100⌋ ∧
      ((∀ p ∈ c.points, p.power.watts ≤ 5000000) →
        w = ⌊c.meanPower⌋ ∨ (w : ℚ) + 1 = c.meanPower)) ∧
    ∀ w : ℤ, (∀ p ∈ c.points, p.power.watts = w) →
      ∀ start stop part, c.window? start stop = .ok (some part) →
        part.averagePower? = .ok ⟨w⟩ ∨ part.averagePower? = .ok ⟨w - 1⟩ := by
  have hpower' : ∀ p ∈ c.points, 0 ≤ p.power.watts ∧ p.power.watts ≤ 10 ^ 9 :=
    fun p hp => ⟨(hpower p hp).1, (hpower p hp).2.le⟩
  constructor
  · -- the error is below a hundredth of a watt, and smaller below 5 MW
    obtain ⟨x, hx, hfloor⟩ := averagePower?_eq_floor hpower'
    have hmean := (meanPower_mem hpower').2
    push_cast at hmean
    obtain ⟨hlow, hhigh⟩ := abs_le.mp hx
    refine ⟨⌊x⌋, hfloor, Int.floor_le_floor (by linarith), Int.floor_le_floor (by linarith), ?_⟩
    intro hsmall
    have hmean' := (meanPower_mem fun p hp => ⟨(hpower p hp).1, hsmall p hp⟩).2
    push_cast at hmean'
    exact floor_eq_or_of_near (hx.trans_lt (by linarith))
  · -- on a flat curve every part has the mean `w`, which is missed by one at most
    intro w hw start stop part hpart
    have hw' := watts_of_mem_window_flat hw hpart
    obtain ⟨hnonneg, hle⟩ := hw _ c.first_mem ▸ hpower' _ c.first_mem
    obtain ⟨x, hx, hfloor⟩ := averagePower?_eq_floor (c := part) fun p hp =>
      hw' p hp ▸ ⟨hnonneg, hle⟩
    have hmean : part.meanPower = w := by
      obtain ⟨hlow, hhigh⟩ := meanPower_mem fun p hp => ⟨(hw' p hp).ge, (hw' p hp).le⟩
      exact le_antisymm hhigh hlow
    rw [hmean] at hx
    have hw₁ : (w : ℚ) ≤ 10 ^ 9 := by exact_mod_cast hle
    rw [hfloor]
    refine (floor_eq_or_of_near_intCast (k := w) (hx.trans_lt (by linarith))).imp ?_ ?_ <;>
      exact fun heq => by rw [heq]

/-- A curve at 250 kilowatts from 40 % to 60 %. -/
def flatPart : ChargeCurve where
  points := [⟨.ofHundredths 4000, ⟨250000⟩⟩, ⟨.ofHundredths 6000, ⟨250000⟩⟩]
  two_le_length := by decide
  increasing := by decide

/-- What is reported for this curve and for itself as a window. -/
theorem averagePower?_near_flatPart :
    (∀ p ∈ flatPart.points, 0 ≤ p.power.watts ∧ p.power.watts < 10 ^ 9) ∧
      (∃ w : ℤ, flatPart.averagePower? = .ok ⟨w⟩ ∧ 249999 ≤ w ∧ w ≤ 250000) ∧
      flatPart.window? (.ofHundredths 4000) (.ofHundredths 6000) = .ok (some flatPart) ∧
      (flatPart.averagePower? = .ok ⟨250000⟩ ∨ flatPart.averagePower? = .ok ⟨250000 - 1⟩) := by
  have hpower : ∀ p ∈ flatPart.points, 0 ≤ p.power.watts ∧ p.power.watts < 10 ^ 9 := by decide
  have hlow : ⌊flatPart.meanPower - 1 / 100⌋ = 249999 := by decide +kernel
  have hhigh : ⌊flatPart.meanPower + 1 / 100⌋ = 250000 := by decide +kernel
  have hwindow : flatPart.window? (.ofHundredths 4000) (.ofHundredths 6000) =
      .ok (some flatPart) := by decide +kernel
  obtain ⟨⟨w, hw, hge, hle, -⟩, hflat⟩ := averagePower?_near flatPart hpower
  exact ⟨hpower, ⟨w, hw, hlow ▸ hge, hhigh ▸ hle⟩, hwindow, hflat _ (by decide) _ _ _ hwindow⟩

/-- **A mean power that is missed**: the flat curve at 250 kilowatts is reported with one watt
less. -/
theorem averagePower?_flatPart :
    (∀ p ∈ flatPart.points, p.power.watts = 250000) ∧ flatPart.meanPower = 250000 ∧
      flatPart.averagePower? = .ok ⟨249999⟩ :=
  ⟨by decide, by decide +kernel, by decide +kernel⟩

end ChargeCurve

end ChargingSite
