import ChargingSite.Proofs.Curve.Window
import Mathlib.Algebra.Order.Ring.Int
import Mathlib.Tactic.Linarith
import Mathlib.Tactic.Ring

/-!
# The power on a window

A window of a curve is interpolated between powers that were interpolated and cut off before.
Within a segment of the curve the power is that of its left end plus a part of its rise (`rise`),
and the ends of each segment of the window lie within one segment of the curve
(`ChargeCurve.exists_segment_around`).  Cutting off twice loses at most one watt more than cutting
off once, and always on the same side (`chord_bounds`).  So a window follows its curve to within one
watt, and exactly at its ends and at the points of the curve (`ChargeCurve.window?_follows`).
-/

namespace ChargingSite

/-! ### Cutting off twice -/

/-- The part of a rise by `d` over a length `n` that has come about at `u`, cut off toward zero. -/
def rise (d n u : ℤ) : ℤ :=
  (d * u).tdiv n

section Rise

variable {d n u v x t y : ℤ}

theorem rise_neg (d n u : ℤ) : rise (-d) n u = -rise d n u := by
  rw [rise, rise, neg_mul, Int.neg_tdiv]

theorem rise_zero (d n : ℤ) : rise d n 0 = 0 := by
  rw [rise, mul_zero, Int.zero_tdiv]

theorem rise_self (d : ℤ) (hn : 0 < n) : rise d n n = d := by
  rw [rise, Int.mul_tdiv_cancel _ hn.ne']

theorem rise_eq_ediv (hd : 0 ≤ d) (hu : 0 ≤ u) : rise d n u = d * u / n :=
  Int.tdiv_eq_ediv_of_nonneg (mul_nonneg hd hu)

theorem rise_mono (hd : 0 ≤ d) (hn : 0 < n) (hu : 0 ≤ u) (huv : u ≤ v) :
    rise d n u ≤ rise d n v := by
  rw [rise_eq_ediv hd hu, rise_eq_ediv hd (hu.trans huv)]
  exact Int.ediv_le_ediv hn (mul_le_mul_of_nonneg_left huv hd)

/-- Cut off downward, the line between two points of a line that were cut off before is at most one
below that line. -/
theorem chord_ediv_bounds (d : ℤ) (hn : 0 < n) (hxt : x ≤ t) (hty : t ≤ y) (hxy : x < y) :
    d * x / n + (d * y / n - d * x / n) * (t - x) / (y - x) ≤ d * t / n ∧
      d * t / n ≤ d * x / n + (d * y / n - d * x / n) * (t - x) / (y - x) + 1 := by
  have hlength : 0 < y - x := sub_pos.mpr hxy
  have hbefore : 0 ≤ t - x := sub_nonneg.mpr hxt
  have hbehind : 0 ≤ y - t := sub_nonneg.mpr hty
  have hlow (u : ℤ) : d * u / n * n ≤ d * u := Int.ediv_mul_le _ hn.ne'
  have hhigh (u : ℤ) : d * u - n ≤ d * u / n * n := by
    have := Int.lt_ediv_add_one_mul_self (d * u) hn
    rw [add_mul, one_mul] at this
    omega
  -- on both lines the value at `t` is weighed from those at `x` and `y`
  have hline : d * t * (y - x) = d * x * (y - t) + d * y * (t - x) := by ring
  have hchord : d * x / n * (y - t) + d * y / n * (t - x) =
      d * x / n * (y - x) + (d * y / n - d * x / n) * (t - x) := by ring
  constructor
  · have hcut : (d * y / n - d * x / n) * (t - x) / (y - x) * (y - x) ≤
        (d * y / n - d * x / n) * (t - x) := Int.ediv_mul_le _ hlength.ne'
    rw [Int.le_ediv_iff_mul_le hn]
    refine le_of_mul_le_mul_right ?_ hlength
    calc (d * x / n + (d * y / n - d * x / n) * (t - x) / (y - x)) * n * (y - x)
        = (d * x / n * (y - x) + (d * y / n - d * x / n) * (t - x) / (y - x) * (y - x)) * n := by
          ring
      _ ≤ (d * x / n * (y - t) + d * y / n * (t - x)) * n := by
          rw [hchord]
          exact mul_le_mul_of_nonneg_right (by omega) hn.le
      _ = d * x / n * n * (y - t) + d * y / n * n * (t - x) := by ring
      _ ≤ d * x * (y - t) + d * y * (t - x) :=
          add_le_add (mul_le_mul_of_nonneg_right (hlow x) hbehind)
            (mul_le_mul_of_nonneg_right (hlow y) hbefore)
      _ = d * t * (y - x) := hline.symm
  · have hcut : d * t / n - 1 - d * x / n ≤
        (d * y / n - d * x / n) * (t - x) / (y - x) := by
      rw [Int.le_ediv_iff_mul_le hlength]
      suffices h : (d * t / n - 1) * (y - x) ≤ d * x / n * (y - t) + d * y / n * (t - x) by
        rw [hchord] at h
        rw [sub_mul]
        omega
      refine le_of_mul_le_mul_right ?_ hn
      calc (d * t / n - 1) * (y - x) * n = (d * t / n * n - n) * (y - x) := by ring
        _ ≤ (d * t - n) * (y - x) :=
            mul_le_mul_of_nonneg_right (sub_le_sub_right (hlow t) n) hlength.le
        _ = (d * x - n) * (y - t) + (d * y - n) * (t - x) := by
            rw [sub_mul, hline]
            ring
        _ ≤ d * x / n * n * (y - t) + d * y / n * n * (t - x) :=
            add_le_add (mul_le_mul_of_nonneg_right (hhigh x) hbehind)
              (mul_le_mul_of_nonneg_right (hhigh y) hbefore)
        _ = (d * x / n * (y - t) + d * y / n * (t - x)) * n := by ring
    omega

/-- Between two points of a rising line that were cut off, the line cut off again is at most one
below the line cut off once. -/
theorem chord_bounds_of_nonneg (hd : 0 ≤ d) (hn : 0 < n) (hx : 0 ≤ x) (hxt : x ≤ t) (hty : t ≤ y)
    (hxy : x < y) :
    rise d n x + rise (rise d n y - rise d n x) (y - x) (t - x) ≤ rise d n t ∧
      rise d n t ≤ rise d n x + rise (rise d n y - rise d n x) (y - x) (t - x) + 1 := by
  have hrest : 0 ≤ rise d n y - rise d n x := sub_nonneg.mpr (rise_mono hd hn hx hxy.le)
  rw [rise_eq_ediv hrest (sub_nonneg.mpr hxt), rise_eq_ediv hd hx, rise_eq_ediv hd (hx.trans hxt),
    rise_eq_ediv hd (hx.trans hxy.le)]
  exact chord_ediv_bounds d hn hxt hty hxy

/-- On a falling line it is at most one above. -/
theorem chord_bounds_of_nonpos (hd : d ≤ 0) (hn : 0 < n) (hx : 0 ≤ x) (hxt : x ≤ t) (hty : t ≤ y)
    (hxy : x < y) :
    rise d n t ≤ rise d n x + rise (rise d n y - rise d n x) (y - x) (t - x) ∧
      rise d n x + rise (rise d n y - rise d n x) (y - x) (t - x) ≤ rise d n t + 1 := by
  have h := chord_bounds_of_nonneg (neg_nonneg.mpr hd) hn hx hxt hty hxy
  have hopposite : rise (-d) n y - rise (-d) n x = -(rise d n y - rise d n x) := by
    rw [rise_neg, rise_neg]
    ring
  rw [hopposite, rise_neg, rise_neg, rise_neg] at h
  omega

/-- The rise between two points is no more than the whole rise. -/
theorem abs_rise_sub_le (hn : 0 < n) (hx : 0 ≤ x) (hxy : x ≤ y) (hyn : y ≤ n) :
    |rise d n y - rise d n x| ≤ |d| := by
  -- enough for a rise that is not negative, because of the opposite one
  have hnonneg {d : ℤ} (hd : 0 ≤ d) : |rise d n y - rise d n x| ≤ d := by
    have hlow : 0 ≤ rise d n x := rise_zero d n ▸ rise_mono hd hn le_rfl hx
    have hhigh : rise d n y ≤ d :=
      (rise_mono hd hn (hx.trans hxy) hyn).trans_eq (rise_self d hn)
    rw [abs_of_nonneg (sub_nonneg.mpr (rise_mono hd hn hx hxy))]
    omega
  rcases le_total 0 d with hd | hd
  · rw [abs_of_nonneg hd]
    exact hnonneg hd
  · have h := hnonneg (neg_nonneg.mpr hd)
    rwa [rise_neg, rise_neg, ← neg_sub', abs_neg, ← abs_of_nonpos hd] at h

end Rise

/-! ### Within one segment -/

namespace ChargeCurve

variable {c part : ChargeCurve} {start stop s : Percentage} {a b : CurvePoint}

/-- The watts that the line from `a` to `b` has come to at `s`. -/
def lineAt (a b : CurvePoint) (s : Percentage) : ℤ :=
  a.power.watts + rise (b.power.watts - a.power.watts)
    (b.stateOfCharge.hundredths - a.stateOfCharge.hundredths)
    (s.hundredths - a.stateOfCharge.hundredths)

theorem left_mem_of_mem_segments (h : (a, b) ∈ c.segments) : a ∈ c.points :=
  (List.of_mem_zip h).1

theorem right_mem_of_mem_segments (h : (a, b) ∈ c.segments) : b ∈ c.points :=
  List.mem_of_mem_tail (List.of_mem_zip h).2

theorem lt_of_mem_segments (h : (a, b) ∈ c.segments) : a.stateOfCharge < b.stateOfCharge := by
  obtain ⟨i, hi, rfl, rfl⟩ := mem_segments_iff.mp h
  exact (stateOfCharge_lt_iff (by omega) hi).mpr i.lt_succ_self

/-- Strictly within a segment there is no point. -/
theorem LiesAt.ne_of_mem (h : c.LiesAt s (.segment a b)) {p : CurvePoint} (hp : p ∈ c.points) :
    p.stateOfCharge ≠ s := by
  intro hs
  have hsample : c.LiesAt s (.sample p) := ⟨hp, hs⟩
  cases h.unique hsample

theorem not_between_of_mem_segments (h : (a, b) ∈ c.segments) {p : CurvePoint} (hp : p ∈ c.points)
    (ha : a.stateOfCharge < p.stateOfCharge) : b.stateOfCharge ≤ p.stateOfCharge := by
  by_contra hb
  have hsegment : c.LiesAt p.stateOfCharge (.segment a b) := ⟨h, ha, not_le.mp hb⟩
  exact hsegment.ne_of_mem hp rfl

/-- **On a closed segment** the power is that of the line between its ends. -/
theorem powerAt?_eq_lineAt (hab : (a, b) ∈ c.segments) (ha : a.stateOfCharge ≤ s)
    (hb : s ≤ b.stateOfCharge) (hpower : |b.power.watts - a.power.watts| ≤ 2 ^ 39) :
    c.powerAt? s = .ok ⟨lineAt a b s⟩ := by
  rcases ha.eq_or_lt with rfl | ha
  · -- at its start the segment shows the sample there
    rw [powerAt?_eq_of_sample ⟨left_mem_of_mem_segments hab, rfl⟩, lineAt, sub_self, rise_zero,
      add_zero]
  · rcases hb.eq_or_lt with rfl | hb
    · -- at its end it shows the other sample
      have hlength : (0 : ℤ) < b.stateOfCharge.hundredths - a.stateOfCharge.hundredths := by
        rw [Percentage.lt_iff_hundredths_lt] at ha
        omega
      rw [powerAt?_eq_of_sample ⟨right_mem_of_mem_segments hab, rfl⟩, lineAt, rise_self _ hlength,
        add_sub_cancel]
    · exact powerAt?_eq_of_segment ⟨hab, ha, hb⟩ hpower

/-! ### Following the curve -/

/-- Every point of a window lies on the curve. -/
theorem powerAt?_of_mem_window (h : c.window? start stop = .ok (some part)) {p : CurvePoint}
    (hp : p ∈ part.points) : c.powerAt? p.stateOfCharge = .ok p.power := by
  obtain ⟨-, q, r, hq, hr, hpoints⟩ := window?_eq_ok_some_iff.mp h
  rw [hpoints, List.cons_append, List.mem_cons, List.mem_append, List.mem_singleton] at hp
  rcases hp with rfl | hp | rfl
  · exact hq
  · exact powerAt?_eq_of_sample ⟨(mem_inner_iff.mp hp).1, rfl⟩
  · exact hr

theorem mem_window_of_mem_inner (h : c.window? start stop = .ok (some part)) {p : CurvePoint}
    (hp : p ∈ c.inner start stop) : p ∈ part.points := by
  obtain ⟨-, q, r, -, -, hpoints⟩ := window?_eq_ok_some_iff.mp h
  rw [hpoints]
  exact List.mem_append_left _ (List.mem_cons_of_mem _ hp)

theorem mem_range_of_mem_window (h : c.window? start stop = .ok (some part)) {p : CurvePoint}
    (hp : p ∈ part.points) : start ≤ p.stateOfCharge ∧ p.stateOfCharge ≤ stop := by
  obtain ⟨i, hi, rfl⟩ := List.getElem_of_mem hp
  exact ⟨first_eq_of_window? h ▸ first_le_getElem hi, last_eq_of_window? h ▸ getElem_le_last hi⟩

/-- **Each segment of a window lies within one of the curve.** -/
theorem exists_segment_around (h : c.window? start stop = .ok (some part))
    (hab : (a, b) ∈ part.segments) :
    ∃ a' b', (a', b') ∈ c.segments ∧ a'.stateOfCharge ≤ a.stateOfCharge ∧
      b.stateOfCharge ≤ b'.stateOfCharge := by
  obtain ⟨⟨hfirst, -, hlast⟩, -⟩ := window?_eq_ok_some_iff.mp h
  have hlt := lt_of_mem_segments hab
  have hstart := (mem_range_of_mem_window h (left_mem_of_mem_segments hab)).1
  have hstop := (mem_range_of_mem_window h (right_mem_of_mem_segments hab)).2
  cases hi : c.startSegment? a.stateOfCharge with
  | none =>
    exact absurd ⟨hfirst.trans hstart, hlt.trans_le (hstop.trans hlast)⟩
      (startSegment?_eq_none_iff.mp hi)
  | some i =>
    obtain ⟨_, hi', hle, hbehind⟩ := startSegment?_eq_some hi
    refine ⟨_, _, mem_segments_iff.mpr ⟨i, hi', rfl, rfl⟩, hle, ?_⟩
    -- a point of the curve before `b` would be one of the window
    by_contra hbefore
    have hinner : c.points[i + 1] ∈ c.inner start stop := mem_inner_iff.mpr
      ⟨List.getElem_mem hi', hstart.trans_lt hbehind, (not_le.mp hbefore).trans_le hstop⟩
    exact hbefore (not_between_of_mem_segments hab (mem_window_of_mem_inner h hinner) hbehind)

/-- What holds of a window within one segment of the curve: its powers at both ends are on the line,
and the line between those is at most one watt off, on the lower side of a rising line and on the
upper side of a falling one. -/
theorem lineAt_bounds {a' b' : CurvePoint} (ha' : a'.stateOfCharge ≤ a.stateOfCharge)
    (hb' : b.stateOfCharge ≤ b'.stateOfCharge) (ha : a.stateOfCharge < s)
    (hb : s < b.stateOfCharge) (hleft : a.power.watts = lineAt a' b' a.stateOfCharge)
    (hright : b.power.watts = lineAt a' b' b.stateOfCharge) :
    |b.power.watts - a.power.watts| ≤ |b'.power.watts - a'.power.watts| ∧
      (a'.power.watts ≤ b'.power.watts →
        lineAt a b s ≤ lineAt a' b' s ∧ lineAt a' b' s ≤ lineAt a b s + 1) ∧
      (b'.power.watts ≤ a'.power.watts →
        lineAt a' b' s ≤ lineAt a b s ∧ lineAt a b s ≤ lineAt a' b' s + 1) := by
  have hle : a'.stateOfCharge.hundredths ≤ a.stateOfCharge.hundredths := ha'
  have hge : b.stateOfCharge.hundredths ≤ b'.stateOfCharge.hundredths := hb'
  rw [Percentage.lt_iff_hundredths_lt] at ha hb
  -- both lines in terms of the curve's segment, counted from its left end
  let d := b'.power.watts - a'.power.watts
  let n : ℤ := b'.stateOfCharge.hundredths - a'.stateOfCharge.hundredths
  let x : ℤ := a.stateOfCharge.hundredths - a'.stateOfCharge.hundredths
  let t : ℤ := s.hundredths - a'.stateOfCharge.hundredths
  let y : ℤ := b.stateOfCharge.hundredths - a'.stateOfCharge.hundredths
  have hn : 0 < n := by omega
  have hx : 0 ≤ x := by omega
  have hxt : x ≤ t := by omega
  have hty : t ≤ y := by omega
  have hxy : x < y := by omega
  have houter : lineAt a' b' s = a'.power.watts + rise d n t := rfl
  have hl : a.power.watts = a'.power.watts + rise d n x := hleft
  have hr : b.power.watts = a'.power.watts + rise d n y := hright
  have hd : b.power.watts - a.power.watts = rise d n y - rise d n x := by omega
  have hinner : lineAt a b s =
      a'.power.watts + (rise d n x + rise (rise d n y - rise d n x) (y - x) (t - x)) := by
    have hyx : y - x = b.stateOfCharge.hundredths - a.stateOfCharge.hundredths := by omega
    have htx : t - x = s.hundredths - a.stateOfCharge.hundredths := by omega
    rw [lineAt, hd, hyx, htx, hl, add_assoc]
  rw [hd, houter, hinner]
  refine ⟨abs_rise_sub_le hn hx hxy.le (by omega), fun hrising => ?_, fun hfalling => ?_⟩
  · have := chord_bounds_of_nonneg (d := d) (sub_nonneg.mpr hrising) hn hx hxt hty hxy
    omega
  · have := chord_bounds_of_nonpos (d := d) (sub_nonpos.mpr hfalling) hn hx hxt hty hxy
    omega

/-- A segment that touches a state of charge within another one is that other one. -/
theorem LiesAt.eq_of_mem_segments {a' b' : CurvePoint} (h : c.LiesAt s (.segment a b))
    (hmem : (a', b') ∈ c.segments) (ha : a'.stateOfCharge ≤ s) (hb : s ≤ b'.stateOfCharge) :
    a' = a ∧ b' = b := by
  have hwithin : c.LiesAt s (.segment a' b') :=
    ⟨hmem, ha.lt_of_ne (h.ne_of_mem (left_mem_of_mem_segments hmem)),
      hb.lt_of_ne (h.ne_of_mem (right_mem_of_mem_segments hmem)).symm⟩
  cases hwithin.unique h
  exact ⟨rfl, rfl⟩

/-- **A window follows its curve to within one watt**, if the powers of neighbours on the curve
differ by at most `2 ^ 39` watts.  Everywhere on the window both have a power.  On a rising segment
of the curve that of the window is not the greater one, on a falling segment not the lesser one, and
at the ends of the window and at the points of the curve they are equal. -/
theorem window?_follows (hpower : ∀ p ∈ c.segments, |p.2.power.watts - p.1.power.watts| ≤ 2 ^ 39)
    (h : c.window? start stop = .ok (some part)) (hstart : start ≤ s) (hstop : s ≤ stop) :
    ∃ p q, c.powerAt? s = .ok p ∧ part.powerAt? s = .ok q ∧
      |q.watts - p.watts| ≤ 1 ∧
      (∀ a b, (a, b) ∈ c.segments → a.stateOfCharge ≤ s → s ≤ b.stateOfCharge →
        (a.power.watts ≤ b.power.watts → q.watts ≤ p.watts) ∧
        (b.power.watts ≤ a.power.watts → p.watts ≤ q.watts)) ∧
      (s = start ∨ s = stop ∨ (∃ r ∈ c.points, r.stateOfCharge = s) → q = p) := by
  have hplace := liesAt_locate part s
  cases hl : part.locate s with
  | outside =>
    rw [hl] at hplace
    rcases hplace with hlt | hlt
    · exact absurd hlt (not_lt.mpr (first_eq_of_window? h ▸ hstart))
    · exact absurd hlt (not_lt.mpr (last_eq_of_window? h ▸ hstop))
  | sample r =>
    rw [hl] at hplace
    obtain ⟨hr, rfl⟩ := hplace
    exact ⟨r.power, r.power, powerAt?_of_mem_window h hr, powerAt?_eq_of_sample ⟨hr, rfl⟩, by simp,
      fun _ _ _ _ _ => ⟨fun _ => le_rfl, fun _ => le_rfl⟩, fun _ => rfl⟩
  | segment a b =>
    rw [hl] at hplace
    obtain ⟨hab, ha, hb⟩ := hplace
    have hleft_mem := left_mem_of_mem_segments hab
    have hright_mem := right_mem_of_mem_segments hab
    obtain ⟨a', b', hab', ha', hb'⟩ := exists_segment_around h hab
    have hbound := hpower (a', b') hab'
    have hwithin : c.LiesAt s (.segment a' b') := ⟨hab', ha'.trans_lt ha, hb.trans_le hb'⟩
    -- the ends of the window's segment lie on the line of the curve's
    have hend {r : CurvePoint} (hr : r ∈ part.points) (hra : a'.stateOfCharge ≤ r.stateOfCharge)
        (hrb : r.stateOfCharge ≤ b'.stateOfCharge) :
        r.power.watts = lineAt a' b' r.stateOfCharge := by
      have heq := powerAt?_of_mem_window h hr
      rw [powerAt?_eq_lineAt hab' hra hrb hbound, Except.ok.injEq] at heq
      rw [← heq]
    obtain ⟨hsmall, hrising, hfalling⟩ := lineAt_bounds ha' hb' ha hb
      (hend hleft_mem ha' ((ha.trans hb).le.trans hb'))
      (hend hright_mem (ha'.trans (ha.trans hb).le) hb')
    refine ⟨_, _, powerAt?_eq_lineAt hab' (ha'.trans ha.le) (hb.le.trans hb') hbound,
      powerAt?_eq_lineAt hab ha.le hb.le (hsmall.trans hbound), ?_, ?_, ?_⟩
    · rw [abs_le]
      rcases le_total a'.power.watts b'.power.watts with hle | hle
      · have := hrising hle
        constructor <;> dsimp only <;> omega
      · have := hfalling hle
        constructor <;> dsimp only <;> omega
    · intro a₀ b₀ hmem ha₀ hb₀
      obtain ⟨rfl, rfl⟩ := hwithin.eq_of_mem_segments hmem ha₀ hb₀
      exact ⟨fun hle => (hrising hle).1, fun hle => (hfalling hle).1⟩
    · rintro (rfl | rfl | ⟨r, hr, rfl⟩)
      · exact absurd ha (not_lt.mpr (mem_range_of_mem_window h hleft_mem).1)
      · exact absurd hb (not_lt.mpr (mem_range_of_mem_window h hright_mem).2)
      · exact absurd rfl (hwithin.ne_of_mem hr)

/-- The part of the falling curve from within its first segment to within its second one. -/
def fallingWindow : ChargeCurve where
  points := [⟨.ofHundredths 2001, ⟨49994⟩⟩, ⟨.ofHundredths 8000, ⟨11000⟩⟩,
    ⟨.ofHundredths 9000, ⟨4500⟩⟩]
  two_le_length := by decide
  increasing := by decide

/-- One hundredth of a percent behind the start of a window the second cut shows: the curve allows
49987 watts there, and the window 49988. -/
theorem window?_follows_falling :
    (∀ p ∈ falling.segments, |p.2.power.watts - p.1.power.watts| ≤ 2 ^ 39) ∧
      falling.window? (.ofHundredths 2001) (.ofHundredths 9000) = .ok (some fallingWindow) ∧
      falling.powerAt? (.ofHundredths 2002) = .ok ⟨49987⟩ ∧
      fallingWindow.powerAt? (.ofHundredths 2002) = .ok ⟨49988⟩ ∧
      ∃ p q, falling.powerAt? (.ofHundredths 2002) = .ok p ∧
        fallingWindow.powerAt? (.ofHundredths 2002) = .ok q ∧ |q.watts - p.watts| ≤ 1 := by
  have hpower : ∀ p ∈ falling.segments, |p.2.power.watts - p.1.power.watts| ≤ 2 ^ 39 := by decide
  have hwindow : falling.window? (.ofHundredths 2001) (.ofHundredths 9000) =
      .ok (some fallingWindow) := by decide +kernel
  obtain ⟨p, q, hp, hq, hnear, -⟩ :=
    window?_follows hpower hwindow (s := .ofHundredths 2002) (by decide) (by decide)
  exact ⟨hpower, hwindow, by decide +kernel, by decide +kernel, p, q, hp, hq, hnear⟩

end ChargeCurve

end ChargingSite
