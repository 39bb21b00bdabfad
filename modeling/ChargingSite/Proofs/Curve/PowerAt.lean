import ChargingSite.Curve.PowerAt
import ChargingSite.Proofs.Error
import ChargingSite.Proofs.Number.Binary64.Truncation
import ChargingSite.Proofs.Quantity.Percentage

/-!
# Interpolation on a curve

The binary search for a state of charge halves a range of calibration points outside of which it is
settled on which side of the state of charge a point lies (`insertionPoint_spec`), so it counts the
points below it (`ChargeCurve.lt_countBelow_iff`).  What it finds is the only place of the state of
charge on the curve (`ChargeCurve.locate_eq_iff`): outside, at a calibration point, or within one
segment, which is also the first one that a scan from the left comes to (`LiesAt.find?_segments`).
Within a segment the power is that of an exact division of integers (`interpolate?_eq`), as long as
the powers of neighbours differ by at most `2 ^ 39` watts.  Together this says what a curve allows
at every state of charge (`ChargeCurve.powerAt?_exact`).
-/

namespace ChargingSite

/-! ### The binary search -/

/-- The search ends between the points below `s` and the others. -/
theorem insertionPoint_spec {points : List CurvePoint} (s : Percentage) (low high : ℕ)
    (h : high ≤ points.length) (hrange : low ≤ high)
    (hsorted : points.Pairwise fun a b => a.stateOfCharge < b.stateOfCharge)
    (hlow : ∀ i (hi : i < points.length), i < low → points[i].stateOfCharge < s)
    (hhigh : ∀ i (hi : i < points.length), high ≤ i → s ≤ points[i].stateOfCharge) :
    insertionPoint points s low high h ≤ points.length ∧
      (∀ i (hi : i < points.length), i < insertionPoint points s low high h →
        points[i].stateOfCharge < s) ∧
      ∀ i (hi : i < points.length), insertionPoint points s low high h ≤ i →
        s ≤ points[i].stateOfCharge := by
  have hmono := List.pairwise_iff_getElem.mp hsorted
  fun_induction insertionPoint points s low high h with
  | case1 low high h hlt middle hbelow ih =>
    -- the middle lies below `s`, and so does everything in front of it
    refine ih (by omega) (fun i hi him => ?_) hhigh
    rcases (Nat.lt_succ_iff.mp him).lt_or_eq with him | rfl
    · exact (hmono i middle hi (by omega) him).trans hbelow
    · exact hbelow
  | case2 low high h hlt middle hbelow ih =>
    -- the middle does not lie below `s`, nor does anything behind it
    have hmiddle : s ≤ points[middle].stateOfCharge := not_lt.mp hbelow
    refine ih (by omega) hlow fun i hi hmi => ?_
    rcases hmi.lt_or_eq with hmi | rfl
    · exact hmiddle.trans (hmono middle i (by omega) hi hmi).le
    · exact hmiddle
  | case3 low high h hempty =>
    have heq : low = high := by omega
    subst heq
    exact ⟨h, hlow, hhigh⟩

namespace ChargeCurve

variable {c : ChargeCurve} {s : Percentage} {i j : ℕ}

theorem stateOfCharge_lt_iff (hi : i < c.points.length) (hj : j < c.points.length) :
    c.points[i].stateOfCharge < c.points[j].stateOfCharge ↔ i < j := by
  have hmono := List.pairwise_iff_getElem.mp c.increasing
  constructor
  · intro hlt
    by_contra hle
    rcases (not_lt.mp hle).lt_or_eq with hji | rfl
    · exact lt_asymm hlt (hmono j i hj hi hji)
    · exact lt_irrefl _ hlt
  · exact hmono i j hi hj

theorem stateOfCharge_le_iff (hi : i < c.points.length) (hj : j < c.points.length) :
    c.points[i].stateOfCharge ≤ c.points[j].stateOfCharge ↔ i ≤ j := by
  rw [← not_lt, ← not_lt, stateOfCharge_lt_iff]

theorem countBelow_le_length : c.countBelow s ≤ c.points.length :=
  (insertionPoint_spec s 0 _ le_rfl (Nat.zero_le _) c.increasing (by omega) (by omega)).1

/-- **Exactly the points below `s` are counted.** -/
theorem lt_countBelow_iff (hi : i < c.points.length) :
    i < c.countBelow s ↔ c.points[i].stateOfCharge < s := by
  obtain ⟨-, hbelow, hothers⟩ := insertionPoint_spec s 0 _ le_rfl (Nat.zero_le _) c.increasing
    (by omega) (by omega)
  constructor
  · exact hbelow i hi
  · intro hlt
    by_contra hle
    exact absurd (hothers i hi (not_lt.mp hle)) (not_le.mpr hlt)

theorem countBelow_le_iff (hi : i < c.points.length) :
    c.countBelow s ≤ i ↔ s ≤ c.points[i].stateOfCharge := by
  rw [← not_lt, ← not_lt, lt_countBelow_iff hi]

/-! ### Places on a curve -/

theorem first_eq (h : 0 < c.points.length) : c.first = c.points[0] :=
  List.head_eq_getElem _

theorem last_eq (h : c.points.length - 1 < c.points.length) :
    c.last = c.points[c.points.length - 1] :=
  List.getLast_eq_getElem _

theorem mem_segments_iff {a b : CurvePoint} :
    (a, b) ∈ c.segments ↔
      ∃ i, ∃ h : i + 1 < c.points.length, c.points[i] = a ∧ c.points[i + 1] = b := by
  unfold segments
  rw [List.mem_iff_getElem]
  constructor
  · rintro ⟨i, hi, h⟩
    rw [List.length_zip, List.length_tail] at hi
    rw [List.getElem_zip, List.getElem_tail, Prod.mk.injEq] at h
    exact ⟨i, by omega, h⟩
  · rintro ⟨i, hi, rfl, rfl⟩
    refine ⟨i, ?_, ?_⟩
    · rw [List.length_zip, List.length_tail]
      omega
    · rw [List.getElem_zip, List.getElem_tail]

/-- What it means for `s` to lie at a place of the curve. -/
def LiesAt (c : ChargeCurve) (s : Percentage) : CurveLocation → Prop
  | .outside => s < c.first.stateOfCharge ∨ c.last.stateOfCharge < s
  | .sample p => p ∈ c.points ∧ p.stateOfCharge = s
  | .segment a b => (a, b) ∈ c.segments ∧ a.stateOfCharge < s ∧ s < b.stateOfCharge

/-- The search finds a place at which the state of charge lies. -/
theorem liesAt_locate (c : ChargeCurve) (s : Percentage) : c.LiesAt s (c.locate s) := by
  have htwo := c.two_le_length
  unfold locate
  split_ifs with h hsample hzero
  · exact ⟨List.getElem_mem h, hsample⟩
  · -- no point lies below, and the first one lies above
    left
    rw [first_eq (by omega)]
    have hle := (countBelow_le_iff h).mp le_rfl
    simp only [hzero] at hle hsample
    exact lt_of_le_of_ne hle (Ne.symm hsample)
  · -- the points on both sides of the gap are neighbours
    have hle := (countBelow_le_iff h).mp le_rfl
    refine ⟨mem_segments_iff.mpr ⟨c.countBelow s - 1, by omega, rfl, ?_⟩, ?_, ?_⟩
    · simp only [Nat.sub_add_cancel (Nat.one_le_iff_ne_zero.mpr hzero)]
    · rw [← lt_countBelow_iff]
      omega
    · exact lt_of_le_of_ne hle (Ne.symm hsample)
  · -- all points lie below
    right
    rw [last_eq (by omega), ← lt_countBelow_iff]
    omega

/-- **A state of charge has one place on a curve**, and the search finds it. -/
theorem locate_eq_iff {l : CurveLocation} : c.locate s = l ↔ c.LiesAt s l := by
  have htwo := c.two_le_length
  have hcount := countBelow_le_length (c := c) (s := s)
  refine ⟨fun h => h ▸ liesAt_locate c s, fun h => ?_⟩
  -- in each case the number of points below `s` is known
  unfold locate
  match l, h with
  | .outside, .inl hfirst =>
    rw [first_eq (by omega)] at hfirst
    have hnone : c.countBelow s = 0 :=
      Nat.le_zero.mp ((countBelow_le_iff (by omega)).mpr hfirst.le)
    simp only [hnone]
    rw [dif_pos (by omega), if_neg hfirst.ne']
    rfl
  | .outside, .inr hlast =>
    rw [last_eq (by omega), ← lt_countBelow_iff] at hlast
    rw [dif_neg (by omega)]
  | .sample p, ⟨hp, hs⟩ =>
    obtain ⟨i, hi, rfl⟩ := List.getElem_of_mem hp
    have hle : c.countBelow s ≤ i := (countBelow_le_iff hi).mpr hs.ge
    have hge : c.points[i].stateOfCharge ≤ c.points[c.countBelow s].stateOfCharge :=
      hs.le.trans ((countBelow_le_iff (by omega)).mp le_rfl)
    have heq : c.countBelow s = i := le_antisymm hle ((stateOfCharge_le_iff _ _).mp hge)
    simp only [heq]
    rw [dif_pos hi, if_pos hs]
  | .segment a b, ⟨hab, ha, hb⟩ =>
    obtain ⟨i, hi, rfl, rfl⟩ := mem_segments_iff.mp hab
    have heq : c.countBelow s = i + 1 :=
      le_antisymm ((countBelow_le_iff hi).mpr hb.le) ((lt_countBelow_iff (by omega)).mpr ha)
    simp only [heq]
    rw [dif_pos hi, if_neg hb.ne']
    rfl

theorem LiesAt.unique {l l' : CurveLocation} (h : c.LiesAt s l) (h' : c.LiesAt s l') : l = l' :=
  (locate_eq_iff.mpr h).symm.trans (locate_eq_iff.mpr h')

/-- Between the ends of a curve, every state of charge without a point lies within a segment. -/
theorem exists_liesAt_segment (hfirst : c.first.stateOfCharge ≤ s)
    (hlast : s ≤ c.last.stateOfCharge)
    (hno : ∀ p ∈ c.points, p.stateOfCharge ≠ s) : ∃ a b, c.LiesAt s (.segment a b) := by
  have hplace := liesAt_locate c s
  cases hl : c.locate s with
  | outside =>
    rw [hl] at hplace
    rcases hplace with hlt | hlt
    · exact absurd hlt (not_lt.mpr hfirst)
    · exact absurd hlt (not_lt.mpr hlast)
  | sample p =>
    rw [hl] at hplace
    exact absurd hplace.2 (hno p hplace.1)
  | segment a b =>
    rw [hl] at hplace
    exact ⟨a, b, hplace⟩

/-- A scan of the segments from the left comes to the same one. -/
theorem LiesAt.find?_segments {a b : CurvePoint} (h : c.LiesAt s (.segment a b)) :
    c.segments.find? (fun p => p.1.stateOfCharge < s && s < p.2.stateOfCharge) = some (a, b) := by
  have ⟨hmem, ha, hb⟩ := h
  match hfind : c.segments.find? fun p => p.1.stateOfCharge < s && s < p.2.stateOfCharge with
  | none =>
    -- the segment itself is one that qualifies
    have := List.find?_eq_none.mp hfind (a, b) hmem
    simp [ha, hb] at this
  | some (a', b') =>
    -- what is found is a segment around `s`, and there is only one
    have hin := List.find?_some hfind
    simp only [Bool.and_eq_true, decide_eq_true_eq] at hin
    have hfound : c.LiesAt s (.segment a' b') := ⟨List.mem_of_find?_eq_some hfind, hin⟩
    cases hfound.unique h
    exact hfind

end ChargeCurve

/-! ### Interpolation -/

/-- **Interpolation is exact**: the rounded quotient shows in no result, as long as the powers at
the ends differ by at most `2 ^ 39` watts. -/
theorem interpolate?_eq {a b : CurvePoint} {s : Percentage} (ha : a.stateOfCharge < s)
    (hb : s < b.stateOfCharge) (hpower : |b.power.watts - a.power.watts| ≤ 2 ^ 39) :
    interpolate? a b s =
      .ok ⟨a.power.watts +
        ((b.power.watts - a.power.watts) * (s.hundredths - a.stateOfCharge.hundredths)).tdiv
          (b.stateOfCharge.hundredths - a.stateOfCharge.hundredths)⟩ := by
  rw [Percentage.lt_iff_hundredths_lt] at ha hb
  rw [Int.abs_eq_natAbs] at hpower
  have hfull := s.le_full
  -- the numerator has at most 39 + 14 bits
  have hnum : ((b.power.watts - a.power.watts) *
      (s.hundredths - a.stateOfCharge.hundredths : ℤ)).natAbs < 2 ^ 53 := by
    rw [Int.natAbs_mul]
    calc (b.power.watts - a.power.watts).natAbs *
          (s.hundredths - a.stateOfCharge.hundredths : ℤ).natAbs ≤ 2 ^ 39 * 10000 :=
          Nat.mul_le_mul (by omega) (by omega)
      _ < 2 ^ 53 := by norm_num
  have hspan : ((b.stateOfCharge.hundredths - a.stateOfCharge.hundredths : ℕ) : ℤ) =
      b.stateOfCharge.hundredths - a.stateOfCharge.hundredths := by omega
  obtain ⟨q, hq, hn⟩ := bind_eq_ok_iff.mp (Binary64.truncate?_of_quotient? hnum
    (b.stateOfCharge.hundredths - a.stateOfCharge.hundredths))
  rw [hspan] at hn
  unfold interpolate?
  exact bind_eq_ok_iff.mpr ⟨q, hq, bind_eq_ok_iff.mpr ⟨_, hn, rfl⟩⟩

/-! ### The power at a state of charge -/

namespace ChargeCurve

variable {c : ChargeCurve} {s : Percentage}

theorem powerAt?_eq_of_outside (h : c.LiesAt s .outside) :
    c.powerAt? s = .error (.outsideCurve s c.first.stateOfCharge c.last.stateOfCharge) := by
  rw [powerAt?, locate_eq_iff.mpr h]

theorem powerAt?_eq_of_sample {p : CurvePoint} (h : c.LiesAt s (.sample p)) :
    c.powerAt? s = .ok p.power := by
  rw [powerAt?, locate_eq_iff.mpr h]

theorem powerAt?_eq_of_segment {a b : CurvePoint} (h : c.LiesAt s (.segment a b))
    (hpower : |b.power.watts - a.power.watts| ≤ 2 ^ 39) :
    c.powerAt? s =
      .ok ⟨a.power.watts +
        ((b.power.watts - a.power.watts) * (s.hundredths - a.stateOfCharge.hundredths)).tdiv
          (b.stateOfCharge.hundredths - a.stateOfCharge.hundredths)⟩ := by
  rw [powerAt?, locate_eq_iff.mpr h]
  exact liftNumber_eq_ok_iff.mpr (interpolate?_eq h.2.1 h.2.2 hpower)

/-- **Only outside of the curve there is no power.** -/
theorem powerAt?_eq_error_iff {e : SiteError}
    (hpower : ∀ p ∈ c.segments, |p.2.power.watts - p.1.power.watts| ≤ 2 ^ 39) :
    c.powerAt? s = .error e ↔
      c.LiesAt s .outside ∧ e = .outsideCurve s c.first.stateOfCharge c.last.stateOfCharge := by
  have hplace := liesAt_locate c s
  constructor
  · intro herror
    cases hl : c.locate s with
    | outside =>
      rw [hl] at hplace
      rw [powerAt?_eq_of_outside hplace, Except.error.injEq] at herror
      exact ⟨hplace, herror.symm⟩
    | sample p =>
      rw [hl] at hplace
      rw [powerAt?_eq_of_sample hplace] at herror
      cases herror
    | segment a b =>
      rw [hl] at hplace
      rw [powerAt?_eq_of_segment hplace (hpower (a, b) hplace.1)] at herror
      cases herror
  · rintro ⟨houtside, rfl⟩
    exact powerAt?_eq_of_outside houtside

theorem exists_powerAt? (hpower : ∀ p ∈ c.segments, |p.2.power.watts - p.1.power.watts| ≤ 2 ^ 39)
    (hfirst : c.first.stateOfCharge ≤ s) (hlast : s ≤ c.last.stateOfCharge) :
    ∃ p, c.powerAt? s = .ok p := by
  cases hs : c.powerAt? s with
  | ok p => exact ⟨p, rfl⟩
  | error e =>
    rcases ((powerAt?_eq_error_iff hpower).mp hs).1 with hlt | hlt
    · exact absurd hlt (not_lt.mpr hfirst)
    · exact absurd hlt (not_lt.mpr hlast)

/-- **What a curve allows**, if the powers of neighbours differ by at most `2 ^ 39` watts.  Exactly
outside of the curve there is no power, and the error names the two ends; at a calibration point it
is the power of that point; and everywhere else it is interpolated, by an exact division that rounds
toward zero, in the only segment around the state of charge, the one that a scan from the left comes
to. -/
theorem powerAt?_exact (c : ChargeCurve) (s : Percentage)
    (hpower : ∀ p ∈ c.segments, |p.2.power.watts - p.1.power.watts| ≤ 2 ^ 39) :
    (∀ e, c.powerAt? s = .error e ↔
      (s < c.first.stateOfCharge ∨ c.last.stateOfCharge < s) ∧
        e = .outsideCurve s c.first.stateOfCharge c.last.stateOfCharge) ∧
    (∀ p ∈ c.points, p.stateOfCharge = s → c.powerAt? s = .ok p.power) ∧
    (c.first.stateOfCharge ≤ s → s ≤ c.last.stateOfCharge →
      (∀ p ∈ c.points, p.stateOfCharge ≠ s) →
      ∃ a b,
        c.segments.find? (fun p => p.1.stateOfCharge < s && s < p.2.stateOfCharge) =
          some (a, b) ∧
        (∀ p ∈ c.segments, p.1.stateOfCharge < s → s < p.2.stateOfCharge → p = (a, b)) ∧
        c.powerAt? s =
          .ok ⟨a.power.watts +
            ((b.power.watts - a.power.watts) *
                (s.hundredths - a.stateOfCharge.hundredths)).tdiv
              (b.stateOfCharge.hundredths - a.stateOfCharge.hundredths)⟩) := by
  refine ⟨fun e => powerAt?_eq_error_iff hpower, fun p hp hs => powerAt?_eq_of_sample ⟨hp, hs⟩,
    fun hfirst hlast hno => ?_⟩
  obtain ⟨a, b, hplace⟩ := exists_liesAt_segment hfirst hlast hno
  refine ⟨a, b, hplace.find?_segments, fun p hp ha hb => ?_,
    powerAt?_eq_of_segment hplace (hpower (a, b) hplace.1)⟩
  have hfound : c.LiesAt s (.segment p.1 p.2) := ⟨hp, ha, hb⟩
  cases hfound.unique hplace
  rfl

/-- A curve that does not reach down to 0 % and ends below zero. -/
def falling : ChargeCurve where
  points := [⟨.ofHundredths 2000, ⟨50000⟩⟩, ⟨.ofHundredths 8000, ⟨11000⟩⟩,
    ⟨.ofHundredths 10000, ⟨-2000⟩⟩]
  two_le_length := by decide
  increasing := by decide

/-- On the way down the cut-off part is one that was to be subtracted. -/
theorem powerAt?_falling :
    (∀ p ∈ falling.segments, |p.2.power.watts - p.1.power.watts| ≤ 2 ^ 39) ∧
      falling.powerAt? (.ofHundredths 2001) = .ok ⟨50000 + (-39000 * 1 : ℤ).tdiv 6000⟩ := by
  have hpower : ∀ p ∈ falling.segments, |p.2.power.watts - p.1.power.watts| ≤ 2 ^ 39 := by decide
  obtain ⟨-, -, hbetween⟩ := powerAt?_exact falling (.ofHundredths 2001) hpower
  obtain ⟨a, b, hfind, -, hvalue⟩ := hbetween (by decide) (by decide) (by decide)
  cases hfind
  exact ⟨hpower, hvalue⟩

end ChargeCurve

end ChargingSite
