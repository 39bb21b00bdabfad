import ChargingSite.Curve.Window
import ChargingSite.Proofs.Curve.PowerAt

/-!
# Windows of a curve

The first scan for a window finds a segment exactly if the window starts on the curve and before its
end (`ChargeCurve.startSegment?_eq_none_iff`), the second one if it stops on the curve and behind
its beginning (`ChargeCurve.stopSegment?_eq_none_iff`).  The points between the segments found are
those strictly inside the window (`ChargeCurve.extract_eq_inner`), wherever its ends fall.  Hence a
window is there exactly if it is not empty and lies on the curve, and it consists of its two ends
and of all points strictly between them (`ChargeCurve.window?_eq_ok_some_iff`).  The whole curve is
a window of itself (`ChargeCurve.window?_self`), so taking a window a second time changes nothing.
-/

namespace ChargingSite

/-- Where membership is a matter of the position, filtering is cutting out. -/
theorem filter_eq_extract {α : Type} {l : List α} {f : α → Bool} {a b : ℕ}
    (h : ∀ k (hk : k < l.length), f l[k] = true ↔ a ≤ k ∧ k < b) : l.filter f = l.extract a b := by
  induction l generalizing a b with
  | nil => simp
  | cons x l ih =>
    have hx : f x = true ↔ a ≤ 0 ∧ 0 < b := h 0 (Nat.succ_pos _)
    have hl (k) (hk : k < l.length) : f l[k] = true ↔ a ≤ k + 1 ∧ k + 1 < b :=
      h (k + 1) (Nat.succ_lt_succ hk)
    rw [List.filter_cons]
    match a, b with
    | 0, 0 =>
      -- nothing is kept any more
      rw [if_neg (by simp [hx]), ih (a := 0) (b := 0) fun k hk => by rw [hl k hk]; omega]
      simp
    | 0, b + 1 =>
      -- the first one is kept
      rw [if_pos (by simp [hx]), ih (a := 0) (b := b) fun k hk => by rw [hl k hk]; omega]
      simp
    | a + 1, b =>
      -- the first one is before the range
      have hlength : b - (a + 1) = b - 1 - a := by omega
      rw [if_neg (by simp [hx]), ih (a := a) (b := b - 1) fun k hk => by rw [hl k hk]; omega,
        List.extract_eq_take_drop, List.extract_eq_take_drop, List.drop_succ_cons, hlength]

namespace ChargeCurve

variable {c part : ChargeCurve} {start stop s : Percentage} {i j : ℕ}

/-! ### The two scans -/

theorem first_mem (c : ChargeCurve) : c.first ∈ c.points :=
  List.head_mem _

theorem last_mem (c : ChargeCurve) : c.last ∈ c.points :=
  List.getLast_mem _

theorem findIdx?_segments_eq_some {f : CurvePoint × CurvePoint → Bool}
    (h : c.segments.findIdx? f = some i) :
    ∃ (_ : i < c.points.length) (_ : i + 1 < c.points.length),
      f (c.points[i], c.points[i + 1]) = true := by
  obtain ⟨hi, hfound, -⟩ := List.findIdx?_eq_some_iff_getElem.mp h
  unfold segments at hi hfound
  rw [List.length_zip, List.length_tail] at hi
  rw [List.getElem_zip, List.getElem_tail] at hfound
  exact ⟨by omega, by omega, hfound⟩

theorem findIdx?_segments_eq_none_iff {f : CurvePoint × CurvePoint → Bool} :
    c.segments.findIdx? f = none ↔
      ∀ i (_ : i < c.points.length) (_ : i + 1 < c.points.length),
        f (c.points[i], c.points[i + 1]) = false := by
  rw [List.findIdx?_eq_none_iff]
  constructor
  · intro h i _ hi
    exact h _ (mem_segments_iff.mpr ⟨i, hi, rfl, rfl⟩)
  · rintro h ⟨a, b⟩ hab
    obtain ⟨i, hi, rfl, rfl⟩ := mem_segments_iff.mp hab
    exact h i (by omega) hi

/-- What the first scan finds is a segment that begins at `start` at the latest and ends behind
it. -/
theorem startSegment?_eq_some (h : c.startSegment? start = some i) :
    ∃ (_ : i < c.points.length) (_ : i + 1 < c.points.length),
      c.points[i].stateOfCharge ≤ start ∧ start < c.points[i + 1].stateOfCharge := by
  obtain ⟨hi, hi', hfound⟩ := findIdx?_segments_eq_some h
  rw [Bool.and_eq_true, decide_eq_true_eq, decide_eq_true_eq] at hfound
  exact ⟨hi, hi', hfound⟩

theorem stopSegment?_eq_some (h : c.stopSegment? stop = some j) :
    ∃ (_ : j < c.points.length) (_ : j + 1 < c.points.length),
      c.points[j].stateOfCharge < stop ∧ stop ≤ c.points[j + 1].stateOfCharge := by
  obtain ⟨hj, hj', hfound⟩ := findIdx?_segments_eq_some h
  rw [Bool.and_eq_true, decide_eq_true_eq, decide_eq_true_eq] at hfound
  exact ⟨hj, hj', hfound⟩

theorem first_le_getElem (hi : i < c.points.length) :
    c.first.stateOfCharge ≤ c.points[i].stateOfCharge := by
  rw [first_eq (by omega), stateOfCharge_le_iff]
  exact Nat.zero_le i

theorem getElem_le_last (hi : i < c.points.length) :
    c.points[i].stateOfCharge ≤ c.last.stateOfCharge := by
  rw [last_eq (by omega), stateOfCharge_le_iff]
  omega

/-- **Where a window can start**: everywhere on the curve but at its end. -/
theorem startSegment?_eq_none_iff :
    c.startSegment? start = none ↔
      ¬ (c.first.stateOfCharge ≤ start ∧ start < c.last.stateOfCharge) := by
  have htwo := c.two_le_length
  unfold startSegment?
  rw [findIdx?_segments_eq_none_iff]
  simp only [Bool.and_eq_false_iff, decide_eq_false_iff_not, ← not_and_or]
  constructor
  · rintro hnone ⟨hfirst, hlast⟩
    -- from one point to the next the curve never gets beyond `start`
    have hbelow : ∀ i (hi : i < c.points.length), c.points[i].stateOfCharge ≤ start := by
      intro i
      induction i with
      | zero =>
        intro hi
        rwa [← first_eq hi]
      | succ i ih =>
        intro hi
        exact not_lt.mp fun hlt => hnone i (by omega) hi ⟨ih (by omega), hlt⟩
    rw [last_eq (by omega)] at hlast
    exact absurd hlast (not_lt.mpr (hbelow _ _))
  · rintro houtside i _ hi ⟨hle, hlt⟩
    exact houtside ⟨(first_le_getElem _).trans hle, hlt.trans_le (getElem_le_last hi)⟩

/-- **Where a window can stop**: everywhere on the curve but at its beginning. -/
theorem stopSegment?_eq_none_iff :
    c.stopSegment? stop = none ↔
      ¬ (c.first.stateOfCharge < stop ∧ stop ≤ c.last.stateOfCharge) := by
  have htwo := c.two_le_length
  unfold stopSegment?
  rw [findIdx?_segments_eq_none_iff]
  simp only [Bool.and_eq_false_iff, decide_eq_false_iff_not, ← not_and_or]
  constructor
  · rintro hnone ⟨hfirst, hlast⟩
    -- from one point to the next the curve never gets to `stop`
    have hbelow : ∀ j (hj : j < c.points.length), c.points[j].stateOfCharge < stop := by
      intro j
      induction j with
      | zero =>
        intro hj
        rwa [← first_eq hj]
      | succ j ih =>
        intro hj
        exact not_le.mp fun hle => hnone j (by omega) hj ⟨ih (by omega), hle⟩
    rw [last_eq (by omega)] at hlast
    exact absurd hlast (not_le.mpr (hbelow _ _))
  · rintro houtside j _ hj ⟨hlt, hle⟩
    exact houtside ⟨(first_le_getElem _).trans_lt hlt, hle.trans (getElem_le_last hj)⟩

/-! ### The points inside a window -/

/-- The points strictly between two states of charge. -/
def inner (c : ChargeCurve) (start stop : Percentage) : List CurvePoint :=
  c.points.filter fun p => start < p.stateOfCharge && p.stateOfCharge < stop

theorem mem_inner_iff {p : CurvePoint} :
    p ∈ c.inner start stop ↔ p ∈ c.points ∧ start < p.stateOfCharge ∧ p.stateOfCharge < stop := by
  rw [inner, List.mem_filter, Bool.and_eq_true, decide_eq_true_eq, decide_eq_true_eq]

/-- **What is cut out are the points inside**: from behind the segment in which the window starts to
the beginning of the one in which it stops. -/
theorem extract_eq_inner (hi : i + 1 < c.points.length) (hj : j + 1 < c.points.length)
    (hstart : c.points[i].stateOfCharge ≤ start ∧ start < c.points[i + 1].stateOfCharge)
    (hstop : c.points[j].stateOfCharge < stop ∧ stop ≤ c.points[j + 1].stateOfCharge) :
    c.points.extract (i + 1) (j + 1) = c.inner start stop := by
  refine (filter_eq_extract fun k hk => ?_).symm
  rw [Bool.and_eq_true, decide_eq_true_eq, decide_eq_true_eq]
  refine and_congr ⟨fun hlt => ?_, fun hle => ?_⟩ ⟨fun hlt => ?_, fun hle => ?_⟩
  · exact (stateOfCharge_lt_iff (by omega) hk).mp (hstart.1.trans_lt hlt)
  · exact hstart.2.trans_le ((stateOfCharge_le_iff hi hk).mpr hle)
  · exact (stateOfCharge_lt_iff hk hj).mp (hlt.trans_le hstop.2)
  · exact ((stateOfCharge_le_iff hk (by omega)).mpr (Nat.le_of_lt_succ hle)).trans_lt hstop.1

/-- The ends of a window and the points between them increase. -/
theorem pairwise_window (p q : Power) (h : start < stop) :
    (⟨start, p⟩ :: c.inner start stop ++ [⟨stop, q⟩] : List CurvePoint).Pairwise
      fun a b => a.stateOfCharge < b.stateOfCharge := by
  rw [List.cons_append, List.pairwise_cons, List.pairwise_append]
  refine ⟨?_, c.increasing.sublist List.filter_sublist, List.pairwise_singleton .., ?_⟩
  · intro r hr
    rcases List.mem_append.mp hr with hr | hr
    · exact (mem_inner_iff.mp hr).2.1
    · cases List.mem_singleton.mp hr
      exact h
  · intro r hr last hlast
    cases List.mem_singleton.mp hlast
    exact (mem_inner_iff.mp hr).2.2

/-! ### Windows -/

/-- **What the scans amount to**: where a window is not empty and lies on the curve, it is made from
its ends and the points between them, and elsewhere there is none. -/
theorem window?_eq (c : ChargeCurve) (start stop : Percentage) :
    c.window? start stop =
      if c.first.stateOfCharge ≤ start ∧ start < stop ∧ stop ≤ c.last.stateOfCharge then do
        let p ← c.powerAt? start
        let q ← c.powerAt? stop
        let part ← ofPoints? (⟨start, p⟩ :: c.inner start stop ++ [⟨stop, q⟩])
        return some part
      else .ok none := by
  unfold window?
  by_cases hlt : start < stop
  · rw [if_pos hlt]
    cases hi : c.startSegment? start with
    | none =>
      -- the window starts before the curve or not below its end
      have houtside := startSegment?_eq_none_iff.mp hi
      rw [if_neg fun ⟨hfirst, _, hlast⟩ => houtside ⟨hfirst, hlt.trans_le hlast⟩]
    | some i =>
      cases hj : c.stopSegment? stop with
      | none =>
        -- the window stops after the curve or not above its start
        have houtside := stopSegment?_eq_none_iff.mp hj
        rw [if_neg fun ⟨hfirst, _, hlast⟩ => houtside ⟨hfirst.trans_lt hlt, hlast⟩]
      | some j =>
        obtain ⟨_, hi', hstart⟩ := startSegment?_eq_some hi
        obtain ⟨_, hj', hstop⟩ := stopSegment?_eq_some hj
        rw [if_pos ⟨(first_le_getElem _).trans hstart.1, hlt,
          hstop.2.trans (getElem_le_last hj')⟩, ← extract_eq_inner hi' hj' hstart hstop]
  · -- an empty window is none, wherever it is
    rw [if_neg hlt, if_neg fun ⟨_, h, _⟩ => hlt h]

theorem window?_eq_ok_some_iff :
    c.window? start stop = .ok (some part) ↔
      (c.first.stateOfCharge ≤ start ∧ start < stop ∧ stop ≤ c.last.stateOfCharge) ∧
        ∃ p q, c.powerAt? start = .ok p ∧ c.powerAt? stop = .ok q ∧
          part.points = ⟨start, p⟩ :: c.inner start stop ++ [⟨stop, q⟩] := by
  rw [window?_eq]
  split_ifs with hon
  · simp only [bind_eq_ok_iff, pure_eq_ok_iff]
    constructor
    · rintro ⟨p, hp, q, hq, part, hpart, ⟨⟩⟩
      exact ⟨hon, p, q, hp, hq, points_of_ofPoints? hpart⟩
    · rintro ⟨-, p, q, hp, hq, hpoints⟩
      exact ⟨p, hp, q, hq, part, hpoints ▸ ofPoints?_points part, rfl⟩
  · simp [hon]

theorem first_eq_of_window? (h : c.window? start stop = .ok (some part)) :
    part.first.stateOfCharge = start := by
  obtain ⟨-, p, q, -, -, hpoints⟩ := window?_eq_ok_some_iff.mp h
  simp only [first, hpoints, List.cons_append, List.head_cons]

theorem last_eq_of_window? (h : c.window? start stop = .ok (some part)) :
    part.last.stateOfCharge = stop := by
  obtain ⟨-, p, q, -, -, hpoints⟩ := window?_eq_ok_some_iff.mp h
  simp only [last, hpoints, List.getLast_append_singleton]

theorem first_lt_last (c : ChargeCurve) : c.first.stateOfCharge < c.last.stateOfCharge := by
  have htwo := c.two_le_length
  rw [first_eq (by omega), last_eq (by omega), stateOfCharge_lt_iff]
  omega

theorem eq_of_stateOfCharge_eq {p q : CurvePoint} (hp : p ∈ c.points) (hq : q ∈ c.points)
    (h : p.stateOfCharge = q.stateOfCharge) : p = q := by
  have hp' : c.LiesAt q.stateOfCharge (.sample p) := ⟨hp, h⟩
  have hq' : c.LiesAt q.stateOfCharge (.sample q) := ⟨hq, rfl⟩
  cases hp'.unique hq'
  rfl

theorem mem_points_iff {p : CurvePoint} :
    p ∈ c.points ↔
      p = c.first ∨ p ∈ c.inner c.first.stateOfCharge c.last.stateOfCharge ∨ p = c.last := by
  rw [mem_inner_iff]
  constructor
  · -- a point that shares its place with an end is that end
    intro hp
    obtain ⟨i, hi, rfl⟩ := List.getElem_of_mem hp
    rcases (first_le_getElem hi).eq_or_lt with hfirst | hfirst
    · exact .inl (eq_of_stateOfCharge_eq hp c.first_mem hfirst.symm)
    · rcases (getElem_le_last hi).eq_or_lt with hlast | hlast
      · exact .inr (.inr (eq_of_stateOfCharge_eq hp c.last_mem hlast))
      · exact .inr (.inl ⟨hp, hfirst, hlast⟩)
  · rintro (rfl | ⟨hp, -, -⟩ | rfl)
    · exact c.first_mem
    · exact hp
    · exact c.last_mem

/-- A curve consists of its ends and the points between them. -/
theorem points_eq_inner (c : ChargeCurve) :
    c.points = c.first :: c.inner c.first.stateOfCharge c.last.stateOfCharge ++ [c.last] := by
  have hasymm : Std.Asymm fun a b : CurvePoint => a.stateOfCharge < b.stateOfCharge :=
    ⟨fun _ _ => lt_asymm⟩
  -- both lists increase and have the same members
  refine c.increasing.eq_of_mem_iff (pairwise_window _ _ c.first_lt_last) fun p => ?_
  rw [mem_points_iff, List.cons_append, List.mem_cons, List.mem_append, List.mem_singleton]

/-- **The whole curve is a window of itself.** -/
theorem window?_self (c : ChargeCurve) :
    c.window? c.first.stateOfCharge c.last.stateOfCharge = .ok (some c) :=
  window?_eq_ok_some_iff.mpr ⟨⟨le_rfl, c.first_lt_last, le_rfl⟩, c.first.power, c.last.power,
    powerAt?_eq_of_sample ⟨c.first_mem, rfl⟩, powerAt?_eq_of_sample ⟨c.last_mem, rfl⟩,
    c.points_eq_inner⟩

/-- Taking a window a second time changes nothing. -/
theorem window?_window? (h : c.window? start stop = .ok (some part)) :
    part.window? start stop = .ok (some part) := by
  have hself := part.window?_self
  rwa [first_eq_of_window? h, last_eq_of_window? h] at hself

/-- **Windows of a curve**, if the powers of neighbours differ by at most `2 ^ 39` watts.  Asking
for one never fails.  There is none exactly if it would be empty or reach beyond the curve;
otherwise it is the curve through its two ends, with the powers there, and all points strictly
between them, where no state of charge occurs twice.  The window from end to end is the curve
itself, and taking a window of itself once more changes nothing. -/
theorem window?_exact (c : ChargeCurve) (start stop : Percentage)
    (hpower : ∀ p ∈ c.segments, |p.2.power.watts - p.1.power.watts| ≤ 2 ^ 39) :
    (∃ window, c.window? start stop = .ok window ∧
      (window = none ↔
        ¬ (c.first.stateOfCharge ≤ start ∧ start < stop ∧ stop ≤ c.last.stateOfCharge)) ∧
      ∀ part, window = some part →
        (∃ p q, c.powerAt? start = .ok p ∧ c.powerAt? stop = .ok q ∧
          part.points = ⟨start, p⟩ ::
            c.points.filter (fun r => start < r.stateOfCharge && r.stateOfCharge < stop) ++
              [⟨stop, q⟩]) ∧
        (part.points.map CurvePoint.stateOfCharge).Nodup ∧
        part.window? start stop = .ok (some part)) ∧
    c.window? c.first.stateOfCharge c.last.stateOfCharge = .ok (some c) := by
  refine ⟨?_, c.window?_self⟩
  by_cases hon : c.first.stateOfCharge ≤ start ∧ start < stop ∧ stop ≤ c.last.stateOfCharge
  · obtain ⟨hfirst, hlt, hlast⟩ := id hon
    obtain ⟨p, hp⟩ := exists_powerAt? hpower hfirst (hlt.le.trans hlast)
    obtain ⟨q, hq⟩ := exists_powerAt? hpower (hfirst.trans hlt.le) hlast
    have hsorted := pairwise_window (c := c) p q hlt
    let part : ChargeCurve := ⟨_, by simp, hsorted⟩
    have hpart : c.window? start stop = .ok (some part) :=
      window?_eq_ok_some_iff.mpr ⟨hon, p, q, hp, hq, rfl⟩
    refine ⟨some part, hpart, by simp [hon], ?_⟩
    rintro _ ⟨⟩
    refine ⟨⟨p, q, hp, hq, rfl⟩, ?_, window?_window? hpart⟩
    exact (List.pairwise_map.mpr part.increasing).imp fun h => h.ne
  · refine ⟨none, ?_, by simp [hon], nofun⟩
    rw [window?_eq, if_neg hon]

/-- A window that starts within the first segment and stops within the second one keeps the point
between them. -/
theorem window?_falling :
    (∀ p ∈ falling.segments, |p.2.power.watts - p.1.power.watts| ≤ 2 ^ 39) ∧
      ∃ part, falling.window? (.ofHundredths 2001) (.ofHundredths 9000) = .ok (some part) ∧
        part.points = [⟨.ofHundredths 2001, ⟨49994⟩⟩, ⟨.ofHundredths 8000, ⟨11000⟩⟩,
          ⟨.ofHundredths 9000, ⟨4500⟩⟩] := by
  have hpower : ∀ p ∈ falling.segments, |p.2.power.watts - p.1.power.watts| ≤ 2 ^ 39 := by decide
  have hstart : falling.powerAt? (.ofHundredths 2001) = .ok ⟨49994⟩ := by decide +kernel
  have hstop : falling.powerAt? (.ofHundredths 9000) = .ok ⟨4500⟩ := by decide +kernel
  obtain ⟨⟨window, hwindow, hnone, hpart⟩, -⟩ :=
    window?_exact falling (.ofHundredths 2001) (.ofHundredths 9000) hpower
  cases window with
  | none => exact absurd (hnone.mp rfl) (by decide)
  | some part =>
    obtain ⟨⟨p, q, hp, hq, hpoints⟩, -, -⟩ := hpart part rfl
    cases hp.symm.trans hstart
    cases hq.symm.trans hstop
    exact ⟨hpower, part, hwindow, hpoints⟩

end ChargeCurve

end ChargingSite
