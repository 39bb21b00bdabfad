import ChargingSite.Proofs.Error
import ChargingSite.Proofs.Number.Binary64.Truncation
import ChargingSite.Proofs.Quantity.Percentage
import ChargingSite.Proofs.Scenario.Validity
import ChargingSite.Vehicle.Model

/-!
# From catalog entries to vehicle models

The rules of a charge curve are checked twice: on the doubles of a catalog entry, and on the
hundredths of a percent that the vehicle model counts in.  Rounding keeps the order of the samples,
but two of them can get the same hundredth.  This is the only way in which a valid entry can fail to
become a model (`VehicleModel.ofSpec?_of_valid`): nothing else is lost on the way, neither the two
ends of the curve nor the capacity.
-/

namespace ChargingSite

/-! ### Points of a curve that do not increase -/

/-- Up to the first two neighbours that do not increase, the points increase. -/
theorem exists_of_firstDisorder? {ps : List CurvePoint} {a b : CurvePoint}
    (h : firstDisorder? ps = some (a, b)) :
    ∃ before after, ps = before ++ a :: b :: after ∧
      ((before ++ [a]).IsChain fun p q => p.stateOfCharge < q.stateOfCharge) ∧
      ¬ a.stateOfCharge < b.stateOfCharge := by
  induction ps with
  | nil => cases h
  | cons p ps ih =>
    cases ps with
    | nil => cases h
    | cons q rest =>
      unfold firstDisorder? at h
      split at h
      · next hpq =>
        obtain ⟨before, after, heq, hchain, hab⟩ := ih h
        refine ⟨p :: before, after, by rw [heq, List.cons_append], ?_, hab⟩
        -- in any case `q` is what follows `p`
        cases before <;> cases heq <;> exact List.isChain_cons_cons.mpr ⟨hpq, hchain⟩
      · next hpq =>
        cases h
        exact ⟨[], rest, rfl, List.isChain_singleton _, hpq⟩

/-! ### Samples to points -/

/-- The point that a sample is rounded to, where its numbers are finite. -/
def roundedPoint (sample : Binary64 × Binary64) : CurvePoint where
  stateOfCharge := .ofHundredths (nearestEven (sample.1 * 100).toRat)
  power := ⟨truncated (sample.2 * 1000).toRat⟩

theorem isFinite_hundredfold {x : Binary64} (h : (x * 1000).isFinite = true) :
    (x * 100).isFinite = true := by
  obtain ⟨hfinite, hvalue⟩ := Percentage.toRat_hundred
  obtain ⟨hfinite', hvalue'⟩ := Binary64.toRat_thousand
  refine Binary64.isFinite_mul_of_le hfinite hfinite' ?_ ?_ h
  · rw [hvalue]
    norm_num
  · rw [hvalue, hvalue']
    norm_num

theorem ofPercent?_eq_roundedPoint {sample : Binary64 × Binary64}
    (h : (sample.1 * 1000).isFinite = true) :
    Percentage.ofPercent? sample.1 = .ok (roundedPoint sample).stateOfCharge :=
  Percentage.ofPercent?_eq_ok_iff.mpr ⟨isFinite_hundredfold h, rfl⟩

theorem pointOfPair?_eq_roundedPoint {sample : Binary64 × Binary64}
    (hsoc : (sample.1 * 1000).isFinite = true) (hpower : (sample.2 * 1000).isFinite = true) :
    ChargeCurve.pointOfPair? sample = .ok (roundedPoint sample) := by
  have hkilowatts : Power.ofKilowatts? sample.2 = .ok (roundedPoint sample).power := by
    unfold Power.ofKilowatts? Binary64.truncate?
    rw [Binary64.toIntBy_eq_ok_iff.mpr ⟨hpower, rfl⟩]
    rfl
  unfold ChargeCurve.pointOfPair?
  rw [ofPercent?_eq_roundedPoint hsoc, hkilowatts]
  rfl

/-! ### Valid entries -/

/-- The numbers of the entry stay finite when they are multiplied by a thousand. -/
def VehicleSpec.StaysFinite (spec : VehicleSpec) : Prop :=
  (spec.batteryCapacityKwh * 1000).isFinite = true ∧
    ∀ sample ∈ spec.chargeCurve,
      (sample.1 * 1000).isFinite = true ∧ (sample.2 * 1000).isFinite = true

namespace VehicleSpec

variable {spec : VehicleSpec}

instance : Decidable spec.StaysFinite :=
  inferInstanceAs (Decidable (_ ∧ _))

theorem ofPairs?_eq (hfinite : spec.StaysFinite) :
    ChargeCurve.ofPairs? spec.chargeCurve =
      ChargeCurve.ofPoints? (spec.chargeCurve.map roundedPoint) := by
  have hpoints : spec.chargeCurve.mapM ChargeCurve.pointOfPair? =
      .ok (spec.chargeCurve.map roundedPoint) := by
    rw [mapM_eq_ok_iff, List.forall₂_map_right_iff, List.forall₂_same]
    intro sample hsample
    obtain ⟨hsoc, hpower⟩ := hfinite.2 sample hsample
    exact pointOfPair?_eq_roundedPoint hsoc hpower
  unfold ChargeCurve.ofPairs?
  rw [hpoints]
  rfl

/-- Rounding keeps the order of the samples, up to equality. -/
theorem isChain_roundedPoint (hrules : spec.ObeysRules) (hfinite : spec.StaysFinite) :
    spec.chargeCurve.IsChain fun p q =>
      (roundedPoint p).stateOfCharge ≤ (roundedPoint q).stateOfCharge := by
  have hincreasing := (List.isChain_map _).mp hrules.increasing
  refine hincreasing.imp_of_mem_imp fun p q hp hq hpq => ?_
  have hp' := (hfinite.2 p hp).1
  have hq' := (hfinite.2 q hq).1
  have hlt : p.1.lt q.1 = true :=
    Binary64.lt_of_not_le (Binary64.ne_nan_of_isFinite (Binary64.isFinite_left_of_mul hq'))
      (Binary64.ne_nan_of_isFinite (Binary64.isFinite_left_of_mul hp')) hpq
  exact Percentage.ofPercent?_mono (Binary64.le_of_lt hlt) (ofPercent?_eq_roundedPoint hp')
    (ofPercent?_eq_roundedPoint hq')

/-- A number of percent that is a natural number is rounded to that many percent. -/
theorem hundredths_roundedPoint {sample : Binary64 × Binary64} {n : ℕ} (hn : n ≤ 100)
    (heq : sample.1.eq (Binary64.ofInt n) = true) (h : (sample.1 * 1000).isFinite = true) :
    (roundedPoint sample).stateOfCharge.hundredths = n * 100 := by
  obtain ⟨hfinite, hvalue⟩ := Percentage.toRat_hundred
  obtain ⟨hfiniteₙ, hvalueₙ⟩ := Binary64.toRat_ofInt_natCast (n := n) (by omega)
  have hsample := Binary64.isFinite_left_of_mul h
  have hexact : (sample.1 * 100).toRat = ((n * 100 : ℕ) : ℚ) := by
    rw [← Binary64.place_of_isFinite (isFinite_hundredfold h),
      Binary64.mul_of_isFinite hsample hfinite, hvalue,
      Binary64.toRat_eq_of_eq hsample hfiniteₙ heq, hvalueₙ,
      ← Binary64.place_round_natCast (n := n * 100) (by omega), Nat.cast_mul, Nat.cast_ofNat]
  have hnearest : nearestEven (sample.1 * 100).toRat = ((n * 100 : ℕ) : ℤ) := by
    rw [hexact, ← nearestEven_intCast (n * 100 : ℕ), Int.cast_natCast]
  show (Percentage.ofHundredths (nearestEven (sample.1 * 100).toRat)).hundredths = _
  rw [hnearest, Percentage.hundredths_ofHundredths (by omega)]

/-- The curve of a valid entry still reaches from 0 % to 100 % when it is rounded. -/
theorem spansFully_of_obeysRules (hrules : spec.ObeysRules) (hfinite : spec.StaysFinite)
    {c : ChargeCurve} (hc : c.points = spec.chargeCurve.map roundedPoint) :
    c.spansFully = true := by
  have hne : spec.chargeCurve ≠ [] :=
    List.ne_nil_of_length_pos (by have := hrules.two_le_length; omega)
  have hfirst : c.first = roundedPoint (spec.chargeCurve.head hne) := by
    simp only [ChargeCurve.first, hc, List.head_map]
  have hlast : c.last = roundedPoint (spec.chargeCurve.getLast hne) := by
    simp only [ChargeCurve.last, hc, List.getLast_map]
  have hzero : (spec.chargeCurve.head hne).1.eq (Binary64.ofInt (0 : ℕ)) = true := by
    have := hrules.first_eq_zero
    rwa [List.headD_eq_head?_getD, List.head?_map, List.head?_eq_some_head hne] at this
  have hhundred : (spec.chargeCurve.getLast hne).1.eq (Binary64.ofInt (100 : ℕ)) = true := by
    have := hrules.last_eq_hundred
    rwa [List.getLastD_eq_getLast?, List.getLast?_map, List.getLast?_eq_some_getLast hne] at this
  unfold ChargeCurve.spansFully
  rw [hfirst, hlast,
    hundredths_roundedPoint (by omega) hzero (hfinite.2 _ (List.head_mem hne)).1,
    hundredths_roundedPoint (by omega) hhundred (hfinite.2 _ (List.getLast_mem hne)).1]
  rfl

/-- The capacity of a valid entry is still more than nothing in watt-hours. -/
theorem capacity_not_le_zero (hrules : spec.ObeysRules) (hfinite : spec.StaysFinite) :
    (Energy.ofKilowattHours spec.batteryCapacityKwh).le .zero = false := by
  obtain ⟨hthousand, hvalue⟩ := Binary64.toRat_thousand
  obtain ⟨hzero, hvalue₀⟩ := Binary64.toRat_ofInt_natCast (n := 0) (by norm_num)
  have hcapacity := Binary64.isFinite_left_of_mul hfinite.1
  have hpos : 0 ≤ spec.batteryCapacityKwh.toRat := by
    rw [← Nat.cast_zero, ← hvalue₀]
    exact (Binary64.le_iff_toRat_le hzero hcapacity).mp (Binary64.le_of_lt hrules.capacity_pos)
  -- a thousand times the capacity is at least the capacity
  have hle : spec.batteryCapacityKwh.le (spec.batteryCapacityKwh * 1000) = true := by
    rw [Binary64.le_iff_place_le (Binary64.ne_nan_of_isFinite hcapacity)
        (Binary64.ne_nan_of_isFinite hfinite.1),
      Binary64.place_of_isFinite hcapacity, ← Binary64.place_round_toRat hcapacity false,
      Binary64.mul_of_isFinite hcapacity hthousand, hvalue]
    refine Binary64.place_round_mono ?_ _ _
    linarith
  exact Binary64.not_le_of_lt (Binary64.lt_of_lt_of_le hrules.capacity_pos hle)

end VehicleSpec

/-! ### Models of valid entries -/

namespace VehicleModel

variable {spec : VehicleSpec}

/-- Among samples in order, neighbours get different percentages exactly if the points increase. -/
theorem isChain_ne_iff {l : List (Binary64 × Binary64)}
    (hle : l.IsChain fun p q => (roundedPoint p).stateOfCharge ≤ (roundedPoint q).stateOfCharge)
    (hpercent : ∀ p ∈ l, Percentage.ofPercent? p.1 = .ok (roundedPoint p).stateOfCharge) :
    (l.IsChain fun p q => Percentage.ofPercent? p.1 ≠ Percentage.ofPercent? q.1) ↔
      (l.map roundedPoint).IsChain fun a b => a.stateOfCharge < b.stateOfCharge := by
  rw [List.isChain_map, List.isChain_iff_getElem, List.isChain_iff_getElem]
  rw [List.isChain_iff_getElem] at hle
  refine forall₂_congr fun i hi => ?_
  rw [hpercent _ (List.getElem_mem _), hpercent _ (List.getElem_mem _), Ne, Except.ok.injEq,
    lt_iff_le_and_ne, and_iff_right (hle i hi)]

/-- A valid entry becomes a model if its points increase. -/
theorem exists_ofSpec?_of_increasing (hrules : spec.ObeysRules) (hfinite : spec.StaysFinite)
    (hincreasing : (spec.chargeCurve.map roundedPoint).Pairwise fun a b =>
      a.stateOfCharge < b.stateOfCharge) :
    ∃ m, ofSpec? spec = .ok m := by
  have hlength : 2 ≤ (spec.chargeCurve.map roundedPoint).length := by
    rw [List.length_map]
    exact hrules.two_le_length
  have hcurve := (VehicleSpec.ofPairs?_eq hfinite).trans
    (ChargeCurve.ofPoints?_points ⟨_, hlength, hincreasing⟩)
  have hspans := VehicleSpec.spansFully_of_obeysRules hrules hfinite
    (c := ⟨_, hlength, hincreasing⟩) rfl
  have hcapacity := VehicleSpec.capacity_not_le_zero hrules hfinite
  refine ⟨⟨spec.name, _, _, spec.epaMiles, hspans, hcapacity⟩, bind_eq_ok_iff.mpr ⟨_, hcurve, ?_⟩⟩
  unfold create?
  rw [dif_pos hspans, dif_pos hcapacity]

/-- A valid entry fails with the first two points that do not increase. -/
theorem ofSpec?_of_firstDisorder? (hrules : spec.ObeysRules) (hfinite : spec.StaysFinite)
    {a b : CurvePoint} (h : firstDisorder? (spec.chargeCurve.map roundedPoint) = some (a, b)) :
    ofSpec? spec = .error (.notIncreasing a.stateOfCharge b.stateOfCharge) := by
  have hcurve : ChargeCurve.ofPairs? spec.chargeCurve =
      .error (.notIncreasing a.stateOfCharge b.stateOfCharge) := by
    rw [VehicleSpec.ofPairs?_eq hfinite]
    unfold ChargeCurve.ofPoints?
    rw [dif_pos (by rw [List.length_map]; exact hrules.two_le_length)]
    split
    · next h' =>
      rw [h] at h'
      cases h'
      rfl
    · next h' =>
      rw [h] at h'
      cases h'
  unfold ofSpec?
  rw [hcurve]
  rfl

/-- Where samples in order get points that do not increase, the first two of those that do not are
one percentage. -/
theorem exists_same_of_firstDisorder? {l : List (Binary64 × Binary64)}
    (hle : l.IsChain fun p q => (roundedPoint p).stateOfCharge ≤ (roundedPoint q).stateOfCharge)
    (hpercent : ∀ p ∈ l, Percentage.ofPercent? p.1 = .ok (roundedPoint p).stateOfCharge)
    {a b : CurvePoint} (h : firstDisorder? (l.map roundedPoint) = some (a, b)) :
    ∃ before p q after, l = before ++ p :: q :: after ∧
      ((before ++ [p]).IsChain fun p q =>
        Percentage.ofPercent? p.1 ≠ Percentage.ofPercent? q.1) ∧
      Percentage.ofPercent? p.1 = .ok a.stateOfCharge ∧
      Percentage.ofPercent? q.1 = .ok a.stateOfCharge ∧ b.stateOfCharge = a.stateOfCharge := by
  obtain ⟨_, _, hmap, hbefore, hab⟩ := exists_of_firstDisorder? h
  obtain ⟨before, rest, rfl, rfl, hrest⟩ := List.map_eq_append_iff.mp hmap
  obtain ⟨p, rest', rfl, rfl, hrest'⟩ := List.map_eq_cons_iff.mp hrest
  obtain ⟨q, after, rfl, rfl, -⟩ := List.map_eq_cons_iff.mp hrest'
  -- the two are in order, but not strictly
  have hpq := (List.isChain_append.mp hle).2.1.rel
  have hsame : (roundedPoint q).stateOfCharge = (roundedPoint p).stateOfCharge :=
    le_antisymm (not_lt.mp hab) hpq
  have hfront : before ++ [p] <+: before ++ p :: q :: after :=
    ⟨q :: after, by rw [List.append_assoc, List.singleton_append]⟩
  have hordered := hle.prefix hfront
  have hchain := (isChain_ne_iff hordered fun r hr => hpercent r (hfront.subset hr)).mpr
    (by rwa [List.map_append, List.map_singleton])
  have hq := hpercent q (by simp)
  rw [hsame] at hq
  exact ⟨before, p, q, after, rfl, hchain, hpercent p (by simp), hq, hsame⟩

/-- **A valid catalog entry becomes a model unless two neighbouring samples are rounded to the same
hundredth of a percent.**  Then it fails with the first two of them. -/
theorem ofSpec?_of_valid {d : Document} (hvalid : readVehicleSpec d = .valid spec)
    (hfinite : spec.StaysFinite) :
    ((∃ m, ofSpec? spec = .ok m) ↔ spec.chargeCurve.IsChain fun p q =>
      Percentage.ofPercent? p.1 ≠ Percentage.ofPercent? q.1) ∧
    ∀ e, ofSpec? spec = .error e → ∃ before p q after s,
      spec.chargeCurve = before ++ p :: q :: after ∧
        ((before ++ [p]).IsChain fun p q =>
          Percentage.ofPercent? p.1 ≠ Percentage.ofPercent? q.1) ∧
        Percentage.ofPercent? p.1 = .ok s ∧ Percentage.ofPercent? q.1 = .ok s ∧
        e = .notIncreasing s s := by
  have hrules := VehicleSpec.obeysRules_of_readVehicleSpec hvalid
  have hle := VehicleSpec.isChain_roundedPoint hrules hfinite
  have hpercent : ∀ p ∈ spec.chargeCurve,
      Percentage.ofPercent? p.1 = .ok (roundedPoint p).stateOfCharge :=
    fun p hp => ofPercent?_eq_roundedPoint (hfinite.2 p hp).1
  refine ⟨⟨?_, fun hchain => ?_⟩, fun e he => ?_⟩
  · -- a model has the samples as they were rounded, and these increase
    rintro ⟨m, hm⟩
    obtain ⟨c, hc, -⟩ := bind_eq_ok_iff.mp hm
    rw [VehicleSpec.ofPairs?_eq hfinite] at hc
    rw [isChain_ne_iff hle hpercent, ← ChargeCurve.points_of_ofPoints? hc]
    exact c.increasing.isChain
  · -- no two neighbours are rounded to one, so the rounded samples increase
    rw [isChain_ne_iff hle hpercent, ← List.isChain_map CurvePoint.stateOfCharge,
      List.isChain_iff_pairwise, List.pairwise_map] at hchain
    exact exists_ofSpec?_of_increasing hrules hfinite hchain
  · cases hdisorder : firstDisorder? (spec.chargeCurve.map roundedPoint) with
    | none =>
      obtain ⟨m, hm⟩ := exists_ofSpec?_of_increasing hrules hfinite
        -- without two such samples the construction succeeds
        (pairwise_of_firstDisorder?_eq_none hdisorder)
      rw [hm] at he
      cases he
    | some ab =>
      obtain ⟨a, b⟩ := ab
      rw [ofSpec?_of_firstDisorder? hrules hfinite hdisorder, Except.error.injEq] at he
      -- the first two samples that do not increase have one rounded state of charge
      obtain ⟨before, p, q, after, heq, hchain, hp, hq, hsame⟩ :=
        exists_same_of_firstDisorder? hle hpercent hdisorder
      rw [hsame] at he
      exact ⟨before, p, q, after, a.stateOfCharge, heq, hchain, hp, hq, he.symm⟩

/-! ### Two entries to look at -/

/-- An entry with the given numbers of percent between 0 and 100. -/
def entryThrough (between : List ℚ) : Document :=
  .record [("name", .text "X"), ("battery_capacity_kwh", .integer 50),
    ("charge_curve", .list (.list [.integer 0, .integer 10] ::
      between.map (fun percent => .list [.decimal (.round percent), .integer 20]) ++
        [.list [.integer 100, .integer 10]]))]

/-- Samples a hundredth of a percent apart stay apart. -/
theorem exists_ofSpec?_entryThrough :
    ∃ spec, readVehicleSpec (entryThrough [50, 5001 / 100]) = .valid spec ∧ spec.StaysFinite ∧
      ∃ m, ofSpec? spec = .ok m := by
  have hvalid : readVehicleSpec (entryThrough [50, 5001 / 100]) = .valid
      ⟨"X", 50, [(0, 10), (50, 20), (.round (5001 / 100), 20), (100, 10)], 0⟩ := by
    decide +kernel
  have hfinite : VehicleSpec.StaysFinite
      ⟨"X", 50, [(0, 10), (50, 20), (.round (5001 / 100), 20), (100, 10)], 0⟩ := by
    decide +kernel
  exact ⟨_, hvalid, hfinite, (ofSpec?_of_valid hvalid hfinite).1.mpr (by decide +kernel)⟩

/-- Samples a thousandth of a percent apart are valid and make no model. -/
theorem ofSpec?_entryThrough :
    ∃ spec, readVehicleSpec (entryThrough [50001 / 1000, 50002 / 1000]) = .valid spec ∧
      spec.StaysFinite ∧
      ofSpec? spec = .error (.notIncreasing (.ofHundredths 5000) (.ofHundredths 5000)) :=
  ⟨⟨"X", 50, [(0, 10), (.round (50001 / 1000), 20), (.round (50002 / 1000), 20), (100, 10)], 0⟩,
    by decide +kernel⟩

end VehicleModel

end ChargingSite
