import ChargingSite.Proofs.Curve.WindowPower
import ChargingSite.Proofs.Vehicle

/-!
# Every vehicle has a request

A vehicle that has not finished answers every offer with a request (`Vehicle.request?_defined`).
Its state of charge is a percentage as long as no number on the way to it overflows
(`Vehicle.exists_soc?`), and the curve of a model reaches over all percentages, so there is a power
for it (`VehicleModel.exists_powerAt?`).  That power is no greater than the greatest one stored in
the curve, its peak: along a segment the power stays below that of the higher end
(`ChargeCurve.lineAt_le_max`), also after it is cut off toward zero.

So a vehicle takes what its curve allows of an offer, and no more of a greater offer once that is
at least the peak and the least charge power.
-/

namespace ChargingSite

/-! ### The peak of a curve -/

namespace ChargeCurve

variable {c : ChargeCurve} {s : Percentage} {a b : CurvePoint} {allowed : Power}

/-- The greatest watts stored in a curve. -/
def peak (c : ChargeCurve) : ℤ :=
  (c.points.map fun p => p.power.watts).max (by simp [c.points_ne_nil])

theorem watts_le_peak {p : CurvePoint} (hp : p ∈ c.points) : p.power.watts ≤ c.peak := by
  apply List.le_max_of_mem
  exact List.mem_map_of_mem hp

/-- **On a segment** the power is at most that of the higher end. -/
theorem lineAt_le_max (hab : a.stateOfCharge < b.stateOfCharge) (ha : a.stateOfCharge ≤ s)
    (hb : s ≤ b.stateOfCharge) : lineAt a b s ≤ max a.power.watts b.power.watts := by
  have hlt : a.stateOfCharge.hundredths < b.stateOfCharge.hundredths := hab
  have hle : a.stateOfCharge.hundredths ≤ s.hundredths := ha
  have hge : s.hundredths ≤ b.stateOfCharge.hundredths := hb
  have hn : (0 : ℤ) < b.stateOfCharge.hundredths - a.stateOfCharge.hundredths := by omega
  have hu : (0 : ℤ) ≤ s.hundredths - a.stateOfCharge.hundredths := by omega
  rw [lineAt]
  rcases le_total 0 (b.power.watts - a.power.watts) with hd | hd
  · -- a rising line has not come to its end yet
    have hrise := rise_mono hd hn hu (sub_le_sub_right (Int.ofNat_le.mpr hge) _)
    rw [rise_self _ hn] at hrise
    omega
  · -- a falling line has come down from its start, by the opposite of a rise
    have hfall := rise_mono (neg_nonneg.mpr hd) hn le_rfl hu
    rw [rise_zero, rise_neg] at hfall
    omega

theorem powerAt?_le_peak
    (hpower : ∀ p ∈ c.segments, |p.2.power.watts - p.1.power.watts| ≤ 2 ^ 39)
    (h : c.powerAt? s = .ok allowed) : allowed.watts ≤ c.peak := by
  have hplace := liesAt_locate c s
  cases hl : c.locate s with
  | outside =>
    rw [hl] at hplace
    rw [powerAt?_eq_of_outside hplace] at h
    cases h
  | sample p =>
    rw [hl] at hplace
    rw [powerAt?_eq_of_sample hplace] at h
    cases h
    exact watts_le_peak hplace.1
  | segment a b =>
    rw [hl] at hplace
    obtain ⟨hab, ha, hb⟩ := hplace
    rw [powerAt?_eq_lineAt hab ha.le hb.le (hpower (a, b) hab)] at h
    cases h
    -- on a line no point is above both ends
    apply (lineAt_le_max (ha.trans hb) ha.le hb.le).trans
    apply max_le
    · exact watts_le_peak (left_mem_of_mem_segments hab)
    · exact watts_le_peak (right_mem_of_mem_segments hab)

end ChargeCurve

/-! ### Powers and states of charge -/

/-- **The curve of a model has a power everywhere.** -/
theorem VehicleModel.exists_powerAt? (m : VehicleModel) (s : Percentage)
    (hpower : ∀ p ∈ m.curve.segments, |p.2.power.watts - p.1.power.watts| ≤ 2 ^ 39) :
    ∃ allowed, m.curve.powerAt? s = .ok allowed := by
  have hspans := m.spansFully
  simp only [ChargeCurve.spansFully, Bool.and_eq_true, decide_eq_true_eq] at hspans
  obtain ⟨hfirst, hlast⟩ := hspans
  apply ChargeCurve.exists_powerAt? hpower
  · show m.curve.first.stateOfCharge.hundredths ≤ s.hundredths
    omega
  · show s.hundredths ≤ m.curve.last.stateOfCharge.hundredths
    have hfull := s.le_full
    omega

namespace Vehicle

variable {v : Vehicle} {offer offer' request request' : Power}

/-- The hundredths of a percent that the battery is charged to, before they are rounded, are
finite.  An empty battery needs none. -/
def HasFiniteCharge (v : Vehicle) : Prop :=
  v.energy.le emptyBelow = false →
    (v.energy.wattHours / v.model.capacity.wattHours * 100 * 100).isFinite = true

instance (v : Vehicle) : Decidable v.HasFiniteCharge :=
  inferInstanceAs (Decidable (_ → _))

theorem exists_soc? (h : v.HasFiniteCharge) : ∃ soc, v.soc? = .ok soc := by
  unfold soc? socOf?
  by_cases hempty : v.energy.le emptyBelow = true
  · rw [if_pos hempty]
    exact ⟨_, rfl⟩
  · rw [if_neg hempty]
    have hfinite := h (Bool.not_eq_true _ ▸ hempty)
    exact ⟨_, Percentage.ofPercent?_eq_ok_iff.mpr ⟨hfinite, rfl⟩⟩

theorem exists_allows (h : v.HasFiniteCharge)
    (hpower : ∀ p ∈ v.model.curve.segments, |p.2.power.watts - p.1.power.watts| ≤ 2 ^ 39) :
    ∃ allowed, v.Allows allowed ∧ allowed.watts ≤ v.model.curve.peak := by
  obtain ⟨soc, hsoc⟩ := exists_soc? h
  obtain ⟨allowed, hallowed⟩ := v.model.exists_powerAt? soc hpower
  exact ⟨allowed, ⟨soc, hsoc, hallowed⟩, ChargeCurve.powerAt?_le_peak hpower hallowed⟩

/-! ### Requests -/

/-- A vehicle that has not finished answers with what its curve allows of the offer. -/
theorem request?_eq_of_allows {allowed : Power} (hstays : v.isFinished = false)
    (h : v.Allows allowed) (offer : Power) :
    v.request? offer = .ok (some (max (min allowed offer) minimumCharge)) :=
  request?_eq_ok_some_iff.mpr ⟨hstays, allowed, h, rfl⟩

/-- **Every vehicle has a request.**  Let the hundredths of a percent that its battery is charged to
be finite, and the powers of neighbours on its curve differ by at most `2 ^ 39` watts.  Then the
vehicle answers every offer, and that it wants to leave exactly if it has stored as much as it came
for.  Any other answer is what its curve allows of the offer, lifted to the least charge power.  So
it is at least the least charge power, and at most the offer and at most the peak of the curve, both
lifted likewise; no greater offer gets a smaller answer, and all offers of at least the peak and the
least charge power get the same. -/
theorem request?_defined (v : Vehicle) (hcharge : v.HasFiniteCharge)
    (hpower : ∀ p ∈ v.model.curve.segments, |p.2.power.watts - p.1.power.watts| ≤ 2 ^ 39) :
    (∀ offer, ∃ answer, v.request? offer = .ok answer) ∧
    (∀ offer, v.request? offer = .ok none ↔ v.unplugAt.le v.energy = true) ∧
    (∃ allowed, v.Allows allowed ∧ ∀ offer, v.unplugAt.le v.energy = false →
      v.request? offer = .ok (some (max (min allowed offer) minimumCharge))) ∧
    (∀ offer request, v.request? offer = .ok (some request) →
      5000 ≤ request.watts ∧ request.watts ≤ max offer.watts 5000 ∧
        request.watts ≤ max v.model.curve.peak 5000) ∧
    (∀ offer offer' request request', offer ≤ offer' → v.request? offer = .ok (some request) →
      v.request? offer' = .ok (some request') → request ≤ request') ∧
    ∀ offer offer', max v.model.curve.peak 5000 ≤ offer.watts →
      max v.model.curve.peak 5000 ≤ offer'.watts → v.request? offer = v.request? offer' := by
  have hmin : minimumCharge.watts = 5000 := rfl
  obtain ⟨allowed, hallowed, hpeak⟩ := exists_allows hcharge hpower
  by_cases hfinished : v.isFinished = true
  · -- whoever has finished answers every offer alike, and requests nothing
    have hnone (offer : Power) : v.request? offer = .ok none :=
      (request?_eq_ok_none_iff offer).mpr hfinished
    have hnothing {offer request : Power} : v.request? offer ≠ .ok (some request) := by
      rw [hnone]
      exact nofun
    have hleaves : v.unplugAt.le v.energy = true := hfinished
    refine ⟨fun offer => ⟨none, hnone offer⟩, fun offer => iff_of_true (hnone offer) hleaves,
      ⟨allowed, hallowed, ?_⟩, ?_, ?_, ?_⟩
    · intro offer hstays
      rw [hleaves] at hstays
      cases hstays
    · intro offer request hrequest
      exact absurd hrequest hnothing
    · intro offer offer' request request' _ hrequest
      exact absurd hrequest hnothing
    · intro offer offer' _ _
      rw [hnone, hnone]
  · rw [Bool.not_eq_true] at hfinished
    have hsome := request?_eq_of_allows hfinished hallowed
    refine ⟨fun offer => ⟨_, hsome offer⟩, request?_eq_ok_none_iff,
      ⟨allowed, hallowed, fun offer _ => hsome offer⟩, ?_, ?_, ?_⟩
    · intro offer request hrequest
      rw [hsome] at hrequest
      cases hrequest
      simp only [Power.watts_max, Power.watts_min]
      omega
    · intro offer offer' request request' hle hrequest hrequest'
      rw [hsome] at hrequest hrequest'
      cases hrequest
      cases hrequest'
      have hwatts : offer.watts ≤ offer'.watts := hle
      show max (min allowed.watts offer.watts) _ ≤ max (min allowed.watts offer'.watts) _
      omega
    · intro offer offer' hoffer hoffer'
      rw [hsome, hsome]
      -- both offers are at least what the curve allows
      have hall {p : Power} (hp : max v.model.curve.peak 5000 ≤ p.watts) :
          min allowed p = allowed := congrArg Power.mk (min_eq_left (by omega))
      rw [hall hoffer, hall hoffer']

/-! ### A vehicle to look at -/

/-- A vehicle with 50 kWh in a battery of 40 kWh, whose curve ends below zero. -/
def overfull : Vehicle where
  model := { sample.model with
    name := "Overfull"
    curve := ⟨[⟨.ofHundredths 0, ⟨11000⟩⟩, ⟨.ofHundredths 5000, ⟨60000⟩⟩,
      ⟨.ofHundredths 10000, ⟨-2000⟩⟩], by decide, by decide⟩
    spansFully := by decide }
  energy := ⟨50000⟩
  unplugAt := ⟨.infinity false⟩

/-- It counts as full and still asks for the least charge power, whatever it is offered. -/
theorem request?_defined_overfull :
    overfull.HasFiniteCharge ∧
      (∀ p ∈ overfull.model.curve.segments, |p.2.power.watts - p.1.power.watts| ≤ 2 ^ 39) ∧
      overfull.request? ⟨60000⟩ = .ok (some ⟨5000⟩) ∧
      overfull.request? ⟨1000000⟩ = overfull.request? ⟨60000⟩ := by
  have hcharge : overfull.HasFiniteCharge := by decide +kernel
  have hpower : ∀ p ∈ overfull.model.curve.segments,
      |p.2.power.watts - p.1.power.watts| ≤ 2 ^ 39 := by decide
  obtain ⟨-, -, -, -, -, hsame⟩ := request?_defined overfull hcharge hpower
  exact ⟨hcharge, hpower, by decide +kernel, hsame _ _ (by decide) (by decide)⟩

end Vehicle

end ChargingSite
