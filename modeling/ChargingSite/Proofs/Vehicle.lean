import ChargingSite.Vehicle
import ChargingSite.Proofs.Error
import ChargingSite.Proofs.Quantity.Percentage
import Mathlib.Order.MinMax
import Mathlib.Tactic.SplitIfs

/-!
# Requests and charges

More stored energy never means a lower state of charge (`socOf?_mono`).  A vehicle answers an offer
with nothing exactly if it has finished (`request?_eq_ok_none_iff`), and otherwise with what its
curve allows (`Vehicle.Allows`) of the offer, lifted to the least charge power
(`request?_eq_ok_some_iff`).  Whether it can answer does not depend on the offer
(`request?_eq_error`).  Charging adds energy and changes nothing else (`charge?_eq_ok_iff`).
-/

namespace ChargingSite.Vehicle

variable {v v' : Vehicle} {offer request p : Power} {d : Duration} {added : Energy} {e : SiteError}

/-! ### State of charge -/

/-- Only the model matters for the state of charge at which an energy is stored. -/
theorem socOf?_congr (h : v'.model = v.model) (a : Energy) : v'.socOf? a = v.socOf? a := by
  rw [socOf?, socOf?, h]

/-- **More stored energy is no lower a state of charge.** -/
theorem socOf?_mono {a b : Energy} {p q : Percentage} (hab : a.le b = true)
    (hp : v.socOf? a = .ok p) (hq : v.socOf? b = .ok q) : p ≤ q := by
  unfold socOf? at hp hq
  by_cases ha : a.le emptyBelow = true
  · -- an empty battery is at 0 %
    rw [if_pos ha] at hp
    cases hp
    exact Nat.zero_le q.hundredths
  · -- then the greater energy is not that of an empty battery either
    have hb : b.le emptyBelow ≠ true := fun hb => ha (Binary64.le_trans hab hb)
    rw [if_neg ha] at hp
    rw [if_neg hb] at hq
    have hfinite {x : Binary64} {r : Percentage} (h : Percentage.ofFraction? x = .ok r) :
        x.isFinite = true :=
      Binary64.isFinite_left_of_mul
        (Binary64.isFinite_left_of_mul (Percentage.ofPercent?_eq_ok_iff.mp h).1)
    have hquotients := Binary64.div_le_div_right hab v.model.capacity_not_le_zero (hfinite hp)
      (hfinite hq)
    exact Percentage.ofFraction?_mono hquotients hp hq

/-! ### Requests -/

/-- The curve allows the vehicle this power at its state of charge. -/
def Allows (v : Vehicle) (allowed : Power) : Prop :=
  ∃ soc, v.soc? = .ok soc ∧ v.model.curve.powerAt? soc = .ok allowed

theorem request?_eq_ok_none_iff (offer : Power) :
    v.request? offer = .ok none ↔ v.isFinished = true := by
  unfold request?
  split_ifs with h
  · simp [h]
  · simp only [h, bind_eq_ok_iff, pure_eq_ok_iff, reduceCtorEq, and_false, exists_false,
      Bool.false_eq_true]

theorem request?_eq_ok_some_iff :
    v.request? offer = .ok (some request) ↔ v.isFinished = false ∧
      ∃ allowed, v.Allows allowed ∧ request = max (min allowed offer) minimumCharge := by
  unfold request?
  split_ifs with h
  · simp [h]
  · simp only [h, bind_eq_ok_iff, liftNumber_eq_ok_iff, pure_eq_ok_iff, Option.some.injEq]
    constructor
    · rintro ⟨soc, hsoc, allowed, hallowed, hrequest⟩
      exact ⟨trivial, allowed, ⟨soc, hsoc, hallowed⟩, hrequest.symm⟩
    · rintro ⟨-, allowed, ⟨soc, hsoc, hallowed⟩, hrequest⟩
      exact ⟨soc, hsoc, allowed, hallowed, hrequest.symm⟩

/-- A vehicle that cannot answer one offer cannot answer any. -/
theorem request?_eq_error (h : v.request? offer = .error e) (other : Power) :
    v.request? other = .error e := by
  unfold request? at h ⊢
  by_cases hfinished : v.isFinished = true
  · rw [if_pos hfinished] at h
    cases h
  · rw [if_neg hfinished] at h ⊢
    -- the offer matters only once the state of charge and the curve's power are known
    rcases bind_eq_error_iff.mp h with hsoc | ⟨soc, hsoc, h⟩
    · exact bind_eq_error_iff.mpr (.inl hsoc)
    · refine bind_eq_error_iff.mpr (.inr ⟨soc, hsoc, ?_⟩)
      rcases bind_eq_error_iff.mp h with hpower | ⟨_, -, h⟩
      · exact bind_eq_error_iff.mpr (.inl hpower)
      · cases h

/-- Every request is lifted to the least charge power. -/
theorem minimumCharge_le_of_request? (h : v.request? offer = .ok (some request)) :
    minimumCharge.watts ≤ request.watts := by
  obtain ⟨-, _, -, rfl⟩ := request?_eq_ok_some_iff.mp h
  exact le_max_right _ _

theorem request?_le_max (h : v.request? offer = .ok (some request)) :
    request.watts ≤ max offer.watts minimumCharge.watts := by
  obtain ⟨-, _, -, rfl⟩ := request?_eq_ok_some_iff.mp h
  exact max_le_max_right _ (min_le_right _ _)

/-- No request is above what the curve allows, the least charge power apart. -/
theorem request?_le_allowed (h : v.request? offer = .ok (some request)) :
    ∃ allowed, v.Allows allowed ∧ request.watts ≤ max allowed.watts minimumCharge.watts := by
  obtain ⟨-, allowed, hallowed, rfl⟩ := request?_eq_ok_some_iff.mp h
  exact ⟨allowed, hallowed, max_le_max_right _ (min_le_left _ _)⟩

/-- **What an offer is answered with** depends on what the greatest offer is answered with: as much
of that as is offered, lifted to the least charge power. -/
theorem request?_of_le {most goal : Power} (h : v.request? most = .ok (some goal))
    (hoffer : offer.watts ≤ max most.watts minimumCharge.watts) :
    v.request? offer = .ok (some (max (min goal offer) minimumCharge)) := by
  obtain ⟨hstays, allowed, hallowed, rfl⟩ := request?_eq_ok_some_iff.mp h
  refine request?_eq_ok_some_iff.mpr ⟨hstays, allowed, hallowed, congrArg Power.mk ?_⟩
  simp only [Power.watts_max, Power.watts_min]
  omega

/-! ### Charges -/

theorem charge?_eq_ok_iff :
    v.charge? p d = .ok (v', added) ↔ 0 ≤ p.watts ∧ p.over? d = .ok added ∧
      v' = { v with energy := v.energy + added } := by
  unfold charge?
  split_ifs with h
  · simp [bind_eq_ok_iff, not_le.mpr h]
  · simp only [bind_eq_ok_iff, liftNumber_eq_ok_iff, pure_eq_ok_iff, Prod.mk.injEq]
    constructor
    · rintro ⟨_, hadded, rfl, rfl⟩
      exact ⟨not_lt.mp h, hadded, rfl⟩
    · rintro ⟨-, hadded, rfl⟩
      exact ⟨added, hadded, rfl, rfl⟩

/-! ### A vehicle to look at -/

/-- A vehicle with 20 kWh in a battery of 40 kWh that comes for 21 kWh and takes 11 kW
throughout. -/
def sample : Vehicle where
  model := {
    name := "Sample"
    capacity := ⟨40000⟩
    curve := ⟨[⟨.ofHundredths 0, ⟨11000⟩⟩, ⟨.ofHundredths 10000, ⟨11000⟩⟩], by decide, by decide⟩
    spansFully := by decide
    capacity_not_le_zero := by decide +kernel }
  energy := ⟨20000⟩
  unplugAt := ⟨21000⟩

end ChargingSite.Vehicle
