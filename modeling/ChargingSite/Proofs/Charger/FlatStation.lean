import ChargingSite.Proofs.Charger.Station
import Mathlib.Algebra.Order.BigOperators.Group.List

/-!
# Flat stations

Under a flat strategy a re-allocation offers every plug the same.  That is the share of the plug,
the grid connection divided by the number of plugs, and on a paired charger twice the share while
more than half of the plugs are free.  Whatever is offered, those who are plugged in get no more
together than all plugs would at one share each, a share counted as the least charge power if it is
less (`length_mul_max_flatOffer_le`).  Whoever is plugged in later has no power, so this holds at
all times (`Served.withinShares`), and the grid connection is overdrawn only where a share is less
than the least charge power (`WithinShares.keepsCeiling`).
-/

namespace ChargingSite

variable {n : ℕ}

/-- All plugs are offered the same. -/
def Strategy.IsFlat : Strategy → Prop
  | .exclusive | .paired _ | .split _ => True
  | .granular .. | .custom .. => False

instance (s : Strategy) : Decidable s.IsFlat := by
  cases s <;> unfold Strategy.IsFlat <;> infer_instance

/-- The share of one plug, cut off toward zero. -/
def Installation.share (i : Installation) : ℤ :=
  i.grid.watts.tdiv i.strategy.plugs

/-! ### Sums of allocations -/

theorem Power.watts_total (ps : List Power) : (total ps).watts = (ps.map watts).sum := by
  induction ps with
  | nil => rfl
  | cons p ps ih => rw [watts_total_cons, ih, List.map_cons, List.sum_cons]

theorem Charger.watts_allocated (c : Charger n) :
    c.allocated.watts = (c.occupants.map fun o => o.allocated.watts).sum := by
  rw [allocated, Power.watts_total, List.map_map]
  rfl

theorem Charger.watts_allocated_le {c : Charger n} {bound : ℤ}
    (h : ∀ o ∈ c.occupants, o.allocated.watts ≤ bound) :
    c.allocated.watts ≤ c.occupants.length * bound := by
  have hsum := List.sum_le_card_nsmul (c.occupants.map fun o => o.allocated.watts) bound
    (List.forall_mem_map.mpr h)
  rwa [List.length_map, nsmul_eq_mul, ← watts_allocated] at hsum

theorem Charger.watts_allocated_occupy (c : Charger n) (vehicle : Fin n) (id : ℤ) :
    (c.occupy vehicle id).allocated.watts = c.allocated.watts := by
  rw [watts_allocated, watts_allocated, occupy, List.map_append, List.sum_append]
  exact add_zero _

theorem allocated_le_of_visited_flat {fleet : Fleet n} {offer : Power} {os : List (Occupant n)}
    {vs : List (Visit n)} {u u' : Unit} (h : Visited (flatVisit fleet offer) u os vs u') :
    ∀ o ∈ staying vs, o.allocated.watts ≤ max offer.watts minimumCharge.watts := by
  refine h.forall_staying fun _ o v _ hvisit hstays => ?_
  obtain ⟨-, rfl⟩ | ⟨request, hrequest, rfl⟩ := flatVisit_eq_ok_iff.mp hvisit
  · cases hstays
  · exact Vehicle.request?_le_max hrequest

/-! ### Offers and shares -/

theorem flatOffer_eq_ok {c : Charger n} {offer : Power} (hflat : c.strategy.IsFlat)
    (h : c.flatOffer = .ok offer) :
    offer.watts = c.share ∨
      offer.watts = c.share * 2 ∧ 2 * (c.occupants.length : ℤ) < c.strategy.plugs := by
  unfold Charger.flatOffer at h
  unfold Installation.share
  cases hstrategy : c.strategy with
  | exclusive =>
    rw [hstrategy] at h
    cases h
    exact .inl (Int.tdiv_one _).symm
  | split plugs =>
    simp only [hstrategy, bind_eq_ok_iff, liftNumber_eq_ok_iff, pure_eq_ok_iff] at h
    obtain ⟨share, hshare, rfl⟩ := h
    obtain ⟨-, rfl⟩ := Power.divInt?_eq_ok_iff.mp hshare
    exact .inl rfl
  | paired plugs =>
    simp only [hstrategy, bind_eq_ok_iff, liftNumber_eq_ok_iff, pure_eq_ok_iff] at h
    obtain ⟨share, hshare, hoffer⟩ := h
    obtain ⟨-, rfl⟩ := Power.divInt?_eq_ok_iff.mp hshare
    -- the share is doubled while more than half of the plugs are free
    split_ifs at hoffer with hfree
    · subst hoffer
      refine .inr ⟨rfl, ?_⟩
      show _ < plugs
      omega
    · subst hoffer
      exact .inl rfl
  | granular => rw [hstrategy] at hflat; cases hflat
  | custom => rw [hstrategy] at hflat; cases hflat

/-- **Offers are paid for by shares**: what the occupants can get of a flat offer is no more than
one share for every plug, where a share is at least the least charge power. -/
theorem length_mul_max_flatOffer_le {c : Charger n} {offer : Power} (hflat : c.strategy.IsFlat)
    (hfits : (c.occupants.length : ℤ) ≤ c.strategy.plugs) (h : c.flatOffer = .ok offer) :
    c.occupants.length * max offer.watts minimumCharge.watts ≤
      c.strategy.plugs * max c.share minimumCharge.watts := by
  have hmin : minimumCharge.watts = 5000 := rfl
  rcases flatOffer_eq_ok hflat h with hshare | ⟨hdouble, hhalf⟩
  · -- there is a share for every plug, and not more occupants than plugs
    rw [hshare]
    exact mul_le_mul_of_nonneg_right hfits (by omega)
  · -- twice as much is paid for, as less than half of the plugs are taken
    have hbound : max offer.watts minimumCharge.watts ≤ 2 * max c.share minimumCharge.watts := by
      omega
    calc (c.occupants.length : ℤ) * max offer.watts minimumCharge.watts
        ≤ c.occupants.length * (2 * max c.share minimumCharge.watts) :=
          mul_le_mul_of_nonneg_left hbound (Int.natCast_nonneg _)
      _ = 2 * c.occupants.length * max c.share minimumCharge.watts := by ring
      _ ≤ c.strategy.plugs * max c.share minimumCharge.watts :=
          mul_le_mul_of_nonneg_right hhalf.le (by omega)

/-! ### All times -/

/-- What holds of a flat charger at all times: nobody is without a plug, and the allocations are
paid for by the shares. -/
structure WithinShares (c : Charger n) : Prop where
  length_le : (c.occupants.length : ℤ) ≤ c.strategy.plugs
  allocated_le : c.allocated.watts ≤ c.strategy.plugs * max c.share minimumCharge.watts

theorem withinShares_idle {i : Installation} (hplugs : 1 ≤ i.strategy.plugs) :
    WithinShares (.idle i : Charger n) := by
  have hshare : 0 ≤ max i.share minimumCharge.watts := le_max_of_le_right (by decide)
  have hplugs : 0 ≤ i.strategy.plugs := by omega
  exact ⟨hplugs, mul_nonneg hplugs hshare⟩

theorem WithinShares.occupy {c : Charger n} (hc : WithinShares c) (hfree : c.hasFreePlug = true)
    (vehicle : Fin n) (id : ℤ) : WithinShares (c.occupy vehicle id) where
  length_le := by
    rw [Charger.hasFreePlug, decide_eq_true_eq] at hfree
    show ((c.occupants ++ [_]).length : ℤ) ≤ c.strategy.plugs
    rw [List.length_append, List.length_singleton]
    omega
  allocated_le := by
    rw [Charger.watts_allocated_occupy]
    exact hc.allocated_le

theorem WithinShares.reallocated {fleet : Fleet n} {c : Charger n} {vs : List (Visit n)}
    (hc : WithinShares c) (hflat : c.strategy.IsFlat) (h : Reallocated fleet c vs) :
    WithinShares { c with occupants := staying vs } := by
  have hkept := length_staying_le h.forall₂
  refine ⟨(Nat.cast_le.mpr hkept).trans hc.length_le, ?_⟩
  cases h with
  | @flat offer _ hoffer hvisited =>
    -- the granted powers are bounded by the occupants that there were before anybody left
    have hpositive : 0 ≤ max offer.watts minimumCharge.watts := le_max_of_le_right (by decide)
    calc (Charger.mk c.toInstallation (staying vs)).allocated.watts
        ≤ (staying vs).length * max offer.watts minimumCharge.watts :=
          Charger.watts_allocated_le (allocated_le_of_visited_flat hvisited)
      _ ≤ c.occupants.length * max offer.watts minimumCharge.watts :=
          mul_le_mul_of_nonneg_right (Nat.cast_le.mpr hkept) hpositive
      _ ≤ c.strategy.plugs * max c.share minimumCharge.watts :=
          length_mul_max_flatOffer_le hflat hc.length_le hoffer
  | granular hstrategy =>
    rw [hstrategy] at hflat
    cases hflat

/-- **The allocations are paid for by the shares** at every served flat station. -/
theorem Served.withinShares {i : Installation} {calls : List (Call n)} {t : Station n}
    (hflat : i.strategy.IsFlat) (hplugs : 1 ≤ i.strategy.plugs) (h : Served i calls t) :
    t.charger.toInstallation = i ∧ WithinShares t.charger := by
  refine h.invariant (withinShares_idle hplugs) ?occupy ?reallocate
  case occupy =>
    intro c vehicle id _ hfree hc
    exact hc.occupy hfree vehicle id
  case reallocate =>
    rintro c fleet vs rfl hvs hc
    exact hc.reallocated hflat hvs

/-! ### The grid ceiling -/

/-- All shares together are within the grid connection, unless there is nothing to share. -/
theorem plugs_mul_share_le {i : Installation} (hplugs : 1 ≤ i.strategy.plugs)
    (hshare : 0 < i.share) : i.strategy.plugs * i.share ≤ i.grid.watts := by
  refine Int.mul_tdiv_self_le ?_
  by_contra hnegative
  have hle := Int.tdiv_le_tdiv (c := i.strategy.plugs) (by omega) (not_le.mp hnegative).le
  rw [Int.zero_tdiv] at hle
  exact absurd hshare (not_lt.mpr hle)

/-- The watts granted at an installation are within the grid connection, or else within the least
charge power of all plugs, and they overdraw the grid connection only where the share of a plug is
less than the least charge power. -/
structure Installation.KeepsCeiling (i : Installation) (granted : ℤ) : Prop where
  le_max : granted ≤ max i.grid.watts (i.strategy.plugs * minimumCharge.watts)
  share_lt : i.grid.watts < granted → i.share < minimumCharge.watts

/-- **Allocations paid for by the shares** keep to the grid ceiling. -/
theorem WithinShares.keepsCeiling {c : Charger n} (hc : WithinShares c)
    (hplugs : 1 ≤ c.strategy.plugs) : c.KeepsCeiling c.allocated.watts := by
  have hmin : minimumCharge.watts = 5000 := rfl
  have hle := hc.allocated_le
  rcases lt_or_ge c.share minimumCharge.watts with hsmall | hlarge
  · rw [max_eq_right hsmall.le] at hle
    exact ⟨le_max_of_le_right hle, fun _ => hsmall⟩
  · -- every plug can have its share
    have hgrid := plugs_mul_share_le (i := c.toInstallation) hplugs (by omega)
    rw [max_eq_left hlarge] at hle
    have htotal := hle.trans hgrid
    exact ⟨le_max_of_le_left htotal, fun hover => absurd htotal (not_le.mpr hover)⟩

end ChargingSite
