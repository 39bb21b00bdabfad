import ChargingSite.Proofs.Charger.Granular

/-!
# One re-allocation

A re-allocation that succeeds consists of visits to all occupants, under the rule of the charger's
strategy (`Reallocated`), and keeps those who stay (`reallocated_of_reallocate`).  Whatever the
strategy, those who leave are those whose vehicles have finished, and the others keep their places
(`Charger.PartsWithFinished`, `partsWithFinished_of_reallocate`).  Under a flat strategy everybody
who stays is powered (`isPowered_of_visited_flat`).
-/

namespace ChargingSite

variable {n : ℕ}

/-- The visits of a re-allocation that succeeds. -/
inductive Reallocated (fleet : Fleet n) (c : Charger n) : List (Visit n) → Prop
  /-- Flat visits, all with the same offer. -/
  | flat {offer : Power} {vs : List (Visit n)} (hoffer : c.flatOffer = .ok offer)
      (hvisited : Visited (flatVisit fleet offer) () c.occupants vs ()) : Reallocated fleet c vs
  /-- Granular visits, which start with the steps in use. -/
  | granular {plugs : ℤ} {stepKw capKw : Binary64} {step cap : Power} {last : ℤ}
      {vs : List (Visit n)} (hstrategy : c.strategy = .granular plugs stepKw capKw)
      (hstep : Power.ofKilowatts? stepKw = .ok step) (hcap : Power.ofKilowatts? capKw = .ok cap)
      (hvisited : Visited (granularVisit fleet (c.grid.watts / step.watts) step cap)
        (stepsInUse step c.occupants) c.occupants vs last) : Reallocated fleet c vs

variable {fleet : Fleet n} {c c' : Charger n} {departed : List ℤ} {vs : List (Visit n)}

theorem exists_visited_of_sweep {σ : Type}
    {visit : σ → Occupant n → Except SiteError (Visit n × σ)} {carried : σ}
    (h : (let (occupants, result) := (sweep visit carried c.occupants).settle
      (({ c with occupants }, result) : Charger n × Except SiteError (List ℤ))) =
        (c', .ok departed)) :
    ∃ vs last, Visited visit carried c.occupants vs last ∧
      c' = { c with occupants := staying vs } ∧
      departed = (vs.filter Visit.leaving).map fun v => v.occupant.id := by
  cases hsettle : (sweep visit carried c.occupants).settle with
  | mk kept result =>
    rw [hsettle] at h
    obtain ⟨rfl, rfl⟩ := Prod.mk.inj h
    obtain ⟨vs, last, hvisited, rfl, rfl⟩ := visited_of_settle hsettle
    exact ⟨vs, last, hvisited, rfl, rfl⟩

/-- **A re-allocation that succeeds** visits all occupants and keeps those who stay. -/
theorem reallocated_of_reallocate (h : c.reallocate fleet = (c', .ok departed)) :
    ∃ vs, Reallocated fleet c vs ∧ c' = { c with occupants := staying vs } ∧
      departed = (vs.filter Visit.leaving).map fun v => v.occupant.id := by
  unfold Charger.reallocate at h
  split at h
  -- the granular strategy, whose step and cap are read first
  · next plugs stepKw capKw hstrategy =>
    split at h
    · next step cap hstep hcap =>
      obtain ⟨vs, last, hvisited, hc', hdeparted⟩ := exists_visited_of_sweep h
      exact ⟨vs, .granular hstrategy hstep hcap hvisited, hc', hdeparted⟩
    · cases h
    · cases h
  · split at h
    · next offer hoffer =>
      obtain ⟨vs, last, hvisited, hc', hdeparted⟩ := exists_visited_of_sweep h
      exact ⟨vs, .flat hoffer hvisited, hc', hdeparted⟩
    · cases h

theorem flatOffer_ne_ok {plugs : ℤ} {stepKw capKw : Binary64} {offer : Power}
    (hc : c.strategy = .granular plugs stepKw capKw) : c.flatOffer ≠ .ok offer := by
  intro hoffer
  rw [Charger.flatOffer, hc] at hoffer
  obtain ⟨_, -, hnone⟩ := bind_eq_ok_iff.mp hoffer
  cases hnone

/-- **Visits to all occupants** are a re-allocation that succeeds. -/
theorem Reallocated.reallocate_eq (h : Reallocated fleet c vs) :
    c.reallocate fleet = ({ c with occupants := staying vs },
      .ok ((vs.filter Visit.leaving).map fun v => v.occupant.id)) := by
  unfold Charger.reallocate
  cases h with
  | flat hoffer hvisited =>
    split
    · next hstrategy => exact absurd hoffer (flatOffer_ne_ok hstrategy)
    · rw [hoffer]
      show c.reallocateFlat fleet _ = _
      rw [Charger.reallocateFlat, settle_of_visited hvisited]
  | granular hstrategy hstep hcap hvisited =>
    simp only [hstrategy, hstep, hcap, Charger.reallocateGranular, settle_of_visited hvisited]

theorem toInstallation_reallocate (fleet : Fleet n) (c : Charger n) :
    (c.reallocate fleet).1.toInstallation = c.toInstallation := by
  unfold Charger.reallocate
  split
  · split <;> rfl
  · split <;> rfl

/-! ### Whatever the strategy -/

theorem Reallocated.forall₂ (h : Reallocated fleet c vs) :
    List.Forall₂ (fun o v => v.Of fleet o) c.occupants vs := by
  cases h with
  | flat _ hvisited => exact hvisited.forall₂ fun _ _ _ _ => of_flatVisit
  | granular _ _ _ hvisited => exact hvisited.forall₂ fun _ _ _ _ => of_granularVisit

/-- Number and vehicle of an occupant, which it keeps. -/
def Occupant.entry (o : Occupant n) : ℤ × Fin n :=
  (o.id, o.vehicle)

theorem Occupant.vehicleIn_congr {o o' : Occupant n} (h : o.vehicle = o'.vehicle) :
    o.vehicleIn fleet = o'.vehicleIn fleet :=
  congrArg fleet.get h

/-- What visits make of their occupants holds of those who stay, one by one, and those are the
occupants whose vehicles have not finished. -/
theorem forall₂_staying {R : Occupant n → Occupant n → Prop} {os : List (Occupant n)}
    (h : List.Forall₂
      (fun o v => v.leaving = (o.vehicleIn fleet).isFinished ∧ R o v.occupant) os vs) :
    List.Forall₂ R (os.filter fun o => !(o.vehicleIn fleet).isFinished) (staying vs) := by
  rw [staying, List.forall₂_map_right_iff]
  refine (List.rel_filter ?_ h).imp fun o v hov => hov.2
  intro o v hov
  simp [hov.1]

theorem entries_staying {os : List (Occupant n)}
    (h : List.Forall₂ (fun o v => v.Of fleet o) os vs) :
    (staying vs).map Occupant.entry =
      (os.filter fun o => !(o.vehicleIn fleet).isFinished).map Occupant.entry := by
  have hkept : List.Forall₂ (fun o kept : Occupant n => o.entry = kept.entry)
      (os.filter fun o => !(o.vehicleIn fleet).isFinished) (staying vs) :=
    forall₂_staying (h.imp fun o v hof =>
      ⟨hof.leaving_eq, Prod.ext hof.id_eq.symm hof.vehicle_eq.symm⟩)
  exact (map_eq_map_of_forall₂ hkept fun _ _ heq => heq).symm

theorem staying_sublist {os : List (Occupant n)}
    (h : List.Forall₂ (fun o v => v.Of fleet o) os vs) :
    ((staying vs).map Occupant.entry).Sublist (os.map Occupant.entry) := by
  rw [entries_staying h]
  exact List.filter_sublist.map _

theorem ids_leaving {os : List (Occupant n)} (h : List.Forall₂ (fun o v => v.Of fleet o) os vs) :
    ((vs.filter Visit.leaving).map fun v => v.occupant.id) =
      (os.filter fun o => (o.vehicleIn fleet).isFinished).map Occupant.id := by
  have hleaving : List.Forall₂ (fun o v => v.Of fleet o)
      (os.filter fun o => (o.vehicleIn fleet).isFinished) (vs.filter Visit.leaving) := by
    refine List.rel_filter ?_ h
    intro o v hof
    simp [hof.leaving_eq]
  exact (map_eq_map_of_forall₂ hleaving fun _ _ hof => hof.id_eq.symm).symm

/-- The charger after a re-allocation, and the numbers of those who left: in plug-in order, those
whose vehicles had finished have left, and all others are still plugged in. -/
structure Charger.PartsWithFinished (fleet : Fleet n) (c c' : Charger n) (departed : List ℤ) :
    Prop where
  departed_eq :
    departed = (c.occupants.filter fun o => (o.vehicleIn fleet).isFinished).map Occupant.id
  kept_eq : c'.occupants.map Occupant.entry =
    (c.occupants.filter fun o => !(o.vehicleIn fleet).isFinished).map Occupant.entry

/-- **Exactly the finished leave**, whatever the strategy. -/
theorem partsWithFinished_of_reallocate (h : c.reallocate fleet = (c', .ok departed)) :
    c.PartsWithFinished fleet c' departed := by
  obtain ⟨vs, hvs, rfl, rfl⟩ := reallocated_of_reallocate h
  exact ⟨ids_leaving hvs.forall₂, entries_staying hvs.forall₂⟩

theorem length_staying_le {os : List (Occupant n)}
    (h : List.Forall₂ (fun o v => v.Of fleet o) os vs) : (staying vs).length ≤ os.length := by
  have hlength := (staying_sublist h).length_le
  rwa [List.length_map, List.length_map] at hlength

/-- Those who are kept were there before, their vehicles have not finished, and they have a state of
charge. -/
theorem Reallocated.exists_of_mem_staying (h : Reallocated fleet c vs) {kept : Occupant n}
    (hkept : kept ∈ staying vs) :
    ∃ o ∈ c.occupants, kept.entry = o.entry ∧ (o.vehicleIn fleet).isFinished = false ∧
      ∃ soc, (o.vehicleIn fleet).soc? = .ok soc := by
  obtain ⟨v, hv, hstays, rfl⟩ := exists_visit_of_mem_staying hkept
  obtain ⟨o, ho, hof⟩ := exists_left_of_forall₂ h.forall₂ hv
  exact ⟨o, ho, Prod.ext hof.id_eq hof.vehicle_eq, hof.leaving_eq ▸ hstays, hof.hasSoc hstays⟩

theorem Reallocated.isFinished_or_kept (h : Reallocated fleet c vs) {o : Occupant n}
    (ho : o ∈ c.occupants) :
    (o.vehicleIn fleet).isFinished = true ∨ ∃ kept ∈ staying vs, kept.entry = o.entry := by
  obtain ⟨v, hv, hof⟩ := exists_right_of_forall₂ h.forall₂ ho
  cases hleaving : v.leaving with
  | true =>
    -- the visit let go of it, as it was finished
    exact .inl (hof.leaving_eq ▸ hleaving)
  | false =>
    -- the visit left it at its plug
    refine .inr ⟨v.occupant, ?_, Prod.ext hof.id_eq hof.vehicle_eq⟩
    refine List.mem_map_of_mem (List.mem_filter.mpr ⟨hv, ?_⟩)
    rw [hleaving, Bool.not_false]

/-! ### Flat strategies -/

/-- Whoever stays under a flat strategy is powered. -/
theorem isPowered_of_visited_flat {offer : Power} {os : List (Occupant n)} {u u' : Unit}
    (h : Visited (flatVisit fleet offer) u os vs u') :
    ∀ o ∈ staying vs, o.IsPowered := by
  refine h.forall_staying fun _ o v _ hvisit hstays => ?_
  obtain ⟨-, rfl⟩ | ⟨request, hrequest, rfl⟩ := flatVisit_eq_ok_iff.mp hvisit
  · cases hstays
  · exact Vehicle.minimumCharge_le_of_request? hrequest

end ChargingSite
