import ChargingSite.Charger.Allocation
import ChargingSite.Proofs.Strategy
import ChargingSite.Proofs.Vehicle

/-!
# Visits in a row

A sweep makes visits in a row (`Visited`) until it ends or a visit fails (`visited_sweep`), and
what it leaves on the plugs are the occupants that stay, or, after a failure, everybody
(`visited_of_settle`).  A flat visit lets a vehicle leave or grants its request
(`flatVisit_eq_ok_iff`); a granular visit may also refuse, and carries on the steps in use
accordingly (`granularVisit_eq_ok_iff`).  Everything about a re-allocation is shown visit by visit
along `Visited`.
-/

namespace ChargingSite

variable {σ : Type} {n : ℕ}

/-! ### Sweeps as visits in a row -/

/-- Visits to all the given occupants in a row, none of which fails: what is carried before, the
occupants, the visits, and what is carried after. -/
inductive Visited (visit : σ → Occupant n → Except SiteError (Visit n × σ)) :
    σ → List (Occupant n) → List (Visit n) → σ → Prop
  /-- Nobody is visited. -/
  | done (carried : σ) : Visited visit carried [] [] carried
  /-- One is visited, and then the others. -/
  | next {before after last : σ} {o : Occupant n} {v : Visit n} {os : List (Occupant n)}
      {vs : List (Visit n)} (head : visit before o = .ok (v, after))
      (tail : Visited visit after os vs last) : Visited visit before (o :: os) (v :: vs) last

/-- The occupants that are still on their plugs after the given visits. -/
def staying (visits : List (Visit n)) : List (Occupant n) :=
  (visits.filter fun v => !v.leaving).map Visit.occupant

@[simp] theorem staying_nil : staying ([] : List (Visit n)) = [] := rfl

@[simp] theorem staying_cons (v : Visit n) (vs : List (Visit n)) :
    staying (v :: vs) = if v.leaving then staying vs else v.occupant :: staying vs := by
  rw [staying, List.filter_cons]
  cases v.leaving <;> rfl

theorem staying_append (vs vs' : List (Visit n)) :
    staying (vs ++ vs') = staying vs ++ staying vs' := by
  rw [staying, List.filter_append, List.map_append, staying, staying]

theorem exists_visit_of_mem_staying {o : Occupant n} {vs : List (Visit n)}
    (h : o ∈ staying vs) : ∃ v ∈ vs, v.leaving = false ∧ v.occupant = o := by
  obtain ⟨v, hv, rfl⟩ := List.mem_map.mp h
  obtain ⟨hmem, hstays⟩ := List.mem_filter.mp hv
  exact ⟨v, hmem, Bool.not_eq_true' _ |>.mp hstays, rfl⟩

/-- What holds of each visited occupant that stays holds of those who are left. -/
theorem forall_staying_of_forall₂ {P : Occupant n → Prop} {os : List (Occupant n)}
    {vs : List (Visit n)}
    (h : List.Forall₂ (fun _ v => v.leaving = false → P v.occupant) os vs) :
    ∀ o ∈ staying vs, P o := by
  intro o hmem
  obtain ⟨v, hv, hstays, rfl⟩ := exists_visit_of_mem_staying hmem
  obtain ⟨-, -, hP⟩ := exists_left_of_forall₂ h hv
  exact hP hstays

/-- If nobody leaves, everybody stays. -/
theorem staying_eq_map {vs : List (Visit n)} (h : ∀ v ∈ vs, v.leaving = false) :
    staying vs = vs.map Visit.occupant := by
  rw [staying, List.filter_eq_self.mpr]
  intro v hv
  rw [h v hv, Bool.not_false]

variable {visit : σ → Occupant n → Except SiteError (Visit n × σ)}

/-- **A sweep visits in a row** all occupants, or those before the first whose visit fails. -/
theorem visited_sweep (visit : σ → Occupant n → Except SiteError (Visit n × σ)) (carried : σ)
    (os : List (Occupant n)) :
    ∃ visited, os = visited ++ (sweep visit carried os).unvisited ∧
      Visited visit carried visited (sweep visit carried os).visits
        (sweep visit carried os).carried := by
  induction os generalizing carried with
  | nil => exact ⟨[], rfl, .done carried⟩
  | cons o rest ih =>
    rw [sweep]
    cases hvisit : visit carried o with
    | error e =>
      -- the sweep ends here, with everybody from `o` on unvisited
      exact ⟨[], rfl, .done carried⟩
    | ok made =>
      -- the sweep goes on with what this visit carries on
      obtain ⟨v, after⟩ := made
      obtain ⟨visited, hsplit, hvisited⟩ := ih after
      exact ⟨o :: visited, congrArg (o :: ·) hsplit, .next hvisit hvisited⟩

theorem unvisited_eq_nil {carried : σ} {os : List (Occupant n)}
    (h : (sweep visit carried os).failure = none) : (sweep visit carried os).unvisited = [] := by
  induction os generalizing carried with
  | nil => rfl
  | cons o rest ih =>
    rw [sweep] at h ⊢
    cases hvisit : visit carried o with
    | error e => rw [hvisit] at h; cases h
    | ok made =>
      rw [hvisit] at h
      exact ih h

/-- A sweep that fails has a first occupant that was not visited: the one whose visit failed. -/
theorem exists_unvisited_of_failure {carried : σ} {os : List (Occupant n)} {e : SiteError}
    (h : (sweep visit carried os).failure = some e) :
    ∃ o behind, (sweep visit carried os).unvisited = o :: behind ∧
      visit (sweep visit carried os).carried o = .error e := by
  induction os generalizing carried with
  | nil => cases h
  | cons o rest ih =>
    rw [sweep] at h ⊢
    -- the sweep stops here, with this occupant in front of the rest
    cases hvisit : visit carried o with
    | error cause =>
      rw [hvisit] at h
      cases h
      exact ⟨o, rest, rfl, hvisit⟩
    | ok made =>
      rw [hvisit] at h
      exact ih h

/-- A sweep that settles well has visited everybody and keeps those who stay. -/
theorem visited_of_settle {carried : σ} {os kept : List (Occupant n)} {departed : List ℤ}
    (h : (sweep visit carried os).settle = (kept, .ok departed)) :
    ∃ vs last, Visited visit carried os vs last ∧ kept = staying vs ∧
      departed = (vs.filter Visit.leaving).map fun v => v.occupant.id := by
  obtain ⟨visited, hsplit, hvisited⟩ := visited_sweep visit carried os
  unfold Sweep.settle at h
  cases hfailure : (sweep visit carried os).failure with
  | some e => rw [hfailure] at h; cases h
  | none =>
    -- nobody is unvisited, so the visits made are visits to all occupants
    rw [hfailure] at h
    rw [unvisited_eq_nil hfailure, List.append_nil] at hsplit
    rw [← hsplit] at hvisited
    cases h
    exact ⟨_, _, hvisited, rfl, rfl⟩

/-- Visits in a row are the sweep's own, and none of them fails. -/
theorem sweep_of_visited {carried last : σ} {os : List (Occupant n)} {vs : List (Visit n)}
    (h : Visited visit carried os vs last) : sweep visit carried os = ⟨vs, [], last, none⟩ := by
  induction h with
  | done => rfl
  | next head _ ih =>
    rw [sweep, head]
    show ({ sweep visit _ _ with visits := _ } : Sweep σ n) = _
    rw [ih]

/-- If no visit can fail, all occupants are visited. -/
theorem exists_visited {os : List (Occupant n)}
    (h : ∀ o ∈ os, ∀ c, ∃ v c', visit c o = .ok (v, c')) (carried : σ) :
    ∃ vs last, Visited visit carried os vs last := by
  induction os generalizing carried with
  | nil => exact ⟨[], carried, .done carried⟩
  | cons o os ih =>
    obtain ⟨hfirst, hothers⟩ := List.forall_mem_cons.mp h
    obtain ⟨v, after, head⟩ := hfirst carried
    obtain ⟨vs, last, tail⟩ := ih hothers after
    exact ⟨v :: vs, last, .next head tail⟩

theorem settle_of_visited {carried last : σ} {os : List (Occupant n)} {vs : List (Visit n)}
    (h : Visited visit carried os vs last) : (sweep visit carried os).settle =
      (staying vs, .ok ((vs.filter Visit.leaving).map fun v => v.occupant.id)) := by
  rw [sweep_of_visited h]
  rfl

theorem mem_settle {w : Sweep σ n} {o : Occupant n} (h : o ∈ w.settle.1) :
    (∃ v ∈ w.visits, v.occupant = o) ∨ o ∈ w.unvisited := by
  unfold Sweep.settle at h
  cases hfailure : w.failure with
  | some e =>
    -- after a failure nobody leaves, neither those visited nor the others
    rw [hfailure] at h
    rcases List.mem_append.mp h with hvisit | hunvisited
    · left
      exact List.mem_map.mp hvisit
    · right
      exact hunvisited
  | none =>
    rw [hfailure] at h
    obtain ⟨v, hv, -, hocc⟩ := exists_visit_of_mem_staying h
    exact .inl ⟨v, hv, hocc⟩

/-! ### What all visits have in common -/

/-- A visit to an occupant, whatever the strategy: it is the occupant's, and the occupant leaves
exactly if its vehicle has finished.  One who stays has a state of charge. -/
structure Visit.Of (fleet : Fleet n) (o : Occupant n) (v : Visit n) : Prop where
  id_eq : v.occupant.id = o.id
  vehicle_eq : v.occupant.vehicle = o.vehicle
  leaving_eq : v.leaving = (o.vehicleIn fleet).isFinished
  hasSoc : v.leaving = false → ∃ soc, (o.vehicleIn fleet).soc? = .ok soc

/-- What each visit says about its occupant holds of visits in a row, one by one. -/
theorem Visited.forall₂ {R : Occupant n → Visit n → Prop} {before after : σ}
    {os : List (Occupant n)} {vs : List (Visit n)} (h : Visited visit before os vs after)
    (hvisit : ∀ c o v c', visit c o = .ok (v, c') → R o v) : List.Forall₂ R os vs := by
  induction h with
  | done => exact .nil
  | next head _ ih => exact .cons (hvisit _ _ _ _ head) ih

/-- What every visit makes of an occupant that stays holds of those who are left. -/
theorem Visited.forall_staying {P : Occupant n → Prop} {before after : σ} {os : List (Occupant n)}
    {vs : List (Visit n)} (h : Visited visit before os vs after)
    (hvisit : ∀ c o v c', visit c o = .ok (v, c') → v.leaving = false → P v.occupant) :
    ∀ o ∈ staying vs, P o := by
  have hvisits : List.Forall₂ (fun _ v => v.leaving = false → P v.occupant) os vs :=
    h.forall₂ hvisit
  exact forall_staying_of_forall₂ hvisits

theorem Visited.exists_of_mem {before after : σ} {os : List (Occupant n)} {vs : List (Visit n)}
    (h : Visited visit before os vs after) {v : Visit n} (hv : v ∈ vs) :
    ∃ o ∈ os, ∃ c c', visit c o = .ok (v, c') := by
  have hvisits : List.Forall₂ (fun o v => ∃ c c', visit c o = .ok (v, c')) os vs :=
    h.forall₂ fun c _ _ c' hvisit => ⟨c, c', hvisit⟩
  exact exists_left_of_forall₂ hvisits hv

theorem Visited.exists_singleton {before after : σ} {o : Occupant n} {vs : List (Visit n)}
    (h : Visited visit before [o] vs after) : ∃ v, vs = [v] ∧ visit before o = .ok (v, after) := by
  cases h with
  | next head tail =>
    cases tail
    exact ⟨_, rfl, head⟩

/-! ### Flat visits -/

/-- **Flat visits**: a vehicle that has finished leaves, any other is granted its request. -/
theorem flatVisit_eq_ok_iff {fleet : Fleet n} {offer : Power} {u u' : Unit} {o : Occupant n}
    {v : Visit n} :
    flatVisit fleet offer u o = .ok (v, u') ↔
      ((o.vehicleIn fleet).isFinished = true ∧ v = ⟨o, true⟩) ∨
      ∃ request, (o.vehicleIn fleet).request? offer = .ok (some request) ∧
        v = ⟨{ o with allocated := request }, false⟩ := by
  unfold flatVisit
  rw [bind_eq_ok_iff, ← Vehicle.request?_eq_ok_none_iff offer]
  constructor
  · rintro ⟨answer, hanswer, hmade⟩
    -- no answer, and the vehicle is finished
    cases answer with
    | none =>
      cases pure_eq_ok_iff.mp hmade
      exact .inl ⟨hanswer, rfl⟩
    | some request =>
      -- an answer, which is the new power
      cases pure_eq_ok_iff.mp hmade
      exact .inr ⟨request, hanswer, rfl⟩
  · rintro (⟨hanswer, rfl⟩ | ⟨request, hanswer, rfl⟩)
    · exact ⟨none, hanswer, rfl⟩
    · exact ⟨some request, hanswer, rfl⟩

theorem of_flatVisit {fleet : Fleet n} {offer : Power} {u u' : Unit} {o : Occupant n}
    {v : Visit n} (h : flatVisit fleet offer u o = .ok (v, u')) : v.Of fleet o := by
  rw [flatVisit_eq_ok_iff] at h
  obtain ⟨hfinished, rfl⟩ | ⟨request, hrequest, rfl⟩ := h
  · exact ⟨rfl, rfl, hfinished.symm, nofun⟩
  · obtain ⟨hstays, _, ⟨soc, hsoc, -⟩, -⟩ := Vehicle.request?_eq_ok_some_iff.mp hrequest
    exact ⟨rfl, rfl, hstays.symm, fun _ => ⟨soc, hsoc⟩⟩

/-! ### Granular visits -/

/-- What a plug is offered under the granular strategy. -/
def granularOffer (budget : ℤ) (step cap : Power) (inUse : ℤ) (o : Occupant n) : Power :=
  if 0 < budget - inUse then min (o.allocated + step) cap else o.allocated

/-- The steps that an occupant holds. -/
def heldSteps (step : Power) (o : Occupant n) : ℤ :=
  stepsFor o.allocated.watts step.watts

/-- **Granular visits**: a vehicle that has finished leaves and returns its steps; any other is
granted its request if the steps then in use stay within the budget, and otherwise keeps what it
has. -/
theorem granularVisit_eq_ok_iff {fleet : Fleet n} {budget : ℤ} {step cap : Power} {inUse next : ℤ}
    {o : Occupant n} {v : Visit n} :
    granularVisit fleet budget step cap inUse o = .ok (v, next) ↔
      ((o.vehicleIn fleet).isFinished = true ∧ v = ⟨o, true⟩ ∧
        next = inUse - heldSteps step o) ∨
      ∃ request, (o.vehicleIn fleet).request? (granularOffer budget step cap inUse o) =
          .ok (some request) ∧
        ((inUse - heldSteps step o + stepsFor request.watts step.watts ≤ budget ∧
            v = ⟨{ o with allocated := request }, false⟩ ∧
            next = inUse - heldSteps step o + stepsFor request.watts step.watts) ∨
          (budget < inUse - heldSteps step o + stepsFor request.watts step.watts ∧
            v = ⟨o, false⟩ ∧ next = inUse)) := by
  unfold granularVisit
  rw [bind_eq_ok_iff,
    ← Vehicle.request?_eq_ok_none_iff (granularOffer budget step cap inUse o)]
  constructor
  · rintro ⟨answer, hanswer, hmade⟩
    cases answer with
    | none =>
      cases pure_eq_ok_iff.mp hmade
      exact .inl ⟨hanswer, rfl, rfl⟩
    | some request =>
      -- granted if the count after the grant is within the budget, and refused otherwise
      by_cases hfits : inUse - heldSteps step o + stepsFor request.watts step.watts ≤ budget
      · cases pure_eq_ok_iff.mp ((if_pos hfits).symm.trans hmade)
        exact .inr ⟨request, hanswer, .inl ⟨hfits, rfl, rfl⟩⟩
      · cases pure_eq_ok_iff.mp ((if_neg hfits).symm.trans hmade)
        exact .inr ⟨request, hanswer, .inr ⟨not_le.mp hfits, rfl, rfl⟩⟩
  · rintro (⟨hanswer, rfl, rfl⟩ | ⟨request, hanswer, ⟨hfits, rfl, rfl⟩ | ⟨hover, rfl, rfl⟩⟩)
    · exact ⟨none, hanswer, rfl⟩
    · exact ⟨some request, hanswer, if_pos hfits⟩
    · exact ⟨some request, hanswer, if_neg (not_le.mpr hover)⟩

theorem of_granularVisit {fleet : Fleet n} {budget : ℤ} {step cap : Power} {inUse next : ℤ}
    {o : Occupant n} {v : Visit n}
    (h : granularVisit fleet budget step cap inUse o = .ok (v, next)) : v.Of fleet o := by
  rw [granularVisit_eq_ok_iff] at h
  obtain ⟨hfinished, rfl, -⟩ | ⟨request, hrequest, hanswer⟩ := h
  · -- whoever is finished leaves
    exact ⟨rfl, rfl, hfinished.symm, nofun⟩
  · -- whoever is not has a state of charge, granted or refused
    obtain ⟨hstays, _, ⟨soc, hsoc, -⟩, -⟩ := Vehicle.request?_eq_ok_some_iff.mp hrequest
    obtain ⟨-, rfl, -⟩ | ⟨-, rfl, -⟩ := hanswer
    · exact ⟨rfl, rfl, hstays.symm, fun _ => ⟨soc, hsoc⟩⟩
    · exact ⟨rfl, rfl, hstays.symm, fun _ => ⟨soc, hsoc⟩⟩

end ChargingSite
