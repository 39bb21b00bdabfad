import ChargingSite.Proofs.Charger.Sweep
import Mathlib.Algebra.BigOperators.Group.List.Basic

/-!
# Granular re-allocation

What the visits of one granular re-allocation preserve.  The count that is carried from visit to
visit is the number of steps in use (`Visited.count_eq`), and it stays within the budget
(`Visited.count_le`).  Every occupant has either no power or at least the least charge power, and
those without power are behind all others: the occupants are `Orderly`, and stay so
(`Orderly.visited`, `Orderly.occupy`).  Whoever is powered is granted every request
(`Occupant.IsPowered.request_fits`).

A vehicle that waits is refused only while fewer steps are left than a first grant takes.  From then
on nobody behind it is granted any (`Visited.stay_waiting`), because those behind it wait as well
and hold nothing that they could return.  So the order lasts, and somebody is powered whenever the
budget covers a first grant (`Visited.exists_powered`).
-/

namespace ChargingSite

variable {n : ℕ}

/-! ### Steps in use -/

theorem stepsInUse_eq_sum (step : Power) (os : List (Occupant n)) :
    stepsInUse step os = (os.map (heldSteps step)).sum := by
  rw [stepsInUse, List.sum_eq_foldl, List.foldl_map]
  rfl

@[simp] theorem stepsInUse_nil (step : Power) : stepsInUse step ([] : List (Occupant n)) = 0 := rfl

@[simp] theorem stepsInUse_cons (step : Power) (o : Occupant n) (os : List (Occupant n)) :
    stepsInUse step (o :: os) = heldSteps step o + stepsInUse step os := by
  rw [stepsInUse_eq_sum, stepsInUse_eq_sum, List.map_cons, List.sum_cons]

@[simp] theorem stepsInUse_append (step : Power) (as bs : List (Occupant n)) :
    stepsInUse step (as ++ bs) = stepsInUse step as + stepsInUse step bs := by
  simp only [stepsInUse_eq_sum, List.map_append, List.sum_append]

/-! ### Occupants with and without power -/

namespace Occupant

/-- It has no power. -/
def IsWaiting (o : Occupant n) : Prop :=
  o.allocated.watts = 0

/-- It has at least the least charge power. -/
def IsPowered (o : Occupant n) : Prop :=
  minimumCharge.watts ≤ o.allocated.watts

/-- It has no more than the cap of a plug, or than the least charge power. -/
def IsCapped (cap : Power) (o : Occupant n) : Prop :=
  o.allocated.watts ≤ max cap.watts minimumCharge.watts

theorem IsPowered.watts_pos {o : Occupant n} (h : o.IsPowered) : 0 < o.allocated.watts :=
  lt_of_lt_of_le (by decide) h

theorem IsPowered.not_isWaiting {o : Occupant n} (h : o.IsPowered) : ¬ o.IsWaiting :=
  h.watts_pos.ne'

theorem IsWaiting.heldSteps_eq {o : Occupant n} (h : o.IsWaiting) (step : Power) :
    heldSteps step o = 0 := by
  rw [heldSteps, h, stepsFor_zero]

theorem IsWaiting.isCapped {o : Occupant n} (h : o.IsWaiting) (cap : Power) : o.IsCapped cap := by
  have hnothing : o.allocated.watts = 0 := h
  rw [IsCapped, hnothing]
  exact le_max_of_le_right (by decide)

theorem heldSteps_nonneg {o : Occupant n} {step : Power} (hs : 0 < step.watts)
    (h : o.IsWaiting ∨ o.IsPowered) : 0 ≤ heldSteps step o := by
  rcases h with hwaiting | hpowered
  · exact (hwaiting.heldSteps_eq step).ge
  · exact stepsFor_nonneg hs hpowered.watts_pos.le

end Occupant

/-- Whoever is plugged in waits. -/
theorem Charger.mem_occupy {c : Charger n} {vehicle : Fin n} {id : ℤ} {o : Occupant n}
    (h : o ∈ (c.occupy vehicle id).occupants) : o ∈ c.occupants ∨ o.IsWaiting := by
  rcases List.mem_append.mp h with hold | hnew
  · exact .inl hold
  · cases List.mem_singleton.mp hnew
    exact .inr rfl

/-- Behind an occupant that waits, all wait. -/
def WaitingLast (os : List (Occupant n)) : Prop :=
  os.Pairwise fun o later => o.IsWaiting → later.IsWaiting

/-- Waiting last means that a powered part is followed by a part that waits. -/
theorem WaitingLast.exists_split {os : List (Occupant n)} (h : WaitingLast os)
    (hgranted : ∀ o ∈ os, o.IsWaiting ∨ o.IsPowered) :
    ∃ powered waiting, os = powered ++ waiting ∧ (∀ o ∈ powered, o.IsPowered) ∧
      ∀ o ∈ waiting, o.IsWaiting := by
  induction os with
  | nil => exact ⟨[], [], rfl, by simp, by simp⟩
  | cons o rest ih =>
    obtain ⟨hbehind, hrest⟩ := List.pairwise_cons.mp h
    obtain ⟨ho, hgranted⟩ := List.forall_mem_cons.mp hgranted
    rcases ho with hwaiting | hpowered
    · -- all the others wait with the first
      refine ⟨[], o :: rest, rfl, by simp, ?_⟩
      exact List.forall_mem_cons.mpr ⟨hwaiting, fun later hlater => hbehind later hlater hwaiting⟩
    · obtain ⟨powered, waiting, rfl, hpowereds, hwaitings⟩ := ih hrest hgranted
      exact ⟨o :: powered, waiting, rfl, List.forall_mem_cons.mpr ⟨hpowered, hpowereds⟩, hwaitings⟩

theorem stepsInUse_of_waiting {step : Power} {os : List (Occupant n)}
    (h : ∀ o ∈ os, o.IsWaiting) : stepsInUse step os = 0 := by
  rw [stepsInUse_eq_sum]
  apply List.sum_eq_zero
  intro k hk
  obtain ⟨o, ho, rfl⟩ := List.mem_map.mp hk
  exact (h o ho).heldSteps_eq step

/-! ### One visit -/

section Visit

variable {fleet : Fleet n} {budget : ℤ} {step cap : Power} {before after : ℤ} {o : Occupant n}
  {v : Visit n}

theorem granted_of_granularVisit
    (h : granularVisit fleet budget step cap before o = .ok (v, after))
    (ho : o.IsWaiting ∨ o.IsPowered) : v.occupant.IsWaiting ∨ v.occupant.IsPowered := by
  rw [granularVisit_eq_ok_iff] at h
  obtain ⟨-, rfl, -⟩ | ⟨request, hrequest, ⟨-, rfl, -⟩ | ⟨-, rfl, -⟩⟩ := h
  · exact ho
  · exact .inr (Vehicle.minimumCharge_le_of_request? hrequest)
  · exact ho

theorem Occupant.IsCapped.offer_le (ho : o.IsCapped cap) :
    (granularOffer budget step cap before o).watts ≤ max cap.watts minimumCharge.watts := by
  rw [granularOffer]
  split_ifs
  · rw [Power.watts_min]
    exact le_max_of_le_left (min_le_right _ _)
  · exact ho

theorem capped_of_granularVisit
    (h : granularVisit fleet budget step cap before o = .ok (v, after)) (ho : o.IsCapped cap) :
    v.occupant.IsCapped cap := by
  rw [granularVisit_eq_ok_iff] at h
  obtain ⟨-, rfl, -⟩ | ⟨request, hrequest, ⟨-, rfl, -⟩ | ⟨-, rfl, -⟩⟩ := h
  · exact ho
  · exact (Vehicle.request?_le_max hrequest).trans (max_le ho.offer_le (le_max_right _ _))
  · exact ho

/-- A visit changes the count by the change of the steps that the visited plug holds. -/
theorem count_granularVisit
    (h : granularVisit fleet budget step cap before o = .ok (v, after)) :
    after = before - heldSteps step o + stepsInUse step (staying [v]) := by
  rw [granularVisit_eq_ok_iff] at h
  obtain ⟨-, rfl, rfl⟩ | ⟨request, -, ⟨-, rfl, rfl⟩ | ⟨-, rfl, rfl⟩⟩ := h
  · simp
  · simp [heldSteps]
  · simp

theorem count_le_max_of_granularVisit (hs : 0 < step.watts)
    (h : granularVisit fleet budget step cap before o = .ok (v, after))
    (ho : o.IsWaiting ∨ o.IsPowered) : after ≤ max before budget := by
  have hheld := Occupant.heldSteps_nonneg hs ho
  rw [granularVisit_eq_ok_iff] at h
  obtain ⟨-, -, rfl⟩ | ⟨request, -, ⟨hfits, -, rfl⟩ | ⟨-, -, rfl⟩⟩ := h
  · -- whoever leaves hands back its steps
    omega
  · -- a request is granted within the budget
    exact hfits.trans (le_max_right _ _)
  · -- a refused one takes nothing
    exact le_max_left _ _

theorem count_le_of_granularVisit (hs : 0 < step.watts)
    (h : granularVisit fleet budget step cap before o = .ok (v, after))
    (ho : o.IsWaiting ∨ o.IsPowered) (hbefore : before ≤ budget) : after ≤ budget :=
  (count_le_max_of_granularVisit hs h ho).trans (max_le hbefore le_rfl)

/-- What a waiting vehicle requests takes exactly the steps of a first grant. -/
theorem Occupant.IsWaiting.stepsFor_request (hs : 0 < step.watts) (ho : o.IsWaiting)
    {request : Power}
    (h : (o.vehicleIn fleet).request? (granularOffer budget step cap before o) =
      .ok (some request)) :
    stepsFor request.watts step.watts = firstSteps step := by
  apply stepsFor_first_grant hs (Vehicle.minimumCharge_le_of_request? h)
  refine (Vehicle.request?_le_max h).trans (max_le_max_right _ ?_)
  have hallocated : o.allocated.watts = 0 := ho
  -- the offer is at most one step, and nothing if no step is left
  rw [granularOffer]
  split_ifs with hleft
  · rw [Power.watts_min, Power.watts_add, hallocated, zero_add]
    exact min_le_left _ _
  · rw [hallocated]
    exact hs.le

theorem stays_waiting_of_granularVisit (hs : 0 < step.watts)
    (hfull : budget < before + firstSteps step) (ho : o.IsWaiting)
    (h : granularVisit fleet budget step cap before o = .ok (v, after)) :
    v.occupant.IsWaiting ∧ after = before := by
  have hheld := ho.heldSteps_eq step
  rw [granularVisit_eq_ok_iff, hheld, sub_zero] at h
  obtain ⟨-, rfl, rfl⟩ | ⟨request, hrequest, ⟨hfits, -, -⟩ | ⟨-, rfl, rfl⟩⟩ := h
  · -- a finished vehicle leaves as it came
    exact ⟨ho, rfl⟩
  · -- a first grant does not fit
    rw [ho.stepsFor_request hs hrequest] at hfits
    exact absurd hfits (not_le.mpr hfull)
  · -- it is refused
    exact ⟨ho, rfl⟩

/-- **A powered plug is never refused** while the count is within the budget: it is offered one step
more only if a step is left, and otherwise no more than it has. -/
theorem Occupant.IsPowered.request_fits (hs : 0 < step.watts) (ho : o.IsPowered)
    (hbefore : before ≤ budget) {request : Power}
    (h : (o.vehicleIn fleet).request? (granularOffer budget step cap before o) =
      .ok (some request)) :
    before - heldSteps step o + stepsFor request.watts step.watts ≤ budget := by
  have ho : minimumCharge.watts ≤ o.allocated.watts := ho
  have hrequest := Vehicle.request?_le_max h
  rw [granularOffer] at hrequest
  split_ifs at hrequest with hleft
  · -- a step is left, and one more step is all that can be asked for
    rw [Power.watts_min, Power.watts_add] at hrequest
    have hmore : stepsFor request.watts step.watts ≤ heldSteps step o + 1 := by
      rw [heldSteps, ← stepsFor_add_step hs]
      exact stepsFor_mono hs (by omega)
    omega
  · -- nothing is left, and what is held is all that is offered
    rw [max_eq_left ho] at hrequest
    have hsame : stepsFor request.watts step.watts ≤ heldSteps step o := stepsFor_mono hs hrequest
    omega

/-- A vehicle that stays and waits after its visit waited before, and a first grant did not fit. -/
theorem refused_of_granularVisit (hs : 0 < step.watts)
    (h : granularVisit fleet budget step cap before o = .ok (v, after))
    (hstays : v.leaving = false) (hwaiting : v.occupant.IsWaiting) :
    o.IsWaiting ∧ after = before ∧ budget < before + firstSteps step := by
  rw [granularVisit_eq_ok_iff] at h
  obtain ⟨-, rfl, -⟩ | ⟨request, hrequest, ⟨-, rfl, -⟩ | ⟨hover, rfl, rfl⟩⟩ := h
  · cases hstays
  · -- whoever is granted a request does not wait
    have hpowered : Occupant.IsPowered { o with allocated := request } :=
      Vehicle.minimumCharge_le_of_request? hrequest
    exact absurd hwaiting hpowered.not_isWaiting
  · have ho : o.IsWaiting := hwaiting
    rw [ho.heldSteps_eq, sub_zero, ho.stepsFor_request hs hrequest] at hover
    exact ⟨ho, rfl, hover⟩

end Visit

/-! ### Visits in a row -/

namespace Visited

variable {fleet : Fleet n} {budget : ℤ} {step cap : Power} {before after : ℤ}
  {os : List (Occupant n)} {vs : List (Visit n)}

theorem granted (h : Visited (granularVisit fleet budget step cap) before os vs after)
    (hos : ∀ o ∈ os, o.IsWaiting ∨ o.IsPowered) :
    ∀ v ∈ vs, v.occupant.IsWaiting ∨ v.occupant.IsPowered := by
  intro v hv
  obtain ⟨o, ho, _, _, hvisit⟩ := h.exists_of_mem hv
  exact granted_of_granularVisit hvisit (hos o ho)

/-- **The running count** is the number of steps in use: it starts with all allocations as they
were, and each visit puts the new allocation in place of the old one. -/
theorem count_eq (h : Visited (granularVisit fleet budget step cap) before os vs after) :
    after = before - stepsInUse step os + stepsInUse step (staying vs) := by
  induction h with
  | done => simp
  | @next before middle after o v os vs head _ ih =>
    -- the visited plug changes the count by its own steps, the others by theirs
    have hsplit : stepsInUse step (staying (v :: vs)) =
        stepsInUse step (staying [v]) + stepsInUse step (staying vs) := by
      rw [← stepsInUse_append, staying, staying, staying, ← List.map_append, ← List.filter_append,
        List.singleton_append]
    rw [ih, count_granularVisit head, hsplit, stepsInUse_cons]
    ring

theorem count_le_max (hs : 0 < step.watts)
    (h : Visited (granularVisit fleet budget step cap) before os vs after)
    (hos : ∀ o ∈ os, o.IsWaiting ∨ o.IsPowered) : after ≤ max before budget := by
  induction h with
  | done => exact le_max_left _ _
  | next head _ ih =>
    obtain ⟨ho, hos⟩ := List.forall_mem_cons.mp hos
    have hhead := count_le_max_of_granularVisit hs head ho
    exact (ih hos).trans (max_le hhead (le_max_right _ _))

theorem count_le (hs : 0 < step.watts)
    (h : Visited (granularVisit fleet budget step cap) before os vs after)
    (hos : ∀ o ∈ os, o.IsWaiting ∨ o.IsPowered) (hbefore : before ≤ budget) : after ≤ budget :=
  (h.count_le_max hs hos).trans (max_le hbefore le_rfl)

/-- What holds of every visit that is made while the count is within the budget holds of visits in a
row, one by one, if the count starts within it. -/
theorem forall₂_of_count_le {R : Occupant n → Visit n → Prop} (hs : 0 < step.watts)
    (h : Visited (granularVisit fleet budget step cap) before os vs after)
    (hos : ∀ o ∈ os, o.IsWaiting ∨ o.IsPowered) (hbefore : before ≤ budget)
    (hvisit : ∀ o ∈ os, ∀ c v c', c ≤ budget →
      granularVisit fleet budget step cap c o = .ok (v, c') → R o v) :
    List.Forall₂ R os vs := by
  induction h with
  | done => exact .nil
  | next head _ ih =>
    obtain ⟨ho, hos⟩ := List.forall_mem_cons.mp hos
    obtain ⟨hfirst, hothers⟩ := List.forall_mem_cons.mp hvisit
    exact .cons (hfirst _ _ _ hbefore head)
      (ih hos (count_le_of_granularVisit hs head ho hbefore) hothers)

theorem forall_staying_of_count_le {P : Occupant n → Prop} (hs : 0 < step.watts)
    (h : Visited (granularVisit fleet budget step cap) before os vs after)
    (hos : ∀ o ∈ os, o.IsWaiting ∨ o.IsPowered) (hbefore : before ≤ budget)
    (hvisit : ∀ o ∈ os, ∀ c v c', c ≤ budget →
      granularVisit fleet budget step cap c o = .ok (v, c') → v.leaving = false → P v.occupant) :
    ∀ o ∈ staying vs, P o := by
  have hvisits : List.Forall₂ (fun _ v => v.leaving = false → P v.occupant) os vs :=
    h.forall₂_of_count_le hs hos hbefore hvisit
  exact forall_staying_of_forall₂ hvisits

/-- Where all wait and a first grant does not fit, nobody is granted anything. -/
theorem stay_waiting (hs : 0 < step.watts)
    (h : Visited (granularVisit fleet budget step cap) before os vs after)
    (hfull : budget < before + firstSteps step) (hos : ∀ o ∈ os, o.IsWaiting) :
    ∀ v ∈ vs, v.occupant.IsWaiting := by
  induction h with
  | done => simp
  | next head _ ih =>
    obtain ⟨ho, hos⟩ := List.forall_mem_cons.mp hos
    -- the visit leaves the count as it was, so a first grant does not fit for the next one either
    obtain ⟨hwaiting, rfl⟩ := stays_waiting_of_granularVisit hs hfull ho head
    exact List.forall_mem_cons.mpr ⟨hwaiting, ih hfull hos⟩

/-- **Priority lasts**: if those who wait are behind all others, they are so after the visits. -/
theorem waitingLast (hs : 0 < step.watts)
    (h : Visited (granularVisit fleet budget step cap) before os vs after)
    (hos : WaitingLast os) : WaitingLast (staying vs) := by
  induction h with
  | done => exact List.Pairwise.nil
  | @next before middle after o v os vs head tail ih =>
    obtain ⟨hbehind, hos⟩ := List.pairwise_cons.mp hos
    rw [staying_cons]
    split_ifs with hleaving
    · exact ih hos
    · have hstays : v.leaving = false := Bool.not_eq_true _ ▸ hleaving
      refine List.pairwise_cons.mpr ⟨?_, ih hos⟩
      intro later hlater hwaiting
      -- the visited plug was refused a first grant, so nobody behind it gets one
      obtain ⟨ho, rfl, hfull⟩ := refused_of_granularVisit hs head hstays hwaiting
      have hwait : ∀ later ∈ os, later.IsWaiting := fun later hlater => hbehind later hlater ho
      have hall := stay_waiting hs tail hfull hwait
      obtain ⟨w, hw, -, rfl⟩ := exists_visit_of_mem_staying hlater
      exact hall w hw

/-- **Somebody is powered** after the visits if anybody stays, provided that the count starts with
the steps in use and the budget covers a first grant. -/
theorem exists_powered (hs : 0 < step.watts)
    (h : Visited (granularVisit fleet budget step cap) before os vs after)
    (hgranted : ∀ o ∈ os, o.IsWaiting ∨ o.IsPowered) (hos : WaitingLast os)
    (hbefore : before = stepsInUse step os) (hbudget : firstSteps step ≤ budget) :
    staying vs = [] ∨ ∃ o ∈ staying vs, o.IsPowered := by
  induction h with
  | done => exact .inl rfl
  | @next before middle after o v os vs head tail ih =>
    have hcount := count_granularVisit head
    have hvisited := granted_of_granularVisit head (List.forall_mem_cons.mp hgranted).1
    obtain ⟨hbehind, hos⟩ := List.pairwise_cons.mp hos
    rw [staying_cons]
    split_ifs with hleaving
    · -- the steps of the one who leaves are returned, and the count is that of the others
      rw [staying_cons, if_pos hleaving, staying_nil, stepsInUse_nil, hbefore, stepsInUse_cons]
        at hcount
      exact ih (List.forall_mem_cons.mp hgranted).2 hos (by omega)
    · right
      have hstays : v.leaving = false := Bool.not_eq_true _ ▸ hleaving
      rcases hvisited with hwaiting | hpowered
      · -- a refusal would mean that all wait and that not even a first grant fits
        obtain ⟨ho, -, hfull⟩ := refused_of_granularVisit hs head hstays hwaiting
        have hwait : ∀ later ∈ o :: os, later.IsWaiting :=
          List.forall_mem_cons.mpr ⟨ho, fun later hlater => hbehind later hlater ho⟩
        have hnone : stepsInUse step (o :: os) = 0 := stepsInUse_of_waiting hwait
        rw [hbefore, hnone, zero_add] at hfull
        exact absurd hbudget (not_le.mpr hfull)
      · exact ⟨v.occupant, List.mem_cons_self, hpowered⟩

end Visited

/-! ### One re-allocation -/

/-- What holds of the occupants of a granular charger at all times. -/
structure Orderly (budget : ℤ) (step : Power) (os : List (Occupant n)) : Prop where
  /-- Everybody either waits or has the least charge power. -/
  granted : ∀ o ∈ os, o.IsWaiting ∨ o.IsPowered
  /-- Those who wait are behind all others. -/
  waitingLast : WaitingLast os
  /-- The steps in use are within the budget. -/
  inUse_le : stepsInUse step os ≤ budget

theorem Orderly.visited {fleet : Fleet n} {budget : ℤ} {step cap : Power} {last : ℤ}
    {os : List (Occupant n)} {vs : List (Visit n)} (hs : 0 < step.watts)
    (ho : Orderly budget step os)
    (h : Visited (granularVisit fleet budget step cap) (stepsInUse step os) os vs last) :
    Orderly budget step (staying vs) where
  granted o hmem := by
    obtain ⟨v, hv, -, rfl⟩ := exists_visit_of_mem_staying hmem
    exact h.granted ho.granted v hv
  waitingLast := h.waitingLast hs ho.waitingLast
  inUse_le := by
    have hcount := h.count_eq
    rw [sub_self, zero_add] at hcount
    exact hcount ▸ h.count_le hs ho.granted ho.inUse_le

/-- Whoever is plugged in goes to the back and has no power, so order lasts. -/
theorem Orderly.occupy {budget : ℤ} {step : Power} {c : Charger n}
    (ho : Orderly budget step c.occupants) (vehicle : Fin n) (id : ℤ) :
    Orderly budget step (c.occupy vehicle id).occupants := by
  have hnew : ∀ o ∈ [(⟨id, vehicle, ⟨0⟩⟩ : Occupant n)], o.IsWaiting := by
    intro o hmem
    cases List.mem_singleton.mp hmem
    rfl
  show Orderly budget step (c.occupants ++ [⟨id, vehicle, ⟨0⟩⟩])
  constructor
  · -- the old occupants are granted, and the new one waits
    intro o hmem
    rcases Charger.mem_occupy hmem with hold | hwaiting
    · exact ho.granted o hold
    · exact .inl hwaiting
  · -- the new one comes last, and waits
    refine List.pairwise_append.mpr ⟨ho.waitingLast, List.pairwise_singleton _ _, ?_⟩
    exact fun _ _ later hlater _ => hnew later hlater
  · -- the new one has no steps
    rw [stepsInUse_append, stepsInUse_of_waiting hnew, add_zero]
    exact ho.inUse_le

end ChargingSite
