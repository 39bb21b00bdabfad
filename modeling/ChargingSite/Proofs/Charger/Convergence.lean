import ChargingSite.Proofs.Charger.GranularStation
import Mathlib.Algebra.Order.BigOperators.Group.List
import Mathlib.Dynamics.FixedPoints.Basic

/-!
# Granular charging converges

While nobody arrives, nobody charges and no energy changes, a granular charger that re-allocates
again and again comes to rest (`granular_converges`).

The aim of an occupant is what its vehicle would take if it were offered the whole cap
(`Occupant.AimsAt`).  One re-allocation is enough for nobody to have more than its aim: the charger
is `Settled`.  From then on each visit lets an occupant climb or leaves it as it is (`Climbs`), so
power is never taken away.  Whoever climbs gets one step more or reaches its aim
(`Occupant.AimsAt.grant`), and its rank, the number of its steps less one until it has what it aims
at, goes up either way.  The ranks together start at no less than one below zero for each occupant
and never pass the budget, which bounds the number of re-allocations that change anything
(`exists_isFixedPt_iterate`).
-/

namespace ChargingSite

variable {n : ℕ} {fleet : Fleet n} {budget : ℤ} {step cap : Power} {before after : ℤ}

/-! ### Aims -/

namespace Occupant

/-- What its vehicle takes if it is offered the whole cap. -/
def AimsAt (fleet : Fleet n) (cap : Power) (o : Occupant n) (aim : Power) : Prop :=
  (o.vehicleIn fleet).request? cap = .ok (some aim)

instance (fleet : Fleet n) (cap : Power) (o : Occupant n) (aim : Power) :
    Decidable (o.AimsAt fleet cap aim) :=
  inferInstanceAs (Decidable (_ = _))

/-- It has an aim, and no more than that. -/
def IsSettling (fleet : Fleet n) (cap : Power) (o : Occupant n) : Prop :=
  ∃ aim, o.AimsAt fleet cap aim ∧ o.allocated.watts ≤ aim.watts

/-- Its steps, less one while it does not have what it aims at. -/
def rank (fleet : Fleet n) (step cap : Power) (o : Occupant n) : ℤ :=
  heldSteps step o - if o.AimsAt fleet cap o.allocated then 0 else 1

variable {o : Occupant n} {aim : Power}

theorem AimsAt.minimumCharge_le (h : o.AimsAt fleet cap aim) :
    minimumCharge.watts ≤ aim.watts :=
  Vehicle.minimumCharge_le_of_request? h

theorem AimsAt.le_cap (h : o.AimsAt fleet cap aim) :
    aim.watts ≤ max cap.watts minimumCharge.watts :=
  Vehicle.request?_le_max h

theorem AimsAt.unique {aim' : Power} (h : o.AimsAt fleet cap aim)
    (h' : o.AimsAt fleet cap aim') : aim = aim' :=
  Option.some.inj (Except.ok.inj (h.symm.trans h'))

theorem IsSettling.isCapped (h : o.IsSettling fleet cap) : o.IsCapped cap := by
  obtain ⟨aim, haim, hle⟩ := h
  exact hle.trans haim.le_cap

/-- A granular offer is answered with as much of the aim as is offered. -/
theorem AimsAt.request?_eq (h : o.AimsAt fleet cap aim) (ho : o.IsCapped cap) (budget : ℤ)
    (step : Power) (before : ℤ) :
    (o.vehicleIn fleet).request? (granularOffer budget step cap before o) =
      .ok (some (max (min aim (granularOffer budget step cap before o)) minimumCharge)) :=
  Vehicle.request?_of_le h ho.offer_le

theorem rank_le (o : Occupant n) : o.rank fleet step cap ≤ heldSteps step o := by
  unfold rank
  split_ifs <;> omega

theorem neg_one_le_rank (hs : 0 < step.watts) (ho : o.IsWaiting ∨ o.IsPowered) :
    -1 ≤ o.rank fleet step cap := by
  have hheld := heldSteps_nonneg hs ho
  unfold rank
  split_ifs <;> omega

end Occupant

/-! ### One visit -/

section Visit

variable {o : Occupant n} {v : Visit n}

/-- **Nobody is granted more than its aim.** -/
theorem isSettling_of_granularVisit (hs : 0 < step.watts) (ho : o.IsWaiting ∨ o.IsPowered)
    (hcapped : o.IsCapped cap) (hbefore : before ≤ budget)
    (h : granularVisit fleet budget step cap before o = .ok (v, after))
    (hstays : v.leaving = false) : v.occupant.IsSettling fleet cap := by
  rw [granularVisit_eq_ok_iff] at h
  obtain ⟨-, rfl, -⟩ | ⟨request, hrequest, hanswer⟩ := h
  · cases hstays
  · obtain ⟨hunfinished, allowed, hallowed, -⟩ := Vehicle.request?_eq_ok_some_iff.mp hrequest
    have haim : o.AimsAt fleet cap (max (min allowed cap) minimumCharge) :=
      Vehicle.request?_eq_ok_some_iff.mpr ⟨hunfinished, allowed, hallowed, rfl⟩
    have hlow := haim.minimumCharge_le
    obtain ⟨-, rfl, -⟩ | ⟨hover, rfl, -⟩ := hanswer
    · -- granted is a part of the aim
      rw [haim.request?_eq hcapped] at hrequest
      cases hrequest
      exact ⟨_, haim, max_le (min_le_left _ _) hlow⟩
    · rcases ho with hwaiting | hpowered
      · have hnothing : o.allocated.watts = 0 := hwaiting
        exact ⟨_, haim, hnothing.trans_le (le_trans (by decide) hlow)⟩
      · exact absurd (hpowered.request_fits hs hbefore hrequest) (not_le.mpr hover)

/-- Between two occupants of one plug, of which the later is the same or has climbed. -/
structure Climbs (fleet : Fleet n) (step cap : Power) (o o' : Occupant n) : Prop where
  entry_eq : o'.entry = o.entry
  allocated_le : o.allocated.watts ≤ o'.allocated.watts
  rank_lt : o' = o ∨ o.rank fleet step cap < o'.rank fleet step cap

theorem Climbs.refl (o : Occupant n) : Climbs fleet step cap o o :=
  ⟨rfl, le_rfl, .inl rfl⟩

/-- **One step more, or the aim**: the part of its aim that a settling occupant gets of its offer is
what it has already, or the aim, or takes one step more. -/
theorem Occupant.AimsAt.grant {aim request : Power} (haim : o.AimsAt fleet cap aim)
    (hle : o.allocated.watts ≤ aim.watts) (hs : 0 < step.watts) (ho : o.IsWaiting ∨ o.IsPowered)
    (hrequest : request = max (min aim (granularOffer budget step cap before o)) minimumCharge) :
    request = o.allocated ∨
      o.allocated.watts < request.watts ∧ (request = aim ∨
        heldSteps step o + 1 ≤ heldSteps step { o with allocated := request }) := by
  have hlow := haim.minimumCharge_le
  have hcap := haim.le_cap
  have hfloor : minimumCharge.watts ≤ request.watts := hrequest ▸ le_max_right _ _
  rcases ho with hwaiting | hpowered
  · -- a first grant takes at least one step
    have hnothing : o.allocated.watts = 0 := hwaiting
    have hfirst : firstSteps step ≤ heldSteps step { o with allocated := request } :=
      stepsFor_mono hs hfloor
    have hpos := firstSteps_pos hs
    have hleast : 0 < minimumCharge.watts := by decide
    rw [hwaiting.heldSteps_eq]
    omega
  · have hpowered : minimumCharge.watts ≤ o.allocated.watts := hpowered
    have hwatts := congrArg Power.watts hrequest
    rw [Power.watts_max, Power.watts_min, granularOffer] at hwatts
    split_ifs at hwatts with hleft
    · rw [Power.watts_min, Power.watts_add] at hwatts
      rcases le_or_gt aim.watts (o.allocated.watts + step.watts) with hreach | hfar
      · have hrequest : request = aim := congrArg Power.mk (by omega : request.watts = aim.watts)
        rcases hle.eq_or_lt with hsame | hless
        · exact .inl (hrequest.trans (congrArg Power.mk hsame.symm))
        · exact .inr ⟨hrequest ▸ hless, .inl hrequest⟩
      · -- the aim is above the least charge power, so the cap is not below the aim
        have hmore : request.watts = o.allocated.watts + step.watts := by omega
        refine .inr ⟨by omega, .inr (le_of_eq ?_)⟩
        rw [heldSteps, heldSteps, hmore, stepsFor_add_step hs]
    · exact .inl (congrArg Power.mk (by omega : request.watts = o.allocated.watts))

/-- Whoever gets nearer to its aim by such a grant goes up in rank. -/
theorem Occupant.AimsAt.rank_lt {aim request : Power} (haim : o.AimsAt fleet cap aim)
    (hle : request.watts ≤ aim.watts) (hs : 0 < step.watts)
    (hmore : o.allocated.watts < request.watts)
    (hreach : request = aim ∨
      heldSteps step o + 1 ≤ heldSteps step { o with allocated := request }) :
    o.rank fleet step cap < Occupant.rank fleet step cap { o with allocated := request } := by
  have hshort : ¬ o.AimsAt fleet cap o.allocated := by
    intro hreached
    rw [haim.unique hreached] at hle
    omega
  rw [rank, if_neg hshort, rank]
  rcases hreach with rfl | hstep
  · -- the aim is reached, so no step is taken off any more
    have hreached : AimsAt fleet cap { o with allocated := request } request := haim
    have hheld : heldSteps step o ≤ heldSteps step { o with allocated := request } :=
      stepsFor_mono hs hmore.le
    rw [if_pos hreached]
    omega
  · -- a step more is held than before
    split_ifs <;> omega

/-- **Each visit lets a settling occupant climb** or leaves it as it is. -/
theorem climbs_of_granularVisit (hs : 0 < step.watts) (ho : o.IsWaiting ∨ o.IsPowered)
    (hsettling : o.IsSettling fleet cap)
    (h : granularVisit fleet budget step cap before o = .ok (v, after)) :
    v.leaving = false ∧ Climbs fleet step cap o v.occupant := by
  have hcapped := hsettling.isCapped
  obtain ⟨aim, haim, hle⟩ := hsettling
  have hrequest := haim.request?_eq hcapped budget step before
  have hunfinished := (Vehicle.request?_eq_ok_some_iff.mp hrequest).1
  rw [granularVisit_eq_ok_iff, hrequest, hunfinished] at h
  obtain ⟨hfinished, -⟩ | ⟨request, hanswer, ⟨-, rfl, -⟩ | ⟨-, rfl, -⟩⟩ := h
  · -- a finished vehicle would leave, but this one has an aim
    cases hfinished
  · -- the request fits, and is granted
    have hanswer := Option.some.inj (Except.ok.inj hanswer)
    refine ⟨rfl, ?_⟩
    rcases haim.grant hle hs ho hanswer.symm with rfl | ⟨hmore, hreach⟩
    · exact .refl o
    · have hpart : request.watts ≤ aim.watts := by
        rw [← hanswer]
        exact max_le (min_le_left _ _) haim.minimumCharge_le
      exact ⟨rfl, hmore.le, .inr (haim.rank_lt hpart hs hmore hreach)⟩
  · -- it does not fit, and the plug keeps what it has
    exact ⟨rfl, .refl o⟩

/-- A settling occupant is visited without failure. -/
theorem exists_granularVisit (budget : ℤ) (step : Power) (before : ℤ)
    (hsettling : o.IsSettling fleet cap) :
    ∃ v after, granularVisit fleet budget step cap before o = .ok (v, after) := by
  have hcapped := hsettling.isCapped
  obtain ⟨aim, haim, -⟩ := hsettling
  have hrequest := haim.request?_eq hcapped budget step before
  -- granted or refused, the visit is made
  by_cases hfits : before - heldSteps step o +
      stepsFor (max (min aim (granularOffer budget step cap before o)) minimumCharge).watts
        step.watts ≤ budget
  · exact ⟨_, _, granularVisit_eq_ok_iff.mpr (.inr ⟨_, hrequest, .inl ⟨hfits, rfl, rfl⟩⟩)⟩
  · exact ⟨_, _, granularVisit_eq_ok_iff.mpr
      (.inr ⟨_, hrequest, .inr ⟨not_le.mp hfits, rfl, rfl⟩⟩)⟩

/-- **A plug that a visit leaves as it is**, although a step is left, has what it aims at, or waits
because a first grant does not fit. -/
theorem reached_of_granularVisit (hs : 0 < step.watts) (ho : o.IsWaiting ∨ o.IsPowered)
    (hsettling : o.IsSettling fleet cap) (hbefore : before < budget)
    (h : granularVisit fleet budget step cap before o = .ok (⟨o, false⟩, after)) :
    o.AimsAt fleet cap o.allocated ∨ o.IsWaiting ∧ budget < before + firstSteps step := by
  rcases ho with hwaiting | hpowered
  · obtain ⟨-, -, hover⟩ := refused_of_granularVisit hs h rfl hwaiting
    exact .inr ⟨hwaiting, hover⟩
  · left
    have hcapped := hsettling.isCapped
    obtain ⟨aim, haim, hle⟩ := hsettling
    have hrequest := haim.request?_eq hcapped budget step before
    rw [granularVisit_eq_ok_iff] at h
    obtain ⟨-, hleaves, -⟩ | ⟨request, hanswer, ⟨-, hsame, -⟩ | ⟨hover, -, -⟩⟩ := h
    · cases hleaves
    · -- one step more was offered, and no more than before was taken
      have hsame : o.allocated = request := congrArg (fun v => v.occupant.allocated) hsame
      rw [hrequest] at hanswer
      have hwatts : o.allocated.watts = _ :=
        congrArg Power.watts (hsame.trans (Option.some.inj (Except.ok.inj hanswer)).symm)
      rw [Power.watts_max, Power.watts_min, granularOffer, if_pos (sub_pos.mpr hbefore),
        Power.watts_min, Power.watts_add] at hwatts
      have hlow := haim.minimumCharge_le
      have hcap := haim.le_cap
      have hreached : o.allocated.watts = aim.watts := by omega
      rw [show o.allocated = aim from congrArg Power.mk hreached]
      exact haim
    · exact absurd (hpowered.request_fits hs hbefore.le hanswer) (not_le.mpr hover)

end Visit

/-! ### One re-allocation -/

/-- The occupants are orderly, and each of them has an aim and no more than that. -/
structure Settled (fleet : Fleet n) (budget : ℤ) (step cap : Power) (os : List (Occupant n)) : Prop
    extends Orderly budget step os where
  settling : ∀ o ∈ os, o.IsSettling fleet cap

section Occupants

variable {os os' : List (Occupant n)} {vs : List (Visit n)} {last : ℤ}

/-- **One re-allocation settles** the occupants who stay. -/
theorem Orderly.settled (hs : 0 < step.watts) (ho : Orderly budget step os)
    (hcapped : ∀ o ∈ os, o.IsCapped cap)
    (h : Visited (granularVisit fleet budget step cap) (stepsInUse step os) os vs last) :
    Settled fleet budget step cap (staying vs) where
  toOrderly := ho.visited hs h
  settling := by
    refine h.forall_staying_of_count_le hs ho.granted ho.inUse_le ?_
    intro o hmem c v c' hbefore hvisit
    exact isSettling_of_granularVisit hs (ho.granted o hmem) (hcapped o hmem) hbefore hvisit

/-- **Settled occupants are all visited**, stay, and climb or keep what they have. -/
theorem Settled.exists_visited (hs : 0 < step.watts) (ho : Settled fleet budget step cap os) :
    ∃ vs last, Visited (granularVisit fleet budget step cap) (stepsInUse step os) os vs last ∧
      (∀ v ∈ vs, v.leaving = false) ∧
      List.Forall₂ (Climbs fleet step cap) os (vs.map Visit.occupant) := by
  obtain ⟨vs, last, hvisited⟩ := ChargingSite.exists_visited
    (fun o hmem c => exists_granularVisit budget step c (ho.settling o hmem)) (stepsInUse step os)
  have hvisits : List.Forall₂
      (fun o v => v.leaving = false ∧ Climbs fleet step cap o v.occupant) os vs := by
    refine hvisited.forall₂_of_count_le hs ho.granted ho.inUse_le ?_
    intro o hmem c v c' _ hvisit
    exact climbs_of_granularVisit hs (ho.granted o hmem) (ho.settling o hmem) hvisit
  refine ⟨vs, last, hvisited, ?_, ?_⟩
  · -- nobody leaves
    intro v hv
    obtain ⟨-, -, hstays, -⟩ := exists_left_of_forall₂ hvisits hv
    exact hstays
  · -- everybody climbs or rests
    rw [List.forall₂_map_right_iff]
    exact hvisits.imp fun _ _ hvisit => hvisit.2

/-- What a whole row of occupants has in rank. -/
def totalRank (fleet : Fleet n) (step cap : Power) (os : List (Occupant n)) : ℤ :=
  (os.map (Occupant.rank fleet step cap)).sum

theorem totalRank_le (os : List (Occupant n)) :
    totalRank fleet step cap os ≤ stepsInUse step os := by
  rw [totalRank, stepsInUse_eq_sum]
  exact List.sum_le_sum fun o _ => o.rank_le

theorem neg_length_le_totalRank (fleet : Fleet n) (cap : Power) (hs : 0 < step.watts)
    (ho : ∀ o ∈ os, o.IsWaiting ∨ o.IsPowered) :
    -(os.length : ℤ) ≤ totalRank fleet step cap os := by
  have hsum := List.card_nsmul_le_sum (os.map (Occupant.rank fleet step cap)) (-1) ?_
  · rw [List.length_map, nsmul_eq_mul, mul_neg_one] at hsum
    exact hsum
  · intro r hr
    obtain ⟨o, hmem, rfl⟩ := List.mem_map.mp hr
    exact o.neg_one_le_rank hs (ho o hmem)

theorem eq_or_totalRank_lt (h : List.Forall₂ (Climbs fleet step cap) os os') :
    os' = os ∨ totalRank fleet step cap os < totalRank fleet step cap os' := by
  induction h with
  | nil => exact .inl rfl
  | @cons o o' os os' head _ ih =>
    unfold totalRank at ih ⊢
    rw [List.map_cons, List.map_cons, List.sum_cons, List.sum_cons]
    rcases head.rank_lt with rfl | hclimbs
    · -- the first one rests, so it is up to the others
      rcases ih with rfl | hothers
      · exact .inl rfl
      · exact .inr (by omega)
    · -- the first one climbs, and none of the others sinks
      rcases ih with rfl | hothers
      · exact .inr (by omega)
      · exact .inr (by omega)

/-- If visits leave all plugs as they are, each of them is made at the same count. -/
theorem Visited.exists_granularVisit_of_unchanged
    (h : Visited (granularVisit fleet budget step cap) before os
      (os.map fun o => ⟨o, false⟩) last) :
    ∀ o ∈ os, ∃ after, granularVisit fleet budget step cap before o = .ok (⟨o, false⟩, after) := by
  induction os generalizing before with
  | nil => simp
  | cons o os ih =>
    cases h with
    | @next _ middle _ _ _ _ _ head tail =>
      have hcount : middle = before := by
        rw [count_granularVisit head]
        simp
      rw [hcount] at tail
      exact List.forall_mem_cons.mpr ⟨⟨_, head⟩, ih tail⟩

end Occupants

/-! ### Settled chargers -/

/-- A charger of the installation, with settled occupants. -/
structure Charger.IsSettled (fleet : Fleet n) (i : Installation) (step cap : Power)
    (c : Charger n) : Prop where
  installation_eq : c.toInstallation = i
  settled : Settled fleet (i.grid.watts / step.watts) step cap c.occupants

/-- The charger after a number of re-allocations, while nothing else happens. -/
def Charger.afterReallocations (fleet : Fleet n) (c : Charger n) (k : ℕ) : Charger n :=
  (fun c => (c.reallocate fleet).1)^[k] c

theorem Charger.afterReallocations_succ (fleet : Fleet n) (c : Charger n) (k : ℕ) :
    c.afterReallocations fleet (k + 1) = ((c.afterReallocations fleet k).reallocate fleet).1 :=
  Function.iterate_succ_apply' _ _ _

/-- **What climbs comes to rest**: if a rank is bounded and goes up whenever `f` changes anything,
then an iterate of `f` is a fixed point, not later than the bound can be reached. -/
theorem exists_isFixedPt_iterate {α : Type} (f : α → α) (rank : α → ℤ) {P : α → Prop} {b : ℤ}
    (hP : ∀ x, P x → P (f x)) (hle : ∀ x, P x → rank x ≤ b)
    (hclimb : ∀ x, P x → f x = x ∨ rank x < rank (f x)) {x : α} (hx : P x) :
    ∃ m : ℕ, m ≤ b - rank x ∧ Function.IsFixedPt f (f^[m] x) := by
  -- by induction on how far the rank is from the bound
  induction hfar : (b - rank x).toNat using Nat.strong_induction_on generalizing x with
  | _ far ih =>
    have hrank := hle x hx
    rcases hclimb x hx with hfixed | hless
    · exact ⟨0, by simpa using hrank, hfixed⟩
    · have hrank' := hle (f x) (hP x hx)
      obtain ⟨m, hm, hfixed⟩ := ih (b - rank (f x)).toNat (by omega) (hP x hx) rfl
      exact ⟨m + 1, by push_cast; omega, hfixed⟩

namespace Charger.IsSettled

variable {grid : Power} {plugs : ℤ} {stepKw capKw : Binary64} {c : Charger n}
  (hstep : Power.ofKilowatts? stepKw = .ok step) (hcap : Power.ofKilowatts? capKw = .ok cap)
  (hs : 0 < step.watts) (hc : c.IsSettled fleet ⟨grid, .granular plugs stepKw capKw⟩ step cap)

include hstep hcap hs hc

theorem exists_reallocated :
    ∃ vs last, Reallocated fleet c vs ∧
      Visited (granularVisit fleet (grid.watts / step.watts) step cap)
        (stepsInUse step c.occupants) c.occupants vs last ∧
      (∀ v ∈ vs, v.leaving = false) ∧
      List.Forall₂ (Climbs fleet step cap) c.occupants (vs.map Visit.occupant) := by
  obtain ⟨vs, last, hvisited, hstays, hclimbs⟩ := hc.settled.exists_visited hs
  have hgrid : c.grid = grid := congrArg Installation.grid hc.installation_eq
  have hstrategy : c.strategy = .granular plugs stepKw capKw :=
    congrArg Installation.strategy hc.installation_eq
  have hmade : Reallocated fleet c vs := .granular hstrategy hstep hcap (hgrid ▸ hvisited)
  exact ⟨vs, last, hmade, hvisited, hstays, hclimbs⟩

/-- **A settled charger re-allocates** without failure, nobody leaves, and everybody climbs or keeps
what it has. -/
theorem reallocate :
    ∃ c', c.reallocate fleet = (c', .ok []) ∧
      c'.IsSettled fleet ⟨grid, .granular plugs stepKw capKw⟩ step cap ∧
      List.Forall₂ (Climbs fleet step cap) c.occupants c'.occupants := by
  obtain ⟨vs, last, hmade, hvisited, hstays, hclimbs⟩ := exists_reallocated hstep hcap hs hc
  have hnobody : vs.filter Visit.leaving = [] := by
    rw [List.filter_eq_nil_iff]
    intro v hv
    rw [hstays v hv]
    exact Bool.false_ne_true
  refine ⟨{ c with occupants := staying vs }, ?_, ⟨hc.installation_eq, ?_⟩, ?_⟩
  · -- nobody is announced, as nobody leaves
    rw [hmade.reallocate_eq, hnobody, List.map_nil]
  · -- who settled stays settled
    have hcapped := fun o hmem => (hc.settled.settling o hmem).isCapped
    exact hc.settled.toOrderly.settled hs hcapped hvisited
  · -- the occupants stay at their plugs
    rw [staying_eq_map hstays]
    exact hclimbs

/-- **At rest** with a step left, everybody has what it aims at, except for those who wait because a
first grant does not fit. -/
theorem reached (hrest : (c.reallocate fleet).1 = c)
    (hleft : stepsInUse step c.occupants < grid.watts / step.watts) :
    ∀ o ∈ c.occupants, o.AimsAt fleet cap o.allocated ∨ o.IsWaiting ∧
      grid.watts / step.watts < stepsInUse step c.occupants + firstSteps step := by
  obtain ⟨vs, last, hmade, hvisited, hstays, -⟩ := exists_reallocated hstep hcap hs hc
  rw [hmade.reallocate_eq, staying_eq_map hstays] at hrest
  have hsame : vs.map Visit.occupant = c.occupants := congrArg Charger.occupants hrest
  have hunchanged : vs = c.occupants.map fun o => ⟨o, false⟩ := by
    rw [← hsame, List.map_map]
    refine (List.map_id' vs).symm.trans (List.map_congr_left fun v hv => ?_)
    rw [Function.comp_apply, ← hstays v hv]
  rw [hunchanged] at hvisited
  intro o hmem
  obtain ⟨after, hvisit⟩ := hvisited.exists_granularVisit_of_unchanged o hmem
  exact reached_of_granularVisit hs (hc.settled.granted o hmem) (hc.settled.settling o hmem) hleft
    hvisit

theorem afterReallocations (k : ℕ) :
    (c.afterReallocations fleet k).IsSettled fleet ⟨grid, .granular plugs stepKw capKw⟩ step
      cap := by
  induction k with
  | zero => exact hc
  | succ k ih =>
    obtain ⟨c', hmade, hc', -⟩ := reallocate hstep hcap hs ih
    rw [afterReallocations_succ, hmade]
    exact hc'

/-- **A settled charger comes to rest**, not later than its ranks can reach the budget. -/
theorem exists_rest :
    ∃ m : ℕ, (m : ℤ) ≤ grid.watts / step.watts + c.occupants.length ∧
      ∀ k ≥ m, c.afterReallocations fleet k = c.afterReallocations fleet m := by
  have hlow := neg_length_le_totalRank fleet cap hs hc.settled.granted
  have hclimb : ∀ c : Charger n,
      c.IsSettled fleet ⟨grid, .granular plugs stepKw capKw⟩ step cap →
      (c.reallocate fleet).1 = c ∨ totalRank fleet step cap c.occupants <
        totalRank fleet step cap (c.reallocate fleet).1.occupants := by
    intro c hc
    obtain ⟨c', hmade, hc', hclimbs⟩ := reallocate hstep hcap hs hc
    rw [hmade]
    refine (eq_or_totalRank_lt hclimbs).imp_left fun hsame => ?_
    exact congrArg₂ Charger.mk (hc'.installation_eq.trans hc.installation_eq.symm) hsame
  obtain ⟨m, hm, hfixed⟩ := exists_isFixedPt_iterate
    (fun c => (c.reallocate fleet).1) (fun c => totalRank fleet step cap c.occupants)
    (P := Charger.IsSettled fleet ⟨grid, .granular plugs stepKw capKw⟩ step cap)
    (fun _ hc => afterReallocations hstep hcap hs hc 1)
    (fun c hc => (totalRank_le c.occupants).trans hc.settled.inUse_le) hclimb hc
  refine ⟨m, by linarith, fun k hk => ?_⟩
  induction k, hk using Nat.le_induction with
  | base => rfl
  | succ k _ ih =>
    rw [afterReallocations_succ, ih]
    exact hfixed

end Charger.IsSettled

/-! ### From a served station on -/

/-- **Granular charging converges.**  If a served station re-allocates again and again while nobody
arrives or charges and no energy changes, and the first re-allocation succeeds, then

* from then on every re-allocation succeeds, nobody leaves and nobody loses power;
* not later than with as many re-allocations as the grid connection covers steps, and as many more
  as there are occupants, and one, it comes to rest;
* at rest all steps are in use, or everybody has what the curve allows up to the cap, the least
  charge power apart, except for those who have no power because fewer steps are left than that
  takes. -/
theorem granular_converges {grid : Power} {plugs : ℤ} {stepKw capKw : Binary64} {i : Installation}
    {calls : List (Call n)} {t : Station n} {first : Charger n} {departed : List ℤ}
    (hi : Installation.create? grid (.granular plugs stepKw capKw) = .ok i) (h : Served i calls t)
    (hmade : t.charger.reallocate t.fleet = (first, .ok departed)) :
    ∃ step cap, Power.ofKilowatts? stepKw = .ok step ∧ Power.ofKilowatts? capKw = .ok cap ∧
      0 < step.watts ∧
      let after := t.charger.afterReallocations t.fleet
      (∀ k ≥ 1, (after k).reallocate t.fleet = (after (k + 1), .ok []) ∧
        List.Forall₂ (fun o o' => (o'.id, o'.vehicle) = (o.id, o.vehicle) ∧
          o.allocated.watts ≤ o'.allocated.watts) (after k).occupants (after (k + 1)).occupants) ∧
      ∃ m : ℕ, (m : ℤ) ≤ ⌊(grid.watts : ℚ) / step.watts⌋ + t.charger.occupants.length + 1 ∧
        (∀ k ≥ m, after k = after m) ∧
        let inUse := ((after m).occupants.map fun o => ⌈(o.allocated.watts : ℚ) / step.watts⌉).sum
        inUse = ⌊(grid.watts : ℚ) / step.watts⌋ ∨
          ∀ o ∈ (after m).occupants,
            (∃ allowed, (o.vehicleIn t.fleet).Allows allowed ∧
              o.allocated.watts = max (min allowed.watts cap.watts) 5000) ∨
            o.allocated.watts = 0 ∧
              ⌊(grid.watts : ℚ) / step.watts⌋ - inUse < ⌈(5000 : ℚ) / step.watts⌉ := by
  obtain ⟨rfl, step, hstep, hs, hbudget⟩ := create?_granular_eq_ok_iff.mp hi
  obtain ⟨vs, hvs, rfl, -⟩ := reallocated_of_reallocate hmade
  obtain ⟨cap, last, hcap, hvisited⟩ := hvs.visited_granular h.toInstallation_eq hstep
  refine ⟨step, cap, hstep, hcap, hs, ?_⟩
  intro after
  have ho := h.orderly hstep hs ((firstSteps_pos hs).le.trans hbudget)
  -- the first re-allocation settles the charger, and `after (k + 1)` is `k` re-allocations later
  let c : Charger n := { t.charger with occupants := staying vs }
  have hc : c.IsSettled t.fleet ⟨grid, .granular plugs stepKw capKw⟩ step cap :=
    ⟨h.toInstallation_eq, ho.settled hs (h.capped hstep hcap) hvisited⟩
  have hkept : c.occupants.length ≤ t.charger.occupants.length := length_staying_le hvs.forall₂
  have hfirst : after 1 = c := congrArg Prod.fst hmade
  have hafter : ∀ k, after (k + 1) = c.afterReallocations t.fleet k := by
    intro k
    rw [← hfirst]
    exact Function.iterate_add_apply _ k 1 t.charger
  constructor
  · intro k hk
    obtain ⟨k, rfl⟩ := Nat.exists_eq_add_of_le' hk
    have hk := hc.afterReallocations hstep hcap hs k
    obtain ⟨c', hmade, -, hclimbs⟩ := hk.reallocate hstep hcap hs
    rw [hafter, hafter, Charger.afterReallocations_succ, hmade]
    exact ⟨rfl, hclimbs.imp fun o o' hclimb => ⟨hclimb.entry_eq, hclimb.allocated_le⟩⟩
  · obtain ⟨m, hm, hrest⟩ := hc.exists_rest hstep hcap hs
    refine ⟨m + 1, ?_, ?_, ?_⟩
    · rw [← ediv_eq_floor hs]
      push_cast
      omega
    · intro k hk
      obtain ⟨k, rfl⟩ := Nat.exists_eq_add_of_le' hk
      rw [← Nat.add_assoc, hafter, hafter, hrest _ (Nat.le_add_left m k)]
    · have hm := hc.afterReallocations hstep hcap hs m
      have hunchanged : ((c.afterReallocations t.fleet m).reallocate t.fleet).1 =
          c.afterReallocations t.fleet m := by
        rw [← Charger.afterReallocations_succ]
        exact hrest (m + 1) (Nat.le_succ m)
      rw [hafter, ← stepsInUse_eq_sum_ceil hs, ← ediv_eq_floor hs]
      intro inUse
      rcases hm.settled.inUse_le.eq_or_lt with hall | hleft
      · exact .inl hall
      · right
        intro o hmem
        rcases hm.reached hstep hcap hs hunchanged hleft o hmem with haim | ⟨hwaiting, hover⟩
        · left
          obtain ⟨-, allowed, hallowed, haim⟩ := Vehicle.request?_eq_ok_some_iff.mp haim
          exact ⟨allowed, hallowed, congrArg Power.watts haim⟩
        · right
          refine ⟨hwaiting, ?_⟩
          have hfirst : firstSteps step = ⌈(5000 : ℚ) / step.watts⌉ := stepsFor_eq_ceil hs
          rw [← hfirst]
          exact sub_lt_iff_lt_add'.mpr hover

/-- Two sample vehicles at four steps of 3 kW, with a cap of 7 kW: the first has had its first grant
when the second plugs in. -/
def climbingPair : Station 2 :=
  { samplePair with
    charger := { samplePair.charger with grid := ⟨12000⟩, strategy := .granular 2 3 7 } }

theorem served_climbingPair :
    Served ⟨⟨12000⟩, .granular 2 3 7⟩ [.plugIn 0 0, .reallocate, .plugIn 1 1] climbingPair := by
  refine served_of_callAll? climbingPair.fleet ?_
  decide +kernel

/-- The first climbs to its cap, which takes three steps, and a first grant to the second would take
two: they are at rest. -/
theorem climbingPair_converges :
    let after := climbingPair.charger.afterReallocations climbingPair.fleet
    (after 1).occupants = [⟨0, 0, ⟨7000⟩⟩, ⟨1, 1, ⟨0⟩⟩] ∧
      (∀ k ≥ 1, (after k).reallocate climbingPair.fleet = (after (k + 1), .ok [])) ∧
      ∃ m ≤ 7, ∀ k ≥ m, after k = after m := by
  intro after
  have hi : Installation.create? ⟨12000⟩ (.granular 2 3 7) = .ok ⟨⟨12000⟩, .granular 2 3 7⟩ := by
    decide +kernel
  have hmade : climbingPair.charger.reallocate climbingPair.fleet =
      ({ climbingPair.charger with occupants := [⟨0, 0, ⟨7000⟩⟩, ⟨1, 1, ⟨0⟩⟩] }, .ok []) := by
    decide +kernel
  have hthree : Power.ofKilowatts? 3 = .ok ⟨3000⟩ := by decide +kernel
  obtain ⟨step, cap, hstep, -, hs, hclimbs, m, hm, hrest, -⟩ :=
    granular_converges hi served_climbingPair hmade
  rw [hthree] at hstep
  cases hstep
  rw [← ediv_eq_floor hs] at hm
  have hbound : (m : ℤ) ≤ 7 := hm
  refine ⟨congrArg (fun made => made.1.occupants) hmade, fun k hk => (hclimbs k hk).1, m, ?_, hrest⟩
  exact_mod_cast hbound

end ChargingSite
