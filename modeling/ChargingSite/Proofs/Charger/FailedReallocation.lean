import ChargingSite.Proofs.Charger.Grants
import ChargingSite.Proofs.Charger.GranularStation

/-!
# Re-allocations that fail

A re-allocation fails before the first visit, or at a vehicle that cannot answer its offer
(`interrupted_of_reallocate`).  What the visits before that have granted stays granted, and nobody
leaves: not even those who have finished, although their steps have been handed on already.  So the
steps in use can get beyond the budget, but only by the steps of those who were to leave
(`Interrupted.stepsInUse_le`).

A station that any calls have brought about, failed ones included, is `Reached`.  Its occupants have
no power or at least the least charge power (`Reached.isGranted`), whatever has failed.
-/

namespace ChargingSite

variable {n : ℕ} {fleet : Fleet n} {c c' : Charger n} {e : SiteError}
  {before rest : List (Occupant n)}
  {vs : List (Visit n)}

/-! ### Visits that are not followed through -/

/-- What is left of an occupant after its visit if nobody leaves: it has the power that it had, or
one of its requests. -/
structure Occupant.Revised (fleet : Fleet n) (o o' : Occupant n) : Prop where
  entry_eq : o'.entry = o.entry
  allocated : o'.allocated = o.allocated ∨
    ∃ offer, (o.vehicleIn fleet).request? offer = .ok (some o'.allocated)

theorem Occupant.Revised.refl (o : Occupant n) : o.Revised fleet o :=
  ⟨rfl, .inl rfl⟩

/-- An occupant with the same entry and the same power is the same. -/
theorem Occupant.eq_of_entry_eq {o o' : Occupant n} (hentry : o'.entry = o.entry)
    (hallocated : o'.allocated = o.allocated) : o' = o := by
  obtain ⟨id, vehicle, allocated⟩ := o
  obtain ⟨hid, hvehicle⟩ := Prod.mk.inj hentry
  cases hid
  cases hvehicle
  cases hallocated
  rfl

/-- Who has finished has no request. -/
theorem Occupant.Revised.eq_of_isFinished {o o' : Occupant n} (h : o.Revised fleet o')
    (hfinished : (o.vehicleIn fleet).isFinished = true) : o' = o := by
  refine Occupant.eq_of_entry_eq h.entry_eq (h.allocated.resolve_right ?_)
  rintro ⟨offer, hrequest⟩
  rw [(Vehicle.request?_eq_ok_none_iff offer).mpr hfinished] at hrequest
  cases hrequest

theorem Occupant.Revised.granted {o o' : Occupant n} (h : o.Revised fleet o')
    (ho : o.IsWaiting ∨ o.IsPowered) : o'.IsWaiting ∨ o'.IsPowered := by
  rcases h.allocated with hsame | ⟨offer, hrequest⟩
  · rwa [Occupant.IsWaiting, Occupant.IsPowered, hsame]
  · exact .inr (Vehicle.minimumCharge_le_of_request? hrequest)

theorem revised_of_flatVisit {offer : Power} {u u' : Unit} {o : Occupant n} {v : Visit n}
    (h : flatVisit fleet offer u o = .ok (v, u')) : o.Revised fleet v.occupant := by
  obtain ⟨-, rfl⟩ | ⟨request, hrequest, rfl⟩ := flatVisit_eq_ok_iff.mp h
  · exact .refl o
  · exact ⟨rfl, .inr ⟨_, hrequest⟩⟩

theorem revised_of_granularVisit {budget : ℤ} {step cap : Power} {inUse next : ℤ} {o : Occupant n}
    {v : Visit n} (h : granularVisit fleet budget step cap inUse o = .ok (v, next)) :
    o.Revised fleet v.occupant := by
  obtain ⟨-, rfl, -⟩ | ⟨request, hrequest, ⟨-, rfl, -⟩ | ⟨-, rfl, -⟩⟩ :=
    granularVisit_eq_ok_iff.mp h
  · exact .refl o
  · exact ⟨rfl, .inr ⟨_, hrequest⟩⟩
  · exact .refl o

theorem request?_of_flatVisit_eq_error {offer : Power} {u : Unit} {o : Occupant n}
    (h : flatVisit fleet offer u o = .error e) (other : Power) :
    (o.vehicleIn fleet).request? other = .error e := by
  rcases bind_eq_error_iff.mp h with hrequest | ⟨answer, -, hanswer⟩
  · exact Vehicle.request?_eq_error hrequest other
  · cases answer <;> cases hanswer

theorem request?_of_granularVisit_eq_error {budget : ℤ} {step cap : Power} {inUse : ℤ}
    {o : Occupant n} (h : granularVisit fleet budget step cap inUse o = .error e) (other : Power) :
    (o.vehicleIn fleet).request? other = .error e := by
  rcases bind_eq_error_iff.mp h with hrequest | ⟨answer, -, hanswer⟩
  · exact Vehicle.request?_eq_error hrequest other
  · cases answer with
    | none =>
      -- a finished vehicle leaves without failure
      cases hanswer
    | some request =>
      dsimp only at hanswer
      -- granted or refused, the visit is made
      split at hanswer <;> cases hanswer

/-! ### Interrupted re-allocations -/

/-- A re-allocation that fails at a visit: the occupants visited before, the visits made to them,
and the others, the first of whom cannot answer. -/
inductive Interrupted (fleet : Fleet n) (c : Charger n) (e : SiteError) :
    List (Occupant n) → List (Visit n) → List (Occupant n) → Prop
  /-- Flat visits, all with the same offer. -/
  | flat {offer : Power} {before behind : List (Occupant n)} {vs : List (Visit n)} {o : Occupant n}
      (hoffer : c.flatOffer = .ok offer) (hsplit : c.occupants = before ++ o :: behind)
      (hvisited : Visited (flatVisit fleet offer) () before vs ())
      (hfails : ∀ offer, (o.vehicleIn fleet).request? offer = .error e) :
      Interrupted fleet c e before vs (o :: behind)
  /-- Granular visits, which start with the steps in use. -/
  | granular {plugs : ℤ} {stepKw capKw : Binary64} {step cap : Power} {last : ℤ}
      {before behind : List (Occupant n)} {vs : List (Visit n)} {o : Occupant n}
      (hstrategy : c.strategy = .granular plugs stepKw capKw)
      (hstep : Power.ofKilowatts? stepKw = .ok step) (hcap : Power.ofKilowatts? capKw = .ok cap)
      (hsplit : c.occupants = before ++ o :: behind)
      (hvisited : Visited (granularVisit fleet (c.grid.watts / step.watts) step cap)
        (stepsInUse step c.occupants) before vs last)
      (hfails : ∀ offer, (o.vehicleIn fleet).request? offer = .error e) :
      Interrupted fleet c e before vs (o :: behind)

theorem exists_visited_of_failed_sweep {σ : Type}
    {visit : σ → Occupant n → Except SiteError (Visit n × σ)} {carried : σ}
    (hfails : ∀ carried o, visit carried o = .error e →
      ∀ offer, (o.vehicleIn fleet).request? offer = .error e)
    (h : (let (occupants, result) := (sweep visit carried c.occupants).settle
      (({ c with occupants }, result) : Charger n × Except SiteError (List ℤ))) =
        (c', .error e)) :
    ∃ before vs last o behind, c.occupants = before ++ o :: behind ∧
      Visited visit carried before vs last ∧
      (∀ offer, (o.vehicleIn fleet).request? offer = .error e) ∧
      c' = { c with occupants := vs.map Visit.occupant ++ o :: behind } := by
  obtain ⟨before, hsplit, hvisited⟩ := visited_sweep visit carried c.occupants
  rw [Sweep.settle] at h
  cases hfailure : (sweep visit carried c.occupants).failure with
  | none =>
    -- without a failure the re-allocation succeeds
    rw [hfailure] at h
    cases h
  | some cause =>
    -- the visits before the failure are written back, and the rest is left as it is
    rw [hfailure] at h
    cases h
    obtain ⟨o, behind, hunvisited, hvisit⟩ := exists_unvisited_of_failure hfailure
    rw [hunvisited] at hsplit ⊢
    exact ⟨before, _, _, o, behind, hsplit, hvisited, hfails _ _ hvisit, rfl⟩

/-- **A re-allocation that fails** has left everything as it was, or it was interrupted: then those
visited are as their visits left them, and the others as they were. -/
theorem interrupted_of_reallocate (h : c.reallocate fleet = (c', .error e)) :
    c' = c ∨ ∃ before vs rest, Interrupted fleet c e before vs rest ∧
      c' = { c with occupants := vs.map Visit.occupant ++ rest } := by
  unfold Charger.reallocate at h
  split at h
  · next plugs stepKw capKw hstrategy =>
    split at h
    · next step cap hstep hcap =>
      obtain ⟨before, vs, last, o, behind, hsplit, hvisited, hfails, hc'⟩ :=
        exists_visited_of_failed_sweep (fun _ _ => request?_of_granularVisit_eq_error) h
      exact .inr ⟨before, vs, _, .granular hstrategy hstep hcap hsplit hvisited hfails, hc'⟩
    · -- the step is no power, and nobody was visited
      exact .inl (Prod.mk.inj h).1.symm
    · -- the cap is no power, and nobody was visited
      exact .inl (Prod.mk.inj h).1.symm
  · split at h
    · next offer hoffer =>
      obtain ⟨before, vs, last, o, behind, hsplit, hvisited, hfails, hc'⟩ :=
        exists_visited_of_failed_sweep (fun _ _ => request?_of_flatVisit_eq_error) h
      exact .inr ⟨before, vs, _, .flat hoffer hsplit hvisited hfails, hc'⟩
    · -- the offer could not be computed, and nobody was visited
      exact .inl (Prod.mk.inj h).1.symm

namespace Interrupted

theorem occupants_eq (h : Interrupted fleet c e before vs rest) : c.occupants = before ++ rest := by
  cases h with
  | flat _ hsplit _ _ => exact hsplit
  | granular _ _ _ hsplit _ _ => exact hsplit

/-- The first of those who were not visited cannot answer, whatever it is offered. -/
theorem exists_failing (h : Interrupted fleet c e before vs rest) :
    ∃ o behind, rest = o :: behind ∧ ∀ offer, (o.vehicleIn fleet).request? offer = .error e := by
  cases h with
  | flat _ _ _ hfails => exact ⟨_, _, rfl, hfails⟩
  | granular _ _ _ _ _ hfails => exact ⟨_, _, rfl, hfails⟩

theorem forall₂_revised (h : Interrupted fleet c e before vs rest) :
    List.Forall₂ (Occupant.Revised fleet) before (vs.map Visit.occupant) := by
  rw [List.forall₂_map_right_iff]
  cases h with
  | flat _ _ hvisited _ => exact hvisited.forall₂ fun _ _ _ _ => revised_of_flatVisit
  | granular _ _ _ _ hvisited _ => exact hvisited.forall₂ fun _ _ _ _ => revised_of_granularVisit

end Interrupted

/-! ### Steps in use after an interruption -/

/-- If nobody leaves after all, the steps of those who were to leave are in use together with those
of all others. -/
theorem Visited.stepsInUse_map {budget : ℤ} {step cap : Power} {first last : ℤ}
    {os : List (Occupant n)} (h : Visited (granularVisit fleet budget step cap) first os vs last) :
    stepsInUse step (vs.map Visit.occupant) = stepsInUse step (staying vs) +
      stepsInUse step (os.filter fun o => (o.vehicleIn fleet).isFinished) := by
  induction h with
  | done => simp
  | @next first middle last o v os vs head _ ih =>
    rw [List.map_cons, stepsInUse_cons, ih, staying_cons, List.filter_cons,
      ← (of_granularVisit head).leaving_eq]
    cases hleaving : v.leaving with
    | true =>
      -- who was to leave holds the same steps as before
      have hsame : v.occupant = o := (revised_of_granularVisit head).eq_of_isFinished
        ((of_granularVisit head).leaving_eq ▸ hleaving)
      rw [if_pos rfl, if_pos rfl, stepsInUse_cons, hsame]
      ring
    | false =>
      rw [if_neg Bool.false_ne_true, if_neg Bool.false_ne_true, stepsInUse_cons, add_assoc]

/-- **How far the budget is overdrawn** by an interruption: by no more than the steps of those who
were to leave, unless it was overdrawn further before. -/
theorem Interrupted.stepsInUse_le {plugs : ℤ} {stepKw capKw : Binary64} {step : Power}
    (h : Interrupted fleet c e before vs rest) (hc : c.IsGranted)
    (hstrategy : c.strategy = .granular plugs stepKw capKw)
    (hstep : Power.ofKilowatts? stepKw = .ok step) (hs : 0 < step.watts) :
    stepsInUse step (vs.map Visit.occupant ++ rest) ≤
      max (stepsInUse step c.occupants) (c.grid.watts / step.watts) +
        stepsInUse step (before.filter fun o => (o.vehicleIn fleet).isFinished) := by
  cases h with
  | flat hoffer _ _ _ => exact absurd hoffer (flatOffer_ne_ok hstrategy)
  | @granular plugs' stepKw' capKw' step' cap last before behind vs o hstrategy' hstep' _ hsplit
      hvisited _ =>
    rw [hstrategy] at hstrategy'
    cases hstrategy'
    rw [hstep] at hstep'
    cases hstep'
    have hbefore : ∀ o ∈ before, o.IsWaiting ∨ o.IsPowered :=
      fun o ho => hc o (hsplit ▸ List.mem_append_left _ ho)
    have hcount := hvisited.count_eq
    have hmax := hvisited.count_le_max hs hbefore
    have htotal : stepsInUse step c.occupants =
        stepsInUse step before + stepsInUse step (o :: behind) := by
      rw [hsplit, stepsInUse_append]
    rw [stepsInUse_append, hvisited.stepsInUse_map]
    omega

/-! ### Histories with failures -/

/-- What a call makes of the charger, whether it succeeds or not. -/
theorem charger_of_call (t : Station n) (call : Call n) :
    (t.call call).1.charger = t.charger ∨
      (∃ vehicle id, (t.call call).1.charger = t.charger.occupy vehicle id) ∨
      (t.call call).1.charger = (t.charger.reallocate t.fleet).1 := by
  -- plugging in and re-allocating alone touch the charger, charging changes vehicles
  cases call with
  | plugIn vehicle id =>
    rw [Station.call]
    cases hmade : t.charger.plugIn? vehicle id with
    | error e => exact .inl rfl
    | ok charger => exact .inr (.inl ⟨vehicle, id, (plugIn?_eq_ok_iff.mp hmade).2⟩)
  | reallocate =>
    rw [Station.call]
    obtain ⟨charger, _ | _⟩ := t.charger.reallocate t.fleet
    · exact .inr (.inr rfl)
    · exact .inr (.inr rfl)
  | charge d =>
    rw [Station.call]
    obtain ⟨fleet, _ | _⟩ := t.charger.charge t.fleet d
    · exact .inl rfl
    · exact .inl rfl
  | change vehicle energy unplugAt => exact .inl rfl

/-- The station comes about by any calls from an idle charger, whether they succeed or fail. -/
inductive Reached (i : Installation) : Station n → Prop
  /-- Nothing has happened yet. -/
  | idle (fleet : Fleet n) : Reached i ⟨fleet, .idle i⟩
  /-- One more call. -/
  | call {t : Station n} (h : Reached i t) (c : Call n) : Reached i (t.call c).1

theorem Served.reached {i : Installation} {calls : List (Call n)} {t : Station n}
    (h : Served i calls t) : Reached i t := by
  induction h with
  | idle fleet => exact .idle fleet
  | @call calls t t' _ c hcall ih =>
    have hreached := ih.call c
    rwa [hcall] at hreached

theorem Charger.IsGranted.reallocate (hc : c.IsGranted) (fleet : Fleet n) :
    (c.reallocate fleet).1.IsGranted := by
  cases hmade : c.reallocate fleet with
  | mk c' result =>
    cases result with
    | ok departed =>
      obtain ⟨vs, hvs, rfl, -⟩ := reallocated_of_reallocate hmade
      exact hc.reallocated hvs
    | error e =>
      rcases interrupted_of_reallocate hmade with rfl | ⟨before, vs, rest, hinterrupted, rfl⟩
      · -- it failed before any visit
        exact hc
      · have hsplit := hinterrupted.occupants_eq
        intro o ho
        -- whoever was visited has a new power or the old one, the others have the old one
        rcases List.mem_append.mp ho with hvisited | hrest
        · obtain ⟨o₀, ho₀, hrevised⟩ := exists_left_of_forall₂ hinterrupted.forall₂_revised hvisited
          exact hrevised.granted (hc o₀ (hsplit ▸ List.mem_append_left _ ho₀))
        · exact hc o (hsplit ▸ List.mem_append_right _ hrest)

namespace Reached

variable {i : Installation} {t : Station n}

theorem toInstallation_eq (h : Reached i t) : t.charger.toInstallation = i := by
  induction h with
  | idle fleet => rfl
  | @call t h c ih =>
    rcases charger_of_call t c with heq | ⟨vehicle, id, heq⟩ | heq
    · -- the charger is as it was
      rw [heq, ih]
    · -- one more occupant, at the same installation
      rw [heq]
      exact ih
    · -- a re-allocation, complete or not
      rw [heq, toInstallation_reallocate, ih]

/-- **Whatever has failed**, every occupant has no power or at least the least charge power. -/
theorem isGranted (h : Reached i t) : t.charger.IsGranted := by
  induction h with
  | idle fleet => exact .idle i
  | @call t h c ih =>
    rcases charger_of_call t c with heq | ⟨vehicle, id, heq⟩ | heq
    · rwa [heq]
    · rw [heq]
      exact ih.occupy vehicle id
    · rw [heq]
      exact ih.reallocate t.fleet

/-- **What a re-allocation that fails leaves behind**, at every station that any calls have brought
about, failed ones included.  The occupants are those of before in the same order.  Those in front
were visited: who has finished is as before, and the others have the power that they had or one of
their requests.  From the first one on whose vehicle cannot answer, all are as before.  A granular
charger has no more steps in use than before or than its budget, plus those of the visited ones who
have finished. -/
theorem failed_reallocation (h : Reached i t)
    (hfailed : t.charger.reallocate t.fleet = (c', .error e)) :
    c'.toInstallation = i ∧
    c'.occupants.map Occupant.entry = t.charger.occupants.map Occupant.entry ∧
    ∃ before before' rest, t.charger.occupants = before ++ rest ∧
      c'.occupants = before' ++ rest ∧
      (before = [] ∨ ∃ o behind, rest = o :: behind ∧
        ∀ offer, (o.vehicleIn t.fleet).request? offer = .error e) ∧
      List.Forall₂ (fun o o' => ((o.vehicleIn t.fleet).isFinished = true → o' = o) ∧
        (o' = o ∨ ∃ offer, (o.vehicleIn t.fleet).request? offer = .ok (some o'.allocated)))
        before before' ∧
      ∀ plugs stepKw capKw step, i.strategy = .granular plugs stepKw capKw →
        Power.ofKilowatts? stepKw = .ok step → 0 < step.watts →
        stepsInUse step c'.occupants ≤
          max (stepsInUse step t.charger.occupants) (i.grid.watts / step.watts) +
            stepsInUse step (before.filter fun o => (o.vehicleIn t.fleet).isFinished) := by
  have hi := h.toInstallation_eq
  rcases interrupted_of_reallocate hfailed with rfl | ⟨before, vs, rest, hinterrupted, rfl⟩
  · -- nobody was visited
    refine ⟨hi, rfl, [], [], _, rfl, rfl, .inl rfl, .nil, fun plugs stepKw capKw step _ _ _ => ?_⟩
    rw [List.filter_nil, stepsInUse_nil, add_zero]
    exact le_max_left _ _
  · have hsplit := hinterrupted.occupants_eq
    have hrevised := hinterrupted.forall₂_revised
    refine ⟨hi, ?_, before, vs.map Visit.occupant, rest, hsplit, rfl,
      .inr hinterrupted.exists_failing, ?_, ?_⟩
    · rw [hsplit, List.map_append, List.map_append,
        map_eq_map_of_forall₂ hrevised fun o o' ho => ho.entry_eq.symm]
    · refine hrevised.imp fun o o' ho => ⟨ho.eq_of_isFinished, ?_⟩
      exact ho.allocated.imp_left (Occupant.eq_of_entry_eq ho.entry_eq)
    · intro plugs stepKw capKw step hstrategy hstep hs
      rw [← hi] at hstrategy ⊢
      exact hinterrupted.stepsInUse_le h.isGranted hstrategy hstep hs

end Reached

/-! ### A station to look at -/

/-- Three sample vehicles at a granular charger whose budget is one step of 5 kW.  The first, which
has that step, has finished, and the energy that the third stores is not a number. -/
def faultyTriple : Station 3 where
  fleet := #v[{ Vehicle.sample with energy := ⟨21000⟩ }, .sample,
    { Vehicle.sample with energy := ⟨.nan⟩ }]
  charger := {
    grid := ⟨9000⟩
    strategy := .granular 3 5 11
    occupants := [⟨0, 0, ⟨5000⟩⟩, ⟨1, 1, ⟨0⟩⟩, ⟨2, 2, ⟨0⟩⟩] }

/-- Its charger after a re-allocation. -/
def overdrawnTriple : Charger 3 :=
  { faultyTriple.charger with
    occupants := [⟨0, 0, ⟨5000⟩⟩, ⟨1, 1, ⟨5000⟩⟩, ⟨2, 2, ⟨0⟩⟩] }

theorem served_faultyTriple :
    Served ⟨⟨9000⟩, .granular 3 5 11⟩ [.plugIn 0 0, .reallocate, .plugIn 1 1, .plugIn 2 2,
      .change 0 ⟨21000⟩ ⟨21000⟩, .change 2 ⟨.nan⟩ ⟨21000⟩] faultyTriple := by
  refine served_of_callAll? #v[.sample, .sample, .sample] ?_
  decide +kernel

/-- What the failure leaves of this station: the first two were visited, and the steps in use are at
most one more than the budget. -/
theorem failed_reallocation_faultyTriple :
    faultyTriple.charger.reallocate faultyTriple.fleet =
        (overdrawnTriple, .error (.number .nanToInteger)) ∧
      overdrawnTriple.occupants.map Occupant.entry =
        faultyTriple.charger.occupants.map Occupant.entry ∧
      ∃ before before' rest, faultyTriple.charger.occupants = before ++ rest ∧
        overdrawnTriple.occupants = before' ++ rest ∧
        stepsInUse ⟨5000⟩ overdrawnTriple.occupants ≤
          max (stepsInUse ⟨5000⟩ faultyTriple.charger.occupants) (9000 / 5000) +
            stepsInUse ⟨5000⟩ (before.filter fun o =>
              (o.vehicleIn faultyTriple.fleet).isFinished) := by
  have hfailed : faultyTriple.charger.reallocate faultyTriple.fleet =
      (overdrawnTriple, .error (.number .nanToInteger)) := by
    decide +kernel
  have hstep : Power.ofKilowatts? 5 = .ok ⟨5000⟩ := by decide +kernel
  obtain ⟨-, hentries, before, before', rest, hsplit, hsplit', -, -, hsteps⟩ :=
    served_faultyTriple.reached.failed_reallocation hfailed
  exact ⟨hfailed, hentries, before, before', rest, hsplit, hsplit',
    hsteps 3 5 11 ⟨5000⟩ rfl hstep (by decide)⟩

/-- **A failure that leaves its traces**: after successful calls only, the re-allocation fails, the
second vehicle has power that it did not have, and two steps are in use of a budget of one. -/
theorem overdrawn_after_failure :
    Served ⟨⟨9000⟩, .granular 3 5 11⟩ [.plugIn 0 0, .reallocate, .plugIn 1 1, .plugIn 2 2,
        .change 0 ⟨21000⟩ ⟨21000⟩, .change 2 ⟨.nan⟩ ⟨21000⟩] faultyTriple ∧
      faultyTriple.charger.reallocate faultyTriple.fleet =
        (overdrawnTriple, .error (.number .nanToInteger)) ∧
      overdrawnTriple.occupants ≠ faultyTriple.charger.occupants ∧
      Power.ofKilowatts? 5 = .ok ⟨5000⟩ ∧
      9000 / 5000 < stepsInUse ⟨5000⟩ overdrawnTriple.occupants :=
  ⟨served_faultyTriple, by decide +kernel, by decide, by decide +kernel, by decide⟩

end ChargingSite
