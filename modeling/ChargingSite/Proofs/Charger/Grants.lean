import ChargingSite.Proofs.Charger.Delivery

/-!
# Granted powers

Whatever the strategy, an occupant has either no power or at least the least charge power: whoever
is plugged in starts without power, every request is lifted to the least charge power, and a grant
is a request or what the plug had before (`Charger.IsGranted.reallocated`).  So nobody is ever
charged with a negative power.  No other phase of a step fails for that reason
(`reallocateAll_spares`), and charging does not either where no granted power is negative
(`chargeAll_spares`).
-/

namespace ChargingSite

variable {n : ℕ} {α β : Type}

/-! ### Chargers with granted powers only -/

/-- Every occupant has no power, or at least the least charge power. -/
def Charger.IsGranted (c : Charger n) : Prop :=
  ∀ o ∈ c.occupants, o.IsWaiting ∨ o.IsPowered

namespace Charger.IsGranted

variable {c : Charger n}

theorem idle (i : Installation) : (Charger.idle i : Charger n).IsGranted := by
  intro o ho
  cases ho

theorem occupy (h : c.IsGranted) (vehicle : Fin n) (id : ℤ) : (c.occupy vehicle id).IsGranted := by
  intro o ho
  rcases Charger.mem_occupy ho with hold | hnew
  · exact h o hold
  · exact .inl hnew

/-- **Re-allocation grants nothing between zero and the least charge power**, whatever the
strategy. -/
theorem reallocated {fleet : Fleet n} {vs : List (Visit n)} (h : c.IsGranted)
    (hvs : Reallocated fleet c vs) : Charger.IsGranted { c with occupants := staying vs } := by
  intro o ho
  cases hvs with
  | flat _ hvisited => exact .inr (isPowered_of_visited_flat hvisited o ho)
  | granular _ _ _ hvisited =>
    obtain ⟨v, hv, -, rfl⟩ := exists_visit_of_mem_staying ho
    exact hvisited.granted h v hv

/-- A granted power is not negative. -/
theorem nonneg (h : c.IsGranted) : ∀ o ∈ c.occupants, 0 ≤ o.allocated.watts := by
  intro o ho
  rcases h o ho with hwaiting | hpowered
  · exact hwaiting.ge
  · exact hpowered.watts_pos.le

end Charger.IsGranted

/-! ### Failures for other reasons -/

/-- The computation does not fail because somebody was to be charged with a negative power. -/
def Spares (x : Except SiteError α) : Prop :=
  ∀ model kilowatts, x ≠ .error (.negativePower model kilowatts)

theorem spares_ok (a : α) : Spares (.ok a) :=
  fun _ _ => nofun

theorem spares_liftNumber (x : Except NumberError α) : Spares (liftNumber x) := by
  intro model kilowatts h
  obtain ⟨cause, -, hcause⟩ := liftNumber_eq_error_iff.mp h
  cases hcause

/-- What an error is the cause of does not matter. -/
theorem Spares.of_error {x : Except SiteError α} {e : SiteError} (h : Spares x)
    (he : x = .error e) : Spares (.error e : Except SiteError β) := by
  intro model kilowatts heq
  cases heq
  exact h model kilowatts he

theorem Spares.bind {x : Except SiteError α} {f : α → Except SiteError β} (hx : Spares x)
    (hf : ∀ a, Spares (f a)) : Spares (x >>= f) := by
  intro model kilowatts h
  rcases bind_eq_error_iff.mp h with hfirst | ⟨a, -, hsecond⟩
  · exact hx model kilowatts hfirst
  · exact hf a model kilowatts hsecond

/-! ### Requests and re-allocations -/

variable {fleet : Fleet n}

theorem powerAt?_spares (c : ChargeCurve) (s : Percentage) : Spares (c.powerAt? s) := by
  unfold ChargeCurve.powerAt?
  cases c.locate s with
  | outside => exact fun _ _ => nofun
  | sample p => exact spares_ok _
  | segment a b => exact spares_liftNumber _

theorem request?_spares (v : Vehicle) (offer : Power) : Spares (v.request? offer) := by
  unfold Vehicle.request?
  by_cases hfinished : v.isFinished = true
  · rw [if_pos hfinished]
    exact spares_ok _
  · rw [if_neg hfinished]
    exact (spares_liftNumber _).bind fun _ => (powerAt?_spares _ _).bind fun _ => spares_ok _

theorem flatVisit_spares (offer : Power) (u : Unit) (o : Occupant n) :
    Spares (flatVisit fleet offer u o) := by
  refine (request?_spares _ _).bind fun answer => ?_
  cases answer <;> exact spares_ok _

theorem granularVisit_spares (budget : ℤ) (step cap : Power) (inUse : ℤ) (o : Occupant n) :
    Spares (granularVisit fleet budget step cap inUse o) := by
  refine (request?_spares _ _).bind fun answer => ?_
  cases answer with
  | none => exact spares_ok _
  | some request =>
    dsimp only
    split <;> exact spares_ok _

theorem settle_spares {σ : Type} {visit : σ → Occupant n → Except SiteError (Visit n × σ)}
    (hvisit : ∀ carried o, Spares (visit carried o)) (carried : σ) (os : List (Occupant n)) :
    Spares (sweep visit carried os).settle.2 := by
  have hfailure : ∀ model kilowatts,
      (sweep visit carried os).failure ≠ some (.negativePower model kilowatts) := by
    intro model kilowatts
    induction os generalizing carried with
    | nil => exact nofun
    | cons o os ih =>
      rw [sweep]
      cases hmade : visit carried o with
      | error e =>
        intro h
        cases h
        -- the sweep ends here, with the failure of this visit
        exact hvisit carried o model kilowatts hmade
      | ok made => exact ih made.2
  unfold Sweep.settle
  cases hend : (sweep visit carried os).failure with
  | none => exact spares_ok _
  | some e =>
    -- what a sweep fails with is what one of its visits failed with
    intro model kilowatts h
    cases h
    exact hfailure model kilowatts hend

theorem flatOffer_spares (c : Charger n) : Spares c.flatOffer := by
  unfold Charger.flatOffer
  split
  · exact spares_ok _
  · refine (spares_liftNumber _).bind fun share => ?_
    split
    · exact spares_ok _
    · exact spares_ok _
    · exact fun _ _ => nofun
    · exact fun _ _ => nofun

theorem reallocate_spares (c : Charger n) : Spares (c.reallocate fleet).2 := by
  unfold Charger.reallocate
  split
  · split
    · -- one visit after the other
      exact settle_spares (granularVisit_spares _ _ _) _ _
    · -- the step in kilowatts is no power
      exact fun _ _ => nofun
    · -- the cap in kilowatts is no power
      exact fun _ _ => nofun
  · cases hoffer : c.flatOffer with
    | ok offer => exact settle_spares (flatVisit_spares offer) _ _
    | error e => exact (flatOffer_spares c).of_error hoffer

theorem reallocateAll_spares (cs : List (Charger n)) : Spares (reallocateAll fleet cs).2.1 := by
  induction cs with
  | nil => exact spares_ok _
  | cons c cs ih =>
    rw [reallocateAll]
    cases hmade : c.reallocate fleet with
    | mk c' result =>
      cases result with
      | error e =>
        exact (reallocate_spares c).of_error (congrArg Prod.snd hmade)
      | ok departed => exact ih

/-! ### Charges -/

variable {d : Duration}

theorem charge?_spares (v : Vehicle) {p : Power} (hp : 0 ≤ p.watts) :
    Spares (v.charge? p d) := by
  unfold Vehicle.charge?
  rw [if_neg (not_lt.mpr hp)]
  exact (spares_liftNumber _).bind fun _ => spares_ok _

theorem chargeOccupants_spares {os : List (Occupant n)} (fleet : Fleet n) (sum : Energy)
    (hos : ∀ o ∈ os, 0 ≤ o.allocated.watts) :
    Spares (Charger.chargeOccupants d os fleet sum).2 := by
  induction os generalizing fleet sum with
  | nil => exact spares_ok _
  | cons o os ih =>
    obtain ⟨ho, hos⟩ := List.forall_mem_cons.mp hos
    rw [chargeOccupants_cons]
    cases hcharge : (o.vehicleIn fleet).charge? o.allocated d with
    | error e => exact (charge?_spares _ ho).of_error hcharge
    | ok made => exact ih _ _ hos

theorem Charger.IsGranted.charge_spares {c : Charger n} (hc : c.IsGranted) (fleet : Fleet n)
    (d : Duration) : Spares (c.charge fleet d).2 :=
  chargeOccupants_spares fleet .zero hc.nonneg

theorem chargeAll_spares {cs : List (Charger n)} (fleet : Fleet n) (sum : Energy)
    (hcs : ∀ c ∈ cs, c.IsGranted) : Spares (chargeAll d cs fleet sum).2 := by
  induction cs generalizing fleet sum with
  | nil => exact spares_ok _
  | cons c cs ih =>
    obtain ⟨hc, hcs⟩ := List.forall_mem_cons.mp hcs
    rw [chargeAll]
    cases hcharge : c.charge fleet d with
    | mk fleet' result =>
      cases result with
      | error e => exact (hc.charge_spares fleet d).of_error (congrArg Prod.snd hcharge)
      | ok delivered => exact ih fleet' _ hcs

end ChargingSite
