import ChargingSite.Proofs.Charger.Charging

/-!
# What charging delivers

Charging a row of occupants succeeds exactly if each of them can be charged in turn and the energies
add up (`chargeOccupants_eq_ok_iff`), and charging at several chargers adds up what each of them
delivers (`chargeAll_eq_ok_iff`).  Every vehicle gains what it was granted, held for the duration,
and nothing else about it changes (`Charged.energy_eq`, `Charged.get_eq`): a vehicle that is not
charged is as it was.  In which order distinct vehicles are charged does not matter
(`Charged.perm`).
-/

namespace ChargingSite

variable {n : ℕ} {d : Duration}

/-! ### Adding up energy -/

/-- The energy after each of the powers has been held for the duration, one after the other. -/
def Energy.charged? (d : Duration) (start : Energy) (ps : List Power) : Except NumberError Energy :=
  ps.foldlM (fun sum p => do
    let added ← p.over? d
    return sum + added) start

/-- The energy delivered at several chargers, given the powers of their occupants. -/
def delivered? (d : Duration) (start : Energy) (plugs : List (List Power)) :
    Except NumberError Energy :=
  plugs.foldlM (fun sum ps => do
    let delivered ← Energy.zero.charged? d ps
    return sum + delivered) start

theorem Energy.charged?_cons_eq_ok_iff {start total : Energy} {p : Power} {ps : List Power} :
    start.charged? d (p :: ps) = .ok total ↔
      ∃ added, p.over? d = .ok added ∧ (start + added).charged? d ps = .ok total := by
  unfold charged?
  simp only [List.foldlM_cons, bind_eq_ok_iff, pure_eq_ok_iff]
  constructor
  · rintro ⟨_, ⟨added, hadded, rfl⟩, hrest⟩
    exact ⟨added, hadded, hrest⟩
  · rintro ⟨added, hadded, hrest⟩
    exact ⟨_, ⟨added, hadded, rfl⟩, hrest⟩

theorem delivered?_cons_eq_ok_iff {start total : Energy} {ps : List Power}
    {plugs : List (List Power)} :
    delivered? d start (ps :: plugs) = .ok total ↔
      ∃ delivered, Energy.zero.charged? d ps = .ok delivered ∧
        delivered? d (start + delivered) plugs = .ok total := by
  unfold delivered?
  simp only [List.foldlM_cons, bind_eq_ok_iff, pure_eq_ok_iff]
  constructor
  · rintro ⟨_, ⟨delivered, hdelivered, rfl⟩, hrest⟩
    exact ⟨delivered, hdelivered, hrest⟩
  · rintro ⟨delivered, hdelivered, hrest⟩
    exact ⟨_, ⟨delivered, hdelivered, rfl⟩, hrest⟩

/-- Chargers with nobody plugged in deliver nothing. -/
theorem delivered?_of_forall_nil {plugs : List (List Power)} (h : ∀ ps ∈ plugs, ps = []) :
    delivered? d .zero plugs = .ok .zero := by
  induction plugs with
  | nil => rfl
  | cons ps plugs ih =>
    obtain ⟨rfl, hrest⟩ := List.forall_mem_cons.mp h
    have hnothing : Energy.zero + Energy.zero = Energy.zero := by decide +kernel
    refine delivered?_cons_eq_ok_iff.mpr ⟨.zero, rfl, ?_⟩
    rw [hnothing]
    exact ih hrest

/-! ### Charging that succeeds -/

theorem charged_nil_iff {fleet fleet' : Fleet n} : Charged d [] fleet fleet' ↔ fleet' = fleet := by
  constructor
  · rintro ⟨⟩
    rfl
  · rintro rfl
    exact .done _

theorem charged_cons_iff {o : Occupant n} {os : List (Occupant n)} {fleet fleet' : Fleet n} :
    Charged d (o :: os) fleet fleet' ↔ ∃ v added,
      (o.vehicleIn fleet).charge? o.allocated d = .ok (v, added) ∧
        Charged d os (fleet.set o.vehicle v o.vehicle.isLt) fleet' := by
  constructor
  · rintro (_ | ⟨head, tail⟩)
    exact ⟨_, _, head, tail⟩
  · rintro ⟨v, added, head, tail⟩
    exact .next head tail

/-- Charging one occupant adds what it is granted, held for the duration, to its vehicle. -/
theorem Charged.exists_singleton {o : Occupant n} {fleet fleet' : Fleet n}
    (h : Charged d [o] fleet fleet') :
    ∃ added, o.allocated.over? d = .ok added ∧ fleet' = fleet.set o.vehicle
      { o.vehicleIn fleet with energy := (o.vehicleIn fleet).energy + added } o.vehicle.isLt := by
  obtain ⟨v, added, hcharge, hrest⟩ := charged_cons_iff.mp h
  obtain ⟨-, hadded, rfl⟩ := Vehicle.charge?_eq_ok_iff.mp hcharge
  exact ⟨added, hadded, charged_nil_iff.mp hrest⟩

theorem Charged.append {os os' : List (Occupant n)} {fleet fleet' fleet'' : Fleet n}
    (h : Charged d os fleet fleet') (h' : Charged d os' fleet' fleet'') :
    Charged d (os ++ os') fleet fleet'' := by
  induction h with
  | done => exact h'
  | next head _ ih => exact .next head (ih h')

theorem charged_append_iff {os os' : List (Occupant n)} {fleet fleet' : Fleet n} :
    Charged d (os ++ os') fleet fleet' ↔
      ∃ between, Charged d os fleet between ∧ Charged d os' between fleet' := by
  constructor
  · intro h
    induction os generalizing fleet with
    | nil => exact ⟨fleet, .done fleet, h⟩
    | cons o os ih =>
      obtain ⟨v, added, head, tail⟩ := charged_cons_iff.mp h
      obtain ⟨between, hfirst, hsecond⟩ := ih tail
      exact ⟨between, .next head hfirst, hsecond⟩
  · rintro ⟨between, hfirst, hsecond⟩
    exact hfirst.append hsecond

theorem chargeOccupants_cons (o : Occupant n) (os : List (Occupant n)) (fleet : Fleet n)
    (sum : Energy) :
    Charger.chargeOccupants d (o :: os) fleet sum =
      match (o.vehicleIn fleet).charge? o.allocated d with
      | .error e => (fleet, .error e)
      | .ok (v, added) =>
        Charger.chargeOccupants d os (fleet.set o.vehicle v o.vehicle.isLt) (sum + added) := rfl

/-- **Charging a row of occupants** succeeds if each can be charged in turn, and adds up what they
are granted. -/
theorem chargeOccupants_eq_ok_iff {os : List (Occupant n)} {fleet fleet' : Fleet n}
    {sum total : Energy} :
    Charger.chargeOccupants d os fleet sum = (fleet', .ok total) ↔
      Charged d os fleet fleet' ∧ sum.charged? d (os.map Occupant.allocated) = .ok total := by
  induction os generalizing fleet sum with
  | nil =>
    constructor
    · intro h
      cases h
      exact ⟨.done _, rfl⟩
    · rintro ⟨⟨⟩, htotal⟩
      cases htotal
      rfl
  | cons o os ih =>
    rw [chargeOccupants_cons, charged_cons_iff, List.map_cons, Energy.charged?_cons_eq_ok_iff]
    constructor
    · intro h
      -- charging the first one must succeed, and has added what the sum gets
      cases hcharge : (o.vehicleIn fleet).charge? o.allocated d with
      | error e => rw [hcharge] at h; cases h
      | ok made =>
        rw [hcharge] at h
        obtain ⟨hcharged, htotal⟩ := ih.mp h
        have hadded := (Vehicle.charge?_eq_ok_iff.mp hcharge).2.1
        exact ⟨⟨_, _, rfl, hcharged⟩, _, hadded, htotal⟩
    · rintro ⟨⟨v, added, hcharge, hcharged⟩, added', hadded', htotal⟩
      -- the energy added to the vehicle is the energy added to the sum
      have hadded := (Vehicle.charge?_eq_ok_iff.mp hcharge).2.1
      rw [hadded] at hadded'
      cases hadded'
      rw [hcharge]
      exact ih.mpr ⟨hcharged, htotal⟩

theorem Charged.exists_charged? {os : List (Occupant n)} {fleet fleet' : Fleet n}
    (h : Charged d os fleet fleet') (start : Energy) :
    ∃ total, start.charged? d (os.map Occupant.allocated) = .ok total := by
  induction h generalizing start with
  | done => exact ⟨start, rfl⟩
  | next head _ ih =>
    obtain ⟨-, hadded, -⟩ := Vehicle.charge?_eq_ok_iff.mp head
    obtain ⟨total, htotal⟩ := ih (start + _)
    exact ⟨total, Energy.charged?_cons_eq_ok_iff.mpr ⟨_, hadded, htotal⟩⟩

/-- **Charging at several chargers** adds up what each of them delivers. -/
theorem chargeAll_eq_ok_iff {cs : List (Charger n)} {fleet fleet' : Fleet n} {sum total : Energy} :
    chargeAll d cs fleet sum = (fleet', .ok total) ↔
      Charged d (cs.flatMap Charger.occupants) fleet fleet' ∧
        delivered? d sum (cs.map fun c => c.occupants.map Occupant.allocated) = .ok total := by
  induction cs generalizing fleet sum with
  | nil =>
    constructor
    · intro h
      cases h
      exact ⟨.done _, rfl⟩
    · rintro ⟨⟨⟩, htotal⟩
      cases htotal
      rfl
  | cons c cs ih =>
    rw [chargeAll, List.flatMap_cons, charged_append_iff, List.map_cons, delivered?_cons_eq_ok_iff]
    constructor
    · intro h
      -- the first charger's sum is added up on its own, from zero
      cases hcharge : c.charge fleet d with
      | mk between result =>
        cases result with
        | error e => rw [hcharge] at h; cases h
        | ok delivered =>
          rw [hcharge] at h
          obtain ⟨hrest, htotal⟩ := ih.mp h
          obtain ⟨hfirst, hdelivered⟩ := chargeOccupants_eq_ok_iff.mp hcharge
          exact ⟨⟨between, hfirst, hrest⟩, delivered, hdelivered, htotal⟩
    · rintro ⟨⟨between, hfirst, hrest⟩, delivered, hdelivered, htotal⟩
      have hcharge : c.charge fleet d = (between, .ok delivered) :=
        chargeOccupants_eq_ok_iff.mpr ⟨hfirst, hdelivered⟩
      rw [hcharge]
      exact ih.mpr ⟨hrest, htotal⟩

/-- Occupants who can be charged in turn can be charged charger by charger. -/
theorem Charged.exists_chargeAll_eq {cs : List (Charger n)} {fleet fleet' : Fleet n}
    (h : Charged d (cs.flatMap Charger.occupants) fleet fleet') (sum : Energy) :
    ∃ total, chargeAll d cs fleet sum = (fleet', .ok total) := by
  simp only [chargeAll_eq_ok_iff, h, true_and]
  induction cs generalizing fleet sum with
  | nil => exact ⟨sum, rfl⟩
  | cons c cs ih =>
    rw [List.flatMap_cons] at h
    obtain ⟨between, hfirst, hrest⟩ := charged_append_iff.mp h
    obtain ⟨delivered, hdelivered⟩ := hfirst.exists_charged? .zero
    obtain ⟨total, htotal⟩ := ih hrest (sum + delivered)
    exact ⟨total, delivered?_cons_eq_ok_iff.mpr ⟨delivered, hdelivered, htotal⟩⟩

/-! ### What one vehicle gains -/

namespace Charged

variable {os : List (Occupant n)} {fleet fleet' : Fleet n}

/-- **What a vehicle gains** is what its occupants are granted, held for the duration. -/
theorem energy_eq (h : Charged d os fleet fleet') (w : Fin n) :
    (fleet.get w).energy.charged? d ((os.filter fun o => o.vehicle = w).map Occupant.allocated) =
      .ok (fleet'.get w).energy := by
  induction h with
  | done => rfl
  | @next o v added os fleet fleet' head _ ih =>
    -- only visits of `w` change its energy
    obtain ⟨-, hadded, rfl⟩ := Vehicle.charge?_eq_ok_iff.mp head
    by_cases hw : o.vehicle = w
    · subst hw
      rw [get_set_self] at ih
      rw [List.filter_cons_of_pos (by simp), List.map_cons,
        Energy.charged?_cons_eq_ok_iff]
      exact ⟨added, hadded, ih⟩
    · rw [get_set_of_ne hw] at ih
      rwa [List.filter_cons_of_neg (by simpa using hw)]

/-- Nothing but the energy of a vehicle changes. -/
theorem get_eq (h : Charged d os fleet fleet') (w : Fin n) :
    fleet'.get w = { fleet.get w with energy := (fleet'.get w).energy } := by
  induction h with
  | done => rfl
  | @next o v added os fleet fleet' head _ ih =>
    obtain ⟨-, -, rfl⟩ := Vehicle.charge?_eq_ok_iff.mp head
    by_cases hw : o.vehicle = w
    · subst hw
      rw [get_set_self] at ih
      exact ih
    · rwa [get_set_of_ne hw] at ih

/-- A vehicle that is not charged is as it was. -/
theorem get_eq_of_forall_ne (h : Charged d os fleet fleet') {w : Fin n}
    (hw : ∀ o ∈ os, o.vehicle ≠ w) : fleet'.get w = fleet.get w := by
  have henergy := h.energy_eq w
  rw [List.filter_eq_nil_iff.mpr fun o ho => by simpa using hw o ho] at henergy
  rw [h.get_eq w, ← Except.ok.inj henergy]

end Charged

/-! ### The order of charging -/

theorem charged_swap {o o' : Occupant n} {os : List (Occupant n)} {fleet fleet' : Fleet n}
    (hne : o.vehicle ≠ o'.vehicle) (h : Charged d (o :: o' :: os) fleet fleet') :
    Charged d (o' :: o :: os) fleet fleet' := by
  obtain ⟨v, added, hfirst, hrest⟩ := charged_cons_iff.mp h
  obtain ⟨v', added', hsecond, hothers⟩ := charged_cons_iff.mp hrest
  rw [Vector.set_comm v v' fun heq => hne (Fin.ext heq)] at hothers
  -- charging one vehicle leaves the other as it is
  have hother : o'.vehicleIn (fleet.set o.vehicle v o.vehicle.isLt) = o'.vehicleIn fleet :=
    get_set_of_ne hne fleet v
  have hother' : o.vehicleIn (fleet.set o'.vehicle v' o'.vehicle.isLt) = o.vehicleIn fleet :=
    get_set_of_ne hne.symm fleet v'
  rw [hother] at hsecond
  rw [← hother'] at hfirst
  exact .next hsecond (.next hfirst hothers)

/-- **The order of charging does not matter** if nobody is charged twice. -/
theorem Charged.perm {os os' : List (Occupant n)} {fleet fleet' : Fleet n}
    (h : Charged d os fleet fleet') (hperm : os.Perm os')
    (hdistinct : (os.map Occupant.vehicle).Nodup) : Charged d os' fleet fleet' := by
  induction hperm generalizing fleet with
  | nil => exact h
  | cons o _ ih =>
    obtain ⟨v, added, head, tail⟩ := charged_cons_iff.mp h
    -- the first one is charged before the others in both orders
    exact .next head (ih tail (List.nodup_cons.mp hdistinct).2)
  | swap o o' os =>
    -- two neighbours have different vehicles, so the order of their charges does not matter
    refine charged_swap (fun heq => ?_) h
    exact (List.nodup_cons.mp hdistinct).1 (heq ▸ List.mem_cons_self)
  | trans hfirst _ ih ih' =>
    exact ih' (ih h hdistinct) ((hfirst.map _).nodup_iff.mp hdistinct)

end ChargingSite
