import ChargingSite.Proofs.Simulation.Step
import Mathlib.Data.List.Perm.Basic

/-!
# Banks of chargers

An exclusive charger and a split charger offer every plug the same power, whoever is plugged in
(`Installation.Offers`).  Several such chargers with the same offer are a bank, and for its
occupants it makes no difference at which of the chargers they are plugged in: who is let in depends
on the number of plugs only (`Filled.rest_eq`), and each occupant answers the offer on its own
(`Answers`).  So two banks with as many plugs and the same occupants have the same occupants after
admission (`SameBank.filled`) and after re-allocation (`SameBank.reallocated`), though not in the
same places.
-/

namespace ChargingSite

variable {n : ℕ} {offer : Power} {fleet : Fleet n}

/-! ### Offers and answers -/

/-- Whoever is plugged in, every plug is offered this power. -/
def Installation.Offers (n : ℕ) (i : Installation) (offer : Power) : Prop :=
  ∀ occupants : List (Occupant n), (Charger.mk i occupants).flatOffer = .ok offer

theorem offers_exclusive (grid : Power) : (Installation.mk grid .exclusive).Offers n grid :=
  fun _ => rfl

theorem offers_split (grid : Power) {plugs : ℤ} (hplugs : plugs ≠ 0) :
    (Installation.mk grid (.split plugs)).Offers n ⟨grid.watts.tdiv plugs⟩ := by
  intro occupants
  have hshare : liftNumber (grid.divInt? plugs) = .ok ⟨grid.watts.tdiv plugs⟩ :=
    liftNumber_eq_ok_iff.mpr (Power.divInt?_eq_ok_iff.mpr ⟨hplugs, rfl⟩)
  exact bind_eq_ok_iff.mpr ⟨_, hshare, rfl⟩

/-- What comes of offering an occupant power under a flat strategy. -/
def Answers (fleet : Fleet n) (offer : Power) (o : Occupant n) (v : Visit n) : Prop :=
  flatVisit fleet offer () o = .ok (v, ())

theorem visited_flat_iff {os : List (Occupant n)} {vs : List (Visit n)} :
    Visited (flatVisit fleet offer) () os vs () ↔ List.Forall₂ (Answers fleet offer) os vs := by
  constructor
  · intro h
    exact h.forall₂ fun _ _ _ _ => id
  · intro h
    induction h with
    | nil => exact .done ()
    | cons head _ ih => exact .next head ih

theorem Charger.reallocatesTo_iff_of_offers {c c' : Charger n}
    (hc : c.toInstallation.Offers n offer) :
    c.ReallocatesTo fleet c' ↔ ∃ vs, List.Forall₂ (Answers fleet offer) c.occupants vs ∧
      c' = { c with occupants := staying vs } := by
  have hoffer : c.flatOffer = .ok offer := hc c.occupants
  constructor
  · rintro ⟨vs, hvs, rfl⟩
    cases hvs with
    | flat hoffer' hvisited =>
      -- the offer is the same for every occupant, so a visit is an answer to it
      rw [hoffer] at hoffer'
      cases hoffer'
      exact ⟨vs, visited_flat_iff.mp hvisited, rfl⟩
    | granular hstrategy => exact absurd hoffer (flatOffer_ne_ok hstrategy)
  · rintro ⟨vs, hvs, rfl⟩
    exact ⟨vs, .flat hoffer (visited_flat_iff.mpr hvs), rfl⟩

/-! ### Free plugs -/

/-- The number of free plugs. -/
def freePlugs (cs : List (Charger n)) : ℕ :=
  (cs.map fun c => c.strategy.plugs.toNat - c.occupants.length).sum

theorem freePlugs_cons (c : Charger n) (cs : List (Charger n)) :
    freePlugs (c :: cs) = c.strategy.plugs.toNat - c.occupants.length + freePlugs cs := by
  rw [freePlugs, List.map_cons, List.sum_cons, freePlugs]

/-- A charger lets in no more than it has free plugs, and as many if none is free afterwards. -/
theorem Charger.length_admitted {c c' : Charger n} {admitted : List (Ticket n)}
    (h : c.plugInAll? admitted = .ok c')
    (hfits : c.occupants.length ≤ c.strategy.plugs.toNat) :
    admitted.length ≤ c.strategy.plugs.toNat - c.occupants.length ∧
      (c'.hasFreePlug = false →
        c.strategy.plugs.toNat - c.occupants.length = admitted.length) := by
  have hle := length_le_of_plugInAll? h hfits
  obtain rfl := eq_receive_of_plugInAll? h
  have hlength : (c.receive admitted).occupants.length = c.occupants.length + admitted.length := by
    rw [receive, List.length_append, List.length_map]
  rw [hlength] at hle
  have hle : c.occupants.length + admitted.length ≤ c.strategy.plugs.toNat := hle
  refine ⟨by omega, fun hoccupied => ?_⟩
  rw [hasFreePlug, decide_eq_false_iff_not, hlength] at hoccupied
  have hoccupied : ¬((c.occupants.length + admitted.length : ℕ) : ℤ) < c.strategy.plugs := hoccupied
  omega

/-- **Who is let in** is the front of the line, as far as there are free plugs. -/
theorem Filled.rest_eq {cs cs' : List (Charger n)} {queue rest : List (Ticket n)}
    (h : Filled cs queue cs' rest)
    (hfits : ∀ c ∈ cs, c.occupants.length ≤ c.strategy.plugs.toNat) :
    rest = queue.drop (freePlugs cs) := by
  induction h with
  | done => rfl
  | @next c c' cs cs' admitted left rest hplugged hfull _ ih =>
    obtain ⟨hfirst, hfits⟩ := List.forall_mem_cons.mp hfits
    obtain ⟨hle, hcount⟩ := Charger.length_admitted hplugged hfirst
    rw [ih hfits, freePlugs_cons]
    rcases hfull with rfl | hoccupied
    · -- everybody is let in at the first charger
      rw [List.drop_nil, List.append_nil, eq_comm, List.drop_eq_nil_iff]
      omega
    · rw [hcount hoccupied, List.drop_length_add_append]

/-! ### Banks -/

/-- Chargers with so many plugs together, all of which are offered the same power. -/
structure IsBank (offer : Power) (plugs : ℕ) (cs : List (Charger n)) : Prop where
  offers : ∀ c ∈ cs, c.toInstallation.Offers n offer
  length_le : ∀ c ∈ cs, c.occupants.length ≤ c.strategy.plugs.toNat
  plugs_eq : (cs.map fun c => c.strategy.plugs.toNat).sum = plugs

namespace IsBank

variable {plugs : ℕ} {cs cs' : List (Charger n)} {queue rest : List (Ticket n)}

theorem ne_nil (h : IsBank offer plugs cs) (hplugs : 1 ≤ plugs) : cs ≠ [] := by
  rintro rfl
  have hnone : 0 = plugs := h.plugs_eq
  omega

theorem freePlugs_add_length (h : IsBank offer plugs cs) :
    freePlugs cs + (cs.flatMap Charger.occupants).length = plugs := by
  rw [← h.plugs_eq]
  have hfits := h.length_le
  -- only that nobody sits without a plug is needed, charger by charger
  clear h
  induction cs with
  | nil => rfl
  | cons c cs ih =>
    obtain ⟨hfirst, hfits⟩ := List.forall_mem_cons.mp hfits
    have hrest := ih hfits
    rw [freePlugs_cons, List.flatMap_cons, List.length_append, List.map_cons, List.sum_cons]
    omega

/-- A bank stays a bank while its chargers keep their installations and have room for everybody. -/
theorem of_forall₂ (h : IsBank offer plugs cs)
    (hcs : List.Forall₂ (fun c c' => Charger.toInstallation c' = Charger.toInstallation c ∧
      c'.occupants.length ≤ c'.strategy.plugs.toNat) cs cs') : IsBank offer plugs cs' where
  offers c' hc' := by
    obtain ⟨c, hc, hsame, -⟩ := exists_left_of_forall₂ hcs hc'
    rw [hsame]
    exact h.offers c hc
  length_le c' hc' := by
    obtain ⟨c, hc, -, hfits⟩ := exists_left_of_forall₂ hcs hc'
    exact hfits
  plugs_eq := by
    rw [← h.plugs_eq, map_eq_map_of_forall₂ hcs fun c c' hcc' => ?_]
    rw [hcc'.1]

/-- Admission keeps a bank, and lets in the front of the line as far as there are plugs. -/
theorem filled (h : IsBank offer plugs cs) (hfilled : Filled cs queue cs' rest) :
    IsBank offer plugs cs' ∧
      rest = queue.drop (plugs - (cs.flatMap Charger.occupants).length) := by
  constructor
  · -- plugging in changes no installation
    refine h.of_forall₂ (((List.forall₂_and_left _ _).mpr ⟨h.length_le, hfilled.forall₂⟩).imp ?_)
    rintro c c' ⟨hfits, admitted, -, hplugged⟩
    refine ⟨?_, Charger.length_le_of_plugInAll? hplugged hfits⟩
    rw [Charger.eq_receive_of_plugInAll? hplugged]
    rfl
  · -- plugs that are free are all plugs but those of the occupants
    rw [hfilled.rest_eq h.length_le, ← h.freePlugs_add_length, Nat.add_sub_cancel]

theorem reallocated (h : IsBank offer plugs cs)
    (hreallocated : List.Forall₂ (Charger.ReallocatesTo fleet) cs cs') :
    IsBank offer plugs cs' := by
  refine h.of_forall₂
    (((List.forall₂_and_left _ _).mpr ⟨h.length_le, hreallocated⟩).imp ?_)
  rintro c c' ⟨hfits, vs, hvs, rfl⟩
  exact ⟨rfl, (length_staying_le hvs.forall₂).trans hfits⟩

/-- **Re-allocation of a bank** asks each of its occupants, and keeps those who stay. -/
theorem exists_answers (h : IsBank offer plugs cs)
    (hreallocated : List.Forall₂ (Charger.ReallocatesTo fleet) cs cs') :
    ∃ vs, List.Forall₂ (Answers fleet offer) (cs.flatMap Charger.occupants) vs ∧
      cs'.flatMap Charger.occupants = staying vs := by
  -- only the offer is needed, which every charger makes
  have hoffers := h.offers
  clear h
  induction hreallocated with
  | nil => exact ⟨[], .nil, rfl⟩
  | cons head _ ih =>
    obtain ⟨hfirst, hoffers⟩ := List.forall_mem_cons.mp hoffers
    obtain ⟨vs, hvs, rfl⟩ := (Charger.reallocatesTo_iff_of_offers hfirst).mp head
    obtain ⟨vs', hvs', hstaying⟩ := ih hoffers
    refine ⟨vs ++ vs', List.rel_append hvs hvs', ?_⟩
    rw [List.flatMap_cons, hstaying, staying_append]

/-- Where all occupants of a bank answer, its re-allocation succeeds. -/
theorem exists_reallocated (h : IsBank offer plugs cs) {vs : List (Visit n)}
    (hvs : List.Forall₂ (Answers fleet offer) (cs.flatMap Charger.occupants) vs) :
    ∃ cs', List.Forall₂ (Charger.ReallocatesTo fleet) cs cs' ∧
      cs'.flatMap Charger.occupants = staying vs := by
  obtain ⟨groups, rfl, hgroups⟩ := exists_groups_of_forall₂ hvs
  have hoffers := h.offers
  clear h hvs
  induction hgroups with
  | nil => exact ⟨[], .nil, rfl⟩
  | @cons c vs cs groups head _ ih =>
    obtain ⟨hfirst, hoffers⟩ := List.forall_mem_cons.mp hoffers
    obtain ⟨cs', hcs', hstaying⟩ := ih hoffers
    have hc' := (Charger.reallocatesTo_iff_of_offers hfirst).mpr ⟨vs, head, rfl⟩
    refine ⟨_ :: cs', .cons hc' hcs', ?_⟩
    rw [List.flatMap_cons, hstaying, List.flatten_cons, staying_append]

end IsBank

/-! ### Two banks with the same occupants -/

/-- Two banks with as many plugs, the same offer, and the same occupants, though not in the same
places. -/
structure SameBank (offer : Power) (plugs : ℕ) (as bs : List (Charger n)) : Prop where
  left : IsBank offer plugs as
  right : IsBank offer plugs bs
  perm : (as.flatMap Charger.occupants).Perm (bs.flatMap Charger.occupants)

namespace SameBank

variable {plugs : ℕ} {as as' bs : List (Charger n)} {queue rest : List (Ticket n)}

theorem symm (h : SameBank offer plugs as bs) : SameBank offer plugs bs as :=
  ⟨h.right, h.left, h.perm.symm⟩

/-- **Admission** lets the same in at both banks. -/
theorem filled (h : SameBank offer plugs as bs) (hfilled : Filled as queue as' rest) :
    ∃ bs', Filled bs queue bs' rest ∧ SameBank offer plugs as' bs' := by
  obtain ⟨has', hrest⟩ := h.left.filled hfilled
  have hfilled' := filled_fillAllPlugs bs queue
  obtain ⟨hbs', hrest'⟩ := h.right.filled hfilled'
  -- the same number of plugs is free, so as many are let in
  rw [← h.perm.length_eq, ← hrest] at hrest'
  rw [hrest'] at hfilled'
  refine ⟨_, hfilled', has', hbs', ?_⟩
  obtain ⟨admitted, hqueue, hperm⟩ := hfilled.perm
  obtain ⟨admitted', hqueue', hperm'⟩ := hfilled'.perm
  obtain rfl : admitted = admitted' := List.append_cancel_right (hqueue.symm.trans hqueue')
  exact (hperm.trans (h.perm.append_right _)).trans hperm'.symm

/-- **Re-allocation** succeeds at both banks or at neither, and keeps the same occupants with the
same power. -/
theorem reallocated (h : SameBank offer plugs as bs)
    (hreallocated : List.Forall₂ (Charger.ReallocatesTo fleet) as as') :
    ∃ bs', List.Forall₂ (Charger.ReallocatesTo fleet) bs bs' ∧ SameBank offer plugs as' bs' := by
  obtain ⟨vs, hvs, hstaying⟩ := h.left.exists_answers hreallocated
  -- the occupants give the same answers in the order of the other bank
  obtain ⟨vs', hvs', hperm⟩ := List.perm_comp_forall₂ h.perm.symm hvs
  obtain ⟨bs', hbs', hstaying'⟩ := h.right.exists_reallocated hvs'
  refine ⟨bs', hbs', h.left.reallocated hreallocated, h.right.reallocated hbs', ?_⟩
  rw [hstaying, hstaying']
  exact (hperm.symm.filter _).map _

end SameBank

end ChargingSite
