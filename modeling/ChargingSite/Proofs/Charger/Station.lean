import ChargingSite.Proofs.Charger.Reallocation
import Mathlib.Data.List.Induction

/-!
# Charging stations

A station is a charger together with the vehicles that there are.  It receives calls: a vehicle is
plugged in, the charger re-allocates, the occupants charge, and in between the energies of vehicles
change in any way (`Station.call`).  A station is `Served` if a row of successful calls brought it
about from an idle charger.  What plugging in and re-allocation preserve holds of every served
station (`Served.invariant`), and the occupants of a served station are in plug-in order
(`Served.sublist_plugIns`).
-/

namespace ChargingSite

variable {n : ℕ}

/-- A charger and all vehicles there are. -/
structure Station (n : ℕ) where
  fleet : Fleet n
  charger : Charger n
  deriving DecidableEq

/-- What happens at a station. -/
inductive Call (n : ℕ) where
  /-- A vehicle is plugged in under a number. -/
  | plugIn (vehicle : Fin n) (id : ℤ)
  /-- The charger decides anew who gets how much power. -/
  | reallocate
  /-- The occupants charge. -/
  | charge (d : Duration)
  /-- A vehicle's stored energy and the energy that it comes for change. -/
  | change (vehicle : Fin n) (energy unplugAt : Energy)

namespace Station

/-- The station after a call, and whether the call succeeded. -/
def call (t : Station n) : Call n → Station n × Except SiteError Unit
  | .plugIn vehicle id =>
    match t.charger.plugIn? vehicle id with
    | .ok charger => ({ t with charger }, .ok ())
    | .error e => (t, .error e)
  | .reallocate =>
    match t.charger.reallocate t.fleet with
    | (charger, .ok _) => ({ t with charger }, .ok ())
    | (charger, .error e) => ({ t with charger }, .error e)
  | .charge d =>
    match t.charger.charge t.fleet d with
    | (fleet, .ok _) => ({ t with fleet }, .ok ())
    | (fleet, .error e) => ({ t with fleet }, .error e)
  | .change vehicle energy unplugAt =>
    let changed := { t.fleet.get vehicle with energy, unplugAt }
    ({ t with fleet := t.fleet.set vehicle changed vehicle.isLt }, .ok ())

end Station

/-- The station comes about by the given calls, all successful, from an idle charger. -/
inductive Served (i : Installation) : List (Call n) → Station n → Prop
  /-- Nothing has happened yet. -/
  | idle (fleet : Fleet n) : Served i [] ⟨fleet, .idle i⟩
  /-- One more call. -/
  | call {calls : List (Call n)} {t t' : Station n} (h : Served i calls t) (c : Call n)
      (hcall : t.call c = (t', .ok ())) : Served i (calls ++ [c]) t'

/-- The numbers and vehicles that were plugged in, in order. -/
def plugIns (calls : List (Call n)) : List (ℤ × Fin n) :=
  calls.filterMap fun
    | .plugIn vehicle id => some (id, vehicle)
    | _ => none

/-! ### Successful calls -/

section Calls

variable {t t' : Station n}

theorem plugIn?_eq_ok_iff {c c' : Charger n} {vehicle : Fin n} {id : ℤ} :
    c.plugIn? vehicle id = .ok c' ↔ c.hasFreePlug = true ∧ c' = c.occupy vehicle id := by
  unfold Charger.plugIn?
  split_ifs with hfree
  · rw [Except.ok.injEq, eq_comm, hfree, eq_self_iff_true, true_and]
  · cases c.text? <;> simp [hfree, liftNumber, bind, Except.bind]

theorem plugIn_eq_ok {vehicle : Fin n} {id : ℤ}
    (h : t.call (.plugIn vehicle id) = (t', .ok ())) :
    t.charger.hasFreePlug = true ∧ t' = { t with charger := t.charger.occupy vehicle id } := by
  rw [Station.call] at h
  cases hmade : t.charger.plugIn? vehicle id with
  | error e => rw [hmade] at h; cases h
  | ok charger =>
    rw [hmade] at h
    obtain ⟨hfree, rfl⟩ := plugIn?_eq_ok_iff.mp hmade
    exact ⟨hfree, (Prod.mk.inj h).1.symm⟩

theorem reallocate_eq_ok (h : t.call .reallocate = (t', .ok ())) :
    ∃ departed, t.charger.reallocate t.fleet = (t'.charger, .ok departed) ∧
      t' = { t with charger := t'.charger } := by
  rw [Station.call] at h
  cases hmade : t.charger.reallocate t.fleet with
  | mk charger result =>
    cases result with
    | error e => rw [hmade] at h; cases h
    | ok departed =>
      rw [hmade] at h
      cases h
      exact ⟨departed, rfl, rfl⟩

theorem charge_eq_ok {d : Duration} (h : t.call (.charge d) = (t', .ok ())) :
    t'.charger = t.charger := by
  rw [Station.call] at h
  cases hmade : t.charger.charge t.fleet d with
  | mk fleet result =>
    cases result with
    | error e => rw [hmade] at h; cases h
    | ok added =>
      rw [hmade] at h
      cases h
      rfl

theorem change_eq_ok {vehicle : Fin n} {energy unplugAt : Energy}
    (h : t.call (.change vehicle energy unplugAt) = (t', .ok ())) : t'.charger = t.charger := by
  cases h
  rfl

end Calls

/-! ### Histories -/

namespace Served

variable {i : Installation} {calls : List (Call n)} {t : Station n}

/-- **Invariants of a charger** hold of every served station: it is enough that an idle charger has
them and that plugging in and successful re-allocations preserve them. -/
theorem invariant {P : Charger n → Prop} (idle : P (.idle i))
    (occupy : ∀ c vehicle id, c.toInstallation = i → c.hasFreePlug = true → P c →
      P (c.occupy vehicle id))
    (reallocate : ∀ c fleet vs, c.toInstallation = i → Reallocated fleet c vs → P c →
      P { c with occupants := staying vs })
    (h : Served i calls t) : t.charger.toInstallation = i ∧ P t.charger := by
  induction h with
  | idle fleet => exact ⟨rfl, idle⟩
  | @call calls t t' h c hcall ih =>
    obtain ⟨hi, hP⟩ := ih
    -- only plugging in and re-allocating touch the charger
    cases c with
    | plugIn vehicle id =>
      obtain ⟨hfree, rfl⟩ := plugIn_eq_ok hcall
      exact ⟨hi, occupy _ _ _ hi hfree hP⟩
    | reallocate =>
      obtain ⟨departed, hmade, -⟩ := reallocate_eq_ok hcall
      obtain ⟨vs, hvs, hcharger, -⟩ := reallocated_of_reallocate hmade
      rw [hcharger]
      exact ⟨hi, reallocate _ _ _ hi hvs hP⟩
    | charge d =>
      rw [charge_eq_ok hcall]
      exact ⟨hi, hP⟩
    | change vehicle energy unplugAt =>
      rw [change_eq_ok hcall]
      exact ⟨hi, hP⟩

theorem toInstallation_eq (h : Served i calls t) : t.charger.toInstallation = i :=
  (h.invariant (P := fun _ => True) trivial (fun _ _ _ _ _ _ => trivial)
    (fun _ _ _ _ _ _ => trivial)).1

/-- **The occupants are in plug-in order**: they are among those plugged in, in the same order. -/
theorem sublist_plugIns (h : Served i calls t) :
    (t.charger.occupants.map Occupant.entry).Sublist (plugIns calls) := by
  induction h with
  | idle fleet => exact List.nil_sublist _
  | @call calls t t' h c hcall ih =>
    rw [plugIns, List.filterMap_append]
    cases c with
    | plugIn vehicle id =>
      -- the new occupant is the last of both lists
      obtain ⟨-, rfl⟩ := plugIn_eq_ok hcall
      show ((t.charger.occupants ++ [_]).map Occupant.entry).Sublist _
      rw [List.map_append]
      exact ih.append (List.Sublist.refl _)
    | reallocate =>
      obtain ⟨departed, hmade, -⟩ := reallocate_eq_ok hcall
      obtain ⟨vs, hvs, hcharger, -⟩ := reallocated_of_reallocate hmade
      rw [hcharger]
      -- who leaves is struck off the occupants, and the order of the others is kept
      have hkept := staying_sublist hvs.forall₂
      exact (hkept.trans ih).trans (List.sublist_append_left _ _)
    | charge d =>
      rw [charge_eq_ok hcall]
      exact ih.trans (List.sublist_append_left _ _)
    | change vehicle energy unplugAt =>
      rw [change_eq_ok hcall]
      exact ih.trans (List.sublist_append_left _ _)

end Served

/-! ### Calls in a row -/

/-- The station after calls in a row, if all of them succeed. -/
def Station.callAll? (t : Station n) (calls : List (Call n)) : Except SiteError (Station n) :=
  calls.foldlM (fun t c =>
    match t.call c with
    | (t', .ok ()) => .ok t'
    | (_, .error e) => .error e) t

theorem Station.callAll?_concat_eq_ok_iff {t t' : Station n} {calls : List (Call n)} {c : Call n} :
    t.callAll? (calls ++ [c]) = .ok t' ↔
      ∃ u, t.callAll? calls = .ok u ∧ u.call c = (t', .ok ()) := by
  unfold callAll?
  rw [List.foldlM_append, bind_eq_ok_iff]
  refine exists_congr fun u => and_congr_right fun _ => ?_
  rw [List.foldlM_cons]
  simp only [List.foldlM_nil, bind_pure]
  obtain ⟨u', result⟩ := u.call c
  cases result with
  | error e => simp
  | ok made => simp

/-- **Calls that all succeed** from an idle charger make a served station. -/
theorem served_of_callAll? {i : Installation} (fleet : Fleet n) {calls : List (Call n)}
    {t : Station n} (h : Station.callAll? ⟨fleet, .idle i⟩ calls = .ok t) : Served i calls t := by
  induction calls using List.reverseRecOn generalizing t with
  | nil =>
    cases h
    exact .idle fleet
  | append_singleton calls c ih =>
    obtain ⟨u, hu, hcall⟩ := Station.callAll?_concat_eq_ok_iff.mp h
    exact (ih hu).call c hcall

/-! ### A station to look at -/

/-- Two sample vehicles at a granular charger whose budget is one step of 5 kW. -/
def samplePair : Station 2 where
  fleet := #v[.sample, .sample]
  charger := {
    grid := ⟨9000⟩
    strategy := .granular 2 5 11
    occupants := [⟨0, 0, ⟨5000⟩⟩, ⟨1, 1, ⟨0⟩⟩] }

/-- Plugging both in and re-allocating leads there. -/
theorem served_samplePair :
    Served ⟨⟨9000⟩, .granular 2 5 11⟩ [.plugIn 0 0, .plugIn 1 1, .reallocate] samplePair := by
  refine served_of_callAll? samplePair.fleet ?_
  decide +kernel

end ChargingSite
