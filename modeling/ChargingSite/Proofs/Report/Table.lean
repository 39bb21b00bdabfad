import ChargingSite.Report.Table
import ChargingSite.Proofs.Error

/-!
# The rows of the table

The table of some frames exists exactly if each of their powers has a finite number of kilowatts
(`exists_tableOf?_iff`); nothing else fails (`eq_quotientTooLarge_of_tableOf?`).  Its rows are about
chargers and vehicles of the frames (`exists_of_mem_tableOf?`), the vehicles in the order of the
frames (`idsOf_vehicle_tableOf?`).
-/

namespace ChargingSite

/-! ### Rows about somebody -/

/-- The rows about one vehicle or one charger. -/
def rowsAbout (entity : Entity) (id : Int) (rows : List TableRow) : List TableRow :=
  rows.filter fun row => row.entity = entity ∧ row.id = id

/-- The vehicles or the chargers that rows are about, row by row. -/
def idsOf (entity : Entity) (rows : List TableRow) : List Int :=
  (rows.filter fun row => row.entity = entity).map TableRow.id

section Rows

variable {entity : Entity} {id : Int} {row : TableRow} {rows new : List TableRow}

theorem mem_rowsAbout (h : row ∈ rowsAbout entity id rows) : row ∈ rows ∧ row.entity = entity := by
  simp only [rowsAbout, List.mem_filter, decide_eq_true_eq] at h
  exact ⟨h.1, h.2.1⟩

theorem rowsAbout_append :
    rowsAbout entity id (rows ++ new) = rowsAbout entity id rows ++ rowsAbout entity id new :=
  List.filter_append ..

theorem rowsAbout_concat (h : row.entity = entity) :
    rowsAbout entity id (rows ++ [row]) =
      if row.id = id then rowsAbout entity id rows ++ [row] else rowsAbout entity id rows := by
  by_cases hid : row.id = id
  · -- the new row is one more about them
    simp [rowsAbout, h, hid]
  · -- the new row is about somebody else
    simp [rowsAbout, hid]

theorem idsOf_append : idsOf entity (rows ++ new) = idsOf entity rows ++ idsOf entity new := by
  simp [idsOf]

theorem idsOf_singleton (h : row.entity = entity) : idsOf entity [row] = [row.id] := by
  simp [idsOf, h]

theorem mem_idsOf : id ∈ idsOf entity rows ↔ ∃ row ∈ rows, row.entity = entity ∧ row.id = id := by
  simp [idsOf, and_assoc]

theorem rowsAbout_eq_nil (h : id ∉ idsOf entity rows) : rowsAbout entity id rows = [] := by
  rw [rowsAbout, List.filter_eq_nil_iff]
  intro row hrow hid
  simp only [decide_eq_true_eq] at hid
  exact h (mem_idsOf.mpr ⟨row, hrow, hid⟩)

/-- Rows of the other kind are about nobody of this kind. -/
theorem idsOf_eq_nil (h : ∀ row ∈ new, row.entity ≠ entity) : idsOf entity new = [] := by
  simpa [idsOf] using h

theorem rowsAbout_eq_nil_of_ne (h : ∀ row ∈ new, row.entity ≠ entity) :
    rowsAbout entity id new = [] :=
  rowsAbout_eq_nil (by simp [idsOf_eq_nil h])

end Rows

/-! ### Powers in kilowatts -/

/-- The watts have a finite number of kilowatts. -/
def HasKilowatts (watts : Int) : Prop :=
  (Binary64.round (mkRat watts 1000)).isFinite = true

instance (watts : Int) : Decidable (HasKilowatts watts) :=
  inferInstanceAs (Decidable (_ = _))

/-- All powers of the frame have a finite number of kilowatts. -/
def Frame.FitsKilowatts (f : Frame) : Prop :=
  (∀ c ∈ f.chargers, HasKilowatts c.activeWatts ∧
    HasKilowatts c.unusedWatts) ∧
  ∀ v ∈ f.vehicles, HasKilowatts v.allocatedWatts

instance (f : Frame) : Decidable f.FitsKilowatts :=
  inferInstanceAs (Decidable (_ ∧ _))

theorem exists_kilowattsOf?_iff {watts : Int} :
    (∃ x, kilowattsOf? watts = .ok x) ↔ HasKilowatts watts := by
  simp only [kilowattsOf?, Power.kilowatts?, Binary64.quotient?, HasKilowatts]
  split
  · next h => simpa using h
  · next h => simpa using h

theorem eq_quotientTooLarge_of_kilowattsOf? {watts : Int} {e : NumberError}
    (h : kilowattsOf? watts = .error e) : e = .quotientTooLarge := by
  simp only [kilowattsOf?, Power.kilowatts?, Binary64.quotient?] at h
  split at h
  · cases h
  · exact (Except.error.inj h).symm

/-! ### The rows of a frame -/

section FrameRows

variable {f : Frame} {row : TableRow}

theorem of_vehicleRow?_eq_ok {v : VehicleFrame} (h : vehicleRow? f v = .ok row) :
    row.entity = .vehicle ∧ row.id = v.vehicle ∧ row.stateOfCharge = some v.stateOfCharge := by
  simp only [vehicleRow?, bind_eq_ok_iff, pure_eq_ok_iff] at h
  obtain ⟨power, -, rfl⟩ := h
  exact ⟨rfl, rfl, rfl⟩

theorem of_chargerRow?_eq_ok {c : ChargerFrame} (h : chargerRow? f c = .ok row) :
    row.entity = .charger ∧ row.id = c.charger ∧ row.unusedKw.isSome := by
  simp only [chargerRow?, bind_eq_ok_iff, pure_eq_ok_iff] at h
  obtain ⟨used, -, unused, -, rfl⟩ := h
  exact ⟨rfl, rfl, rfl⟩

theorem eq_quotientTooLarge_of_vehicleRow? {v : VehicleFrame} {e : NumberError}
    (h : vehicleRow? f v = .error e) : e = .quotientTooLarge := by
  simp only [vehicleRow?, bind_eq_error_iff, pure, Except.pure, reduceCtorEq, and_false,
    exists_false, or_false] at h
  exact eq_quotientTooLarge_of_kilowattsOf? h

theorem eq_quotientTooLarge_of_chargerRow? {c : ChargerFrame} {e : NumberError}
    (h : chargerRow? f c = .error e) : e = .quotientTooLarge := by
  simp only [chargerRow?, bind_eq_error_iff, pure, Except.pure, reduceCtorEq, and_false,
    exists_false, or_false] at h
  obtain h | ⟨used, -, h⟩ := h
  · -- the power in use
    exact eq_quotientTooLarge_of_kilowattsOf? h
  · -- the power that is left unused
    exact eq_quotientTooLarge_of_kilowattsOf? h

end FrameRows

theorem entity_of_mem_chargerRows {f : Frame} {rows : List TableRow}
    (h : f.chargers.mapM (chargerRow? f) = .ok rows) : ∀ row ∈ rows, row.entity = .charger := by
  intro row hrow
  obtain ⟨c, -, hc⟩ := exists_left_of_forall₂ (mapM_eq_ok_iff.mp h) hrow
  exact (of_chargerRow?_eq_ok hc).1

theorem entity_of_mem_vehicleRows {f : Frame} {rows : List TableRow}
    (h : f.vehicles.mapM (vehicleRow? f) = .ok rows) : ∀ row ∈ rows, row.entity = .vehicle := by
  intro row hrow
  obtain ⟨v, -, hv⟩ := exists_left_of_forall₂ (mapM_eq_ok_iff.mp h) hrow
  exact (of_vehicleRow?_eq_ok hv).1

theorem eq_quotientTooLarge_of_frameRows? {f : Frame} {e : NumberError}
    (h : frameRows? f = .error e) : e = .quotientTooLarge := by
  simp only [frameRows?, bind_eq_error_iff, pure, Except.pure, reduceCtorEq, and_false,
    exists_false, or_false] at h
  obtain h | ⟨-, -, h⟩ := h
  · -- the rows of the chargers come first
    obtain ⟨c, -, hc⟩ := exists_of_mapM_eq_error h
    exact eq_quotientTooLarge_of_chargerRow? hc
  · -- those of the vehicles come after them
    obtain ⟨v, -, hv⟩ := exists_of_mapM_eq_error h
    exact eq_quotientTooLarge_of_vehicleRow? hv

/-! ### The rows of all frames -/

section Tables

variable {frames : List Frame} {rows : List TableRow}

/-- The powers of a frame are those of its chargers' rows and of its vehicles' rows. -/
theorem Frame.fitsKilowatts_iff {f : Frame} :
    f.FitsKilowatts ↔ (∃ rows, f.chargers.mapM (chargerRow? f) = .ok rows) ∧
      ∃ rows, f.vehicles.mapM (vehicleRow? f) = .ok rows := by
  have hcharger : ∀ c, (∃ row, chargerRow? f c = .ok row) ↔
      HasKilowatts c.activeWatts ∧ HasKilowatts c.unusedWatts := by
    intro c
    simp only [chargerRow?, bind_eq_ok_iff, pure_eq_ok_iff, ← exists_kilowattsOf?_iff]
    tauto
  have hvehicle : ∀ v, (∃ row, vehicleRow? f v = .ok row) ↔
      HasKilowatts v.allocatedWatts := by
    intro v
    simp only [vehicleRow?, bind_eq_ok_iff, pure_eq_ok_iff, ← exists_kilowattsOf?_iff]
    tauto
  simp only [Frame.FitsKilowatts, exists_mapM_eq_ok_iff, hcharger, hvehicle]

theorem exists_frameRows?_iff {f : Frame} :
    (∃ new, frameRows? f = .ok new) ↔ f.FitsKilowatts := by
  simp only [Frame.fitsKilowatts_iff, frameRows?, bind_eq_ok_iff, pure_eq_ok_iff]
  tauto

/-- The table exists exactly if all powers have a finite number of kilowatts. -/
theorem exists_tableOf?_iff :
    (∃ rows, tableOf? frames = .ok rows) ↔ ∀ f ∈ frames, f.FitsKilowatts := by
  simp only [← exists_frameRows?_iff, ← exists_mapM_eq_ok_iff, tableOf?, bind_eq_ok_iff,
    pure_eq_ok_iff]
  tauto

theorem eq_quotientTooLarge_of_tableOf? {e : NumberError} (h : tableOf? frames = .error e) :
    e = .quotientTooLarge := by
  simp only [tableOf?, bind_eq_error_iff, pure, Except.pure, reduceCtorEq, and_false,
    exists_false, or_false] at h
  obtain ⟨f, -, hf⟩ := exists_of_mapM_eq_error h
  exact eq_quotientTooLarge_of_frameRows? hf

/-- A row of the table is that of a charger or of a vehicle in one of the frames. -/
theorem exists_of_mem_tableOf? (h : tableOf? frames = .ok rows) {row : TableRow}
    (hrow : row ∈ rows) :
    ∃ f ∈ frames, (∃ c ∈ f.chargers, chargerRow? f c = .ok row) ∨
      ∃ v ∈ f.vehicles, vehicleRow? f v = .ok row := by
  simp only [tableOf?, bind_eq_ok_iff, pure_eq_ok_iff] at h
  obtain ⟨groups, hgroups, rfl⟩ := h
  obtain ⟨new, hnew, hrow⟩ := List.mem_flatten.mp hrow
  obtain ⟨f, hf, hrows⟩ := exists_left_of_forall₂ (mapM_eq_ok_iff.mp hgroups) hnew
  simp only [frameRows?, bind_eq_ok_iff, pure_eq_ok_iff] at hrows
  obtain ⟨chargers, hchargers, vehicles, hvehicles, rfl⟩ := hrows
  refine ⟨f, hf, ?_⟩
  obtain hrow | hrow := List.mem_append.mp hrow
  · exact .inl (exists_left_of_forall₂ (mapM_eq_ok_iff.mp hchargers) hrow)
  · exact .inr (exists_left_of_forall₂ (mapM_eq_ok_iff.mp hvehicles) hrow)

/-- The row of a vehicle has a state of charge. -/
theorem stateOfCharge_isSome (h : tableOf? frames = .ok rows) {row : TableRow} (hrow : row ∈ rows)
    (hentity : row.entity = .vehicle) : row.stateOfCharge.isSome := by
  obtain ⟨f, -, ⟨c, -, hc⟩ | ⟨v, -, hv⟩⟩ := exists_of_mem_tableOf? h hrow
  · -- a row about a charger is about no vehicle
    rw [(of_chargerRow?_eq_ok hc).1] at hentity
    cases hentity
  · simp [(of_vehicleRow?_eq_ok hv).2.2]

/-- The row of a charger has an unused power and is about a charger of a frame. -/
theorem of_mem_chargerRows (h : tableOf? frames = .ok rows) {row : TableRow} (hrow : row ∈ rows)
    (hentity : row.entity = .charger) :
    row.unusedKw.isSome ∧ ∃ f ∈ frames, ∃ c ∈ f.chargers, row.id = c.charger := by
  obtain ⟨f, hf, ⟨c, hc, hrow⟩ | ⟨v, -, hv⟩⟩ := exists_of_mem_tableOf? h hrow
  · obtain ⟨-, hid, hunused⟩ := of_chargerRow?_eq_ok hrow
    exact ⟨hunused, f, hf, c, hc, hid⟩
  · -- a row about a vehicle is about no charger
    rw [(of_vehicleRow?_eq_ok hv).1] at hentity
    cases hentity

theorem idsOf_vehicle_frameRows? {f : Frame} {new : List TableRow} (h : frameRows? f = .ok new) :
    idsOf .vehicle new = f.vehicles.map VehicleFrame.vehicle := by
  simp only [frameRows?, bind_eq_ok_iff, pure_eq_ok_iff] at h
  obtain ⟨chargers, hchargers, vehicles, hvehicles, rfl⟩ := h
  -- the rows of the chargers are about no vehicle, and all others are about one
  have hnone : idsOf .vehicle chargers = [] := by
    refine idsOf_eq_nil fun row hrow => ?_
    rw [entity_of_mem_chargerRows hchargers row hrow]
    decide
  have hall : vehicles.filter (fun row => row.entity = .vehicle) = vehicles :=
    List.filter_eq_self.mpr fun row hrow => by
      simpa using entity_of_mem_vehicleRows hvehicles row hrow
  rw [idsOf_append, hnone, List.nil_append, idsOf, hall]
  exact (map_eq_map_of_forall₂ (mapM_eq_ok_iff.mp hvehicles) fun v row hv =>
    (of_vehicleRow?_eq_ok hv).2.1.symm).symm

/-- The rows of vehicles follow the vehicles of the frames. -/
theorem idsOf_vehicle_tableOf? (h : tableOf? frames = .ok rows) :
    idsOf .vehicle rows = frames.flatMap fun f => f.vehicles.map VehicleFrame.vehicle := by
  simp only [tableOf?, bind_eq_ok_iff, pure_eq_ok_iff] at h
  obtain ⟨groups, hgroups, rfl⟩ := h
  replace hgroups := mapM_eq_ok_iff.mp hgroups
  induction hgroups with
  | nil => rfl
  | cons head _ ih =>
    rw [List.flatten_cons, idsOf_append, ih, idsOf_vehicle_frameRows? head, List.flatMap_cons]

end Tables

end ChargingSite
