import ChargingSite.Proofs.Report.Names
import ChargingSite.Proofs.Report.Table
import Mathlib.Algebra.Ring.Int.Defs

/-!
# The series are the table, sorted by what its rows are about

The series of frames and the table of the same frames hold the same figures, once gathered by
vehicle and by charger and once step by step.  `seriesOf?_eq` says so as an equation: as long as
every charger is one of the first frame, the series are what `seriesOfRows` reads off the rows of
the table, and the two fail together, on a power of too many watts to have a quotient.  The proof
follows the frames with the rows recorded so far (`foldlM_eq_map_mapM`), a row at a time
(`recordVehicle?_eq`, `recordCharger?_eq`).
-/

namespace ChargingSite

/-! ### Series read off rows -/

/-- The series of a vehicle as some rows have it. -/
def VehicleSeries.ofRows (id : Int) (name : String) (rows : List TableRow) : VehicleSeries where
  vehicle := id
  name := name
  minutes := (rows.map TableRow.minutes).toArray
  powerKw := (rows.map TableRow.powerKw).toArray
  stateOfCharge := (rows.filterMap TableRow.stateOfCharge).toArray

/-- The series of a charger as some rows have it. -/
def ChargerSeries.ofRows (id : Int) (rows : List TableRow) : ChargerSeries where
  charger := id
  minutes := (rows.map TableRow.minutes).toArray
  usedKw := (rows.map TableRow.powerKw).toArray
  unusedKw := (rows.filterMap TableRow.unusedKw).toArray

/-- The series of the vehicles, as the rows have them. -/
def vehiclesOfRows (named : List (Int × String)) (rows : List TableRow) : List VehicleSeries :=
  (namedFirst named (idsOf .vehicle rows)).map fun entry =>
    VehicleSeries.ofRows entry.1 entry.2 (rowsAbout .vehicle entry.1 rows)

/-- The series of the chargers that are known, as the rows have them. -/
def chargersOfRows (known : List Int) (rows : List TableRow) : List ChargerSeries :=
  known.map fun id => ChargerSeries.ofRows id (rowsAbout .charger id rows)

/-- The series of both, as the rows have them. -/
def seriesOfRows (named : List (Int × String)) (known : List Int) (rows : List TableRow) :
    List VehicleSeries × List ChargerSeries :=
  (vehiclesOfRows named rows, chargersOfRows known rows)

/-! ### Recording a row -/

section Recording

variable {named : List (Int × String)} {known : List Int} {rows : List TableRow} {row : TableRow}

theorem VehicleSeries.ofRows_push {x : Binary64} (id : Int) (name : String)
    (h : row.stateOfCharge = some x) :
    (ofRows id name rows).push row.minutes row.powerKw x = ofRows id name (rows ++ [row]) := by
  simp [ofRows, push, h]

theorem ChargerSeries.ofRows_push {x : Binary64} (id : Int) (h : row.unusedKw = some x) :
    (ofRows id rows).push row.minutes row.powerKw x = ofRows id (rows ++ [row]) := by
  simp [ofRows, push, h]

/-- A change to the members with a certain key changes nothing where there are none. -/
theorem map_ite_of_not_mem {α : Type} {key : α → Int} {f : α → α} {id : Int} {all : List α}
    (hid : id ∉ all.map key) : (all.map fun s => if key s = id then f s else s) = all := by
  refine (List.map_congr_left fun s hs => ?_).trans (List.map_id all)
  exact if_neg fun heq => hid (List.mem_map.mpr ⟨s, hs, heq⟩)

/-- Among series of different vehicles, an update changes the one of its vehicle. -/
theorem updateVehicle_of_mem {id : Int} {f : VehicleSeries → VehicleSeries}
    {all : List VehicleSeries} (hnodup : (all.map VehicleSeries.vehicle).Nodup)
    (hid : id ∈ all.map VehicleSeries.vehicle) :
    updateVehicle id f all = all.map fun s => if s.vehicle = id then f s else s := by
  induction all with
  | nil => simp at hid
  | cons s rest ih =>
    obtain ⟨hs, hrest⟩ := List.nodup_cons.mp hnodup
    rw [updateVehicle, List.map_cons]
    by_cases h : s.vehicle = id
    · -- the first series is this vehicle's, and so no other one is
      rw [if_pos h, if_pos h, map_ite_of_not_mem (h ▸ hs)]
    · -- the series of this vehicle is further behind
      have hid' : id ∈ rest.map VehicleSeries.vehicle := by simpa [Ne.symm h] using hid
      rw [if_neg h, if_neg h, ih hrest hid']

/-- A vehicle without a series gets one, at the end. -/
theorem updateVehicle_of_not_mem {id : Int} {f : VehicleSeries → VehicleSeries}
    {all : List VehicleSeries} (hid : id ∉ all.map VehicleSeries.vehicle) :
    updateVehicle id f all = all ++ [f { vehicle := id, name := "" }] := by
  induction all with
  | nil => rfl
  | cons s rest ih =>
    simp only [List.map_cons, List.mem_cons, not_or] at hid
    rw [updateVehicle, if_neg (Ne.symm hid.1), ih hid.2, List.cons_append]

/-- Among series of different chargers, an update changes the one of its charger, if the figures to
add exist. -/
theorem updateCharger?_of_mem {β : Type} {id : Int} (figures : Except NumberError β)
    (f : β → ChargerSeries → ChargerSeries) {all : List ChargerSeries}
    (hnodup : (all.map ChargerSeries.charger).Nodup)
    (hid : id ∈ all.map ChargerSeries.charger) :
    updateCharger? id (fun s => figures.map (f · s)) all =
      liftNumber (figures.map fun b => all.map fun s => if s.charger = id then f b s else s) := by
  induction all with
  | nil => simp at hid
  | cons s rest ih =>
    obtain ⟨hs, hrest⟩ := List.nodup_cons.mp hnodup
    rw [updateCharger?]
    by_cases h : s.charger = id
    · -- the first series is this charger's, and so no other one is
      rw [if_pos h]
      cases figures with
      | error e => rfl
      | ok b =>
        simp only [Except.map, liftNumber, List.map_cons, if_pos h,
          map_ite_of_not_mem (f := f b) (h ▸ hs)]
        rfl
    · -- the series of this charger is further behind
      have hid' : id ∈ rest.map ChargerSeries.charger := by simpa [Ne.symm h] using hid
      rw [if_neg h, ih hrest hid']
      cases figures with
      | error e => rfl
      | ok b => simp [liftNumber, Except.map, h]

/-- A charger without a series fails the update. -/
theorem updateCharger?_of_not_mem {id : Int} {f : ChargerSeries → Except NumberError ChargerSeries}
    {all : List ChargerSeries} (hid : id ∉ all.map ChargerSeries.charger) :
    updateCharger? id f all = .error (.unknownId id) := by
  induction all with
  | nil => rfl
  | cons s rest ih =>
    simp only [List.map_cons, List.mem_cons, not_or] at hid
    rw [updateCharger?, if_neg (Ne.symm hid.1), ih hid.2]
    rfl

theorem map_vehicle_vehiclesOfRows (named : List (Int × String)) (rows : List TableRow) :
    (vehiclesOfRows named rows).map VehicleSeries.vehicle =
      (namedFirst named (idsOf .vehicle rows)).map Prod.fst := by
  rw [vehiclesOfRows, List.map_map]
  rfl

theorem map_charger_chargersOfRows (known : List Int) (rows : List TableRow) :
    (chargersOfRows known rows).map ChargerSeries.charger = known := by
  simp [chargersOfRows, ChargerSeries.ofRows, Function.comp_def]

/-- Adding a row's figures to the series of the vehicle it is about, which is started if there is
none, gives what the rows show with that row. -/
theorem updateVehicle_vehiclesOfRows (row : TableRow) {x : Binary64}
    (hnamed : (named.map Prod.fst).Nodup)
    (hentity : row.entity = .vehicle) (hx : row.stateOfCharge = some x) :
    updateVehicle row.id (·.push row.minutes row.powerKw x) (vehiclesOfRows named rows) =
      vehiclesOfRows named (rows ++ [row]) := by
  have hids := map_vehicle_vehiclesOfRows named rows
  have hstep := namedFirst_concat named (idsOf .vehicle rows) row.id
  rw [← idsOf_singleton hentity, ← idsOf_append] at hstep
  by_cases hmem : row.id ∈ (namedFirst named (idsOf .vehicle rows)).map Prod.fst
  · -- the vehicle has a series, which gets one more row
    rw [updateVehicle_of_mem (hids ▸ nodup_namedFirst hnamed) (hids ▸ hmem), vehiclesOfRows,
      vehiclesOfRows, hstep, if_pos hmem, List.map_map]
    refine List.map_congr_left fun entry _ => ?_
    show (if entry.1 = row.id then _ else _) = VehicleSeries.ofRows _ _ _
    rw [rowsAbout_concat hentity]
    by_cases h : entry.1 = row.id
    · rw [if_pos h, if_pos h.symm]
      exact VehicleSeries.ofRows_push _ _ hx
    · rw [if_neg h, if_neg (Ne.symm h)]
  · -- a vehicle seen for the first time gets a series at the end
    have hnone : rowsAbout .vehicle row.id rows = [] :=
      rowsAbout_eq_nil fun h => hmem (mem_fst_namedFirst.mpr (.inr h))
    rw [updateVehicle_of_not_mem (hids ▸ hmem), vehiclesOfRows, vehiclesOfRows, hstep, if_neg hmem,
      List.map_append]
    congr 1
    · refine List.map_congr_left fun entry hentry => ?_
      have h : row.id ≠ entry.1 := fun h => hmem (List.mem_map.mpr ⟨entry, hentry, h.symm⟩)
      rw [rowsAbout_concat hentity, if_neg h]
    · show [_] = [VehicleSeries.ofRows _ _ _]
      rw [rowsAbout_concat hentity, if_pos rfl, hnone, ← VehicleSeries.ofRows_push _ _ hx]
      rfl

/-- Adding a row's figures to the series of the charger it is about gives what the rows show with
that row. -/
theorem map_ite_chargersOfRows (row : TableRow) {x : Binary64} (hentity : row.entity = .charger)
    (hx : row.unusedKw = some x) :
    ((chargersOfRows known rows).map fun s =>
        if s.charger = row.id then s.push row.minutes row.powerKw x else s) =
      chargersOfRows known (rows ++ [row]) := by
  rw [chargersOfRows, chargersOfRows, List.map_map]
  refine List.map_congr_left fun id _ => ?_
  show (if id = row.id then _ else _) = ChargerSeries.ofRows _ _
  rw [rowsAbout_concat hentity]
  by_cases h : id = row.id
  · -- the charger that the row is about
    rw [if_pos h, if_pos h.symm]
    exact ChargerSeries.ofRows_push _ hx
  · -- any other charger
    rw [if_neg h, if_neg (Ne.symm h)]

/-- Recording a vehicle's part of a frame adds its row of the table to the series. -/
theorem recordVehicle?_eq (hnamed : (named.map Prod.fst).Nodup) (f : Frame) (v : VehicleFrame) :
    recordVehicle? f.minutes (vehiclesOfRows named rows) v =
      (vehicleRow? f v).map fun row => vehiclesOfRows named (rows ++ [row]) := by
  unfold recordVehicle? vehicleRow?
  cases kilowattsOf? v.allocatedWatts with
  | error e => rfl
  | ok power =>
    let row : TableRow :=
      ⟨f.step, f.minutes, .vehicle, v.vehicle, power, none, some v.stateOfCharge⟩
    exact congrArg Except.ok (updateVehicle_vehiclesOfRows row hnamed rfl rfl)

/-- Recording the part of a known charger adds its row of the table to the series. -/
theorem recordCharger?_eq (hknown : known.Nodup) (f : Frame) {c : ChargerFrame}
    (hc : c.charger ∈ known) :
    recordCharger? f.minutes (chargersOfRows known rows) c =
      (liftNumber (chargerRow? f c)).map fun row => chargersOfRows known (rows ++ [row]) := by
  have hnodup : ((chargersOfRows known rows).map ChargerSeries.charger).Nodup := by
    rwa [map_charger_chargersOfRows]
  have hmem : c.charger ∈ (chargersOfRows known rows).map ChargerSeries.charger := by
    rwa [map_charger_chargersOfRows]
  unfold recordCharger? chargerRow?
  cases kilowattsOf? c.activeWatts with
  | error e => exact updateCharger?_of_mem (.error e) (fun (_ : TableRow) s => s) hnodup hmem
  | ok used =>
    cases kilowattsOf? c.unusedWatts with
    | error e => exact updateCharger?_of_mem (.error e) (fun (_ : TableRow) s => s) hnodup hmem
    | ok unused =>
      let row : TableRow := ⟨f.step, f.minutes, .charger, c.charger, used, some unused, none⟩
      have hupdate := updateCharger?_of_mem (.ok row) (fun row s => s.push row.minutes used unused)
        hnodup hmem
      exact hupdate.trans (congrArg Except.ok (map_ite_chargersOfRows row rfl rfl))

/-- The part of an unknown charger fails the recording. -/
theorem recordCharger?_unknown (minutes : Binary64) {c : ChargerFrame} (hc : c.charger ∉ known) :
    recordCharger? minutes (chargersOfRows known rows) c = .error (.unknownId c.charger) := by
  rw [recordCharger?, updateCharger?_of_not_mem]
  rwa [map_charger_chargersOfRows]

end Recording

/-! ### Recording frames -/

section Frames

variable {named : List (Int × String)} {known : List Int} {rows : List TableRow} {f : Frame}

theorem foldlM_recordVehicle? (hnamed : (named.map Prod.fst).Nodup) :
    f.vehicles.foldlM (recordVehicle? f.minutes) (vehiclesOfRows named rows) =
      (f.vehicles.mapM (vehicleRow? f)).map fun new => vehiclesOfRows named (rows ++ new) :=
  foldlM_eq_map_mapM (fun _ v _ => recordVehicle?_eq hnamed f v) rows

theorem foldlM_recordCharger? (hknown : known.Nodup) (hf : ∀ c ∈ f.chargers, c.charger ∈ known) :
    f.chargers.foldlM (recordCharger? f.minutes) (chargersOfRows known rows) =
      (liftNumber (f.chargers.mapM (chargerRow? f))).map fun new =>
        chargersOfRows known (rows ++ new) := by
  rw [foldlM_eq_map_mapM (fun _ c hc => recordCharger?_eq hknown f (hf c hc)), mapM_liftNumber]

/-- The rows of chargers say nothing about vehicles. -/
theorem vehiclesOfRows_append_append {chargers vehicles : List TableRow}
    (h : ∀ row ∈ chargers, row.entity = .charger) :
    vehiclesOfRows named (rows ++ (chargers ++ vehicles)) =
      vehiclesOfRows named (rows ++ vehicles) := by
  have hother : ∀ row ∈ chargers, row.entity ≠ .vehicle := by
    intro row hrow
    rw [h row hrow]
    decide
  unfold vehiclesOfRows
  simp only [idsOf_append, idsOf_eq_nil hother, rowsAbout_append, rowsAbout_eq_nil_of_ne hother,
    List.nil_append]

/-- The rows of vehicles say nothing about chargers. -/
theorem chargersOfRows_append_append {chargers vehicles : List TableRow}
    (h : ∀ row ∈ vehicles, row.entity = .vehicle) :
    chargersOfRows known (rows ++ (chargers ++ vehicles)) =
      chargersOfRows known (rows ++ chargers) := by
  have hother : ∀ row ∈ vehicles, row.entity ≠ .charger := by
    intro row hrow
    rw [h row hrow]
    decide
  unfold chargersOfRows
  simp only [rowsAbout_append, rowsAbout_eq_nil_of_ne hother, List.append_nil]

/-- Recording a frame whose chargers are known adds its rows of the table to the series, and fails
like them. -/
theorem recordFrame?_eq (hnamed : (named.map Prod.fst).Nodup) (hknown : known.Nodup)
    (hf : ∀ c ∈ f.chargers, c.charger ∈ known) :
    recordFrame? (seriesOfRows named known rows) f =
      (liftNumber (frameRows? f)).map fun new => seriesOfRows named known (rows ++ new) := by
  simp only [recordFrame?, frameRows?, seriesOfRows, foldlM_recordVehicle? hnamed,
    foldlM_recordCharger? hknown hf]
  -- The vehicles are recorded first but have the last rows; both fail for the same cause.
  cases hchargers : f.chargers.mapM (chargerRow? f) with
  | error e =>
    obtain ⟨c, -, hc⟩ := exists_of_mapM_eq_error hchargers
    -- The vehicles fail before the chargers are reached, with the same error.
    cases hvehicles : f.vehicles.mapM (vehicleRow? f) with
    | error e' =>
      obtain ⟨v, -, hv⟩ := exists_of_mapM_eq_error hvehicles
      rw [eq_quotientTooLarge_of_chargerRow? hc, eq_quotientTooLarge_of_vehicleRow? hv]
      rfl
    | ok vehicles => rfl
  | ok chargers =>
    cases hvehicles : f.vehicles.mapM (vehicleRow? f) with
    | error e => rfl
    | ok vehicles =>
      show Except.ok
        (vehiclesOfRows named (rows ++ vehicles), chargersOfRows known (rows ++ chargers)) =
        Except.ok (vehiclesOfRows named (rows ++ (chargers ++ vehicles)),
          chargersOfRows known (rows ++ (chargers ++ vehicles)))
      rw [vehiclesOfRows_append_append (entity_of_mem_chargerRows hchargers),
        chargersOfRows_append_append (entity_of_mem_vehicleRows hvehicles)]

/-- Recording a frame with an unknown charger fails at such a charger, or before on a power. -/
theorem recordFrame?_unknown (rows : List TableRow) (hnamed : (named.map Prod.fst).Nodup)
    (hknown : known.Nodup) (hf : ∃ c ∈ f.chargers, c.charger ∉ known) :
    (∃ c ∈ f.chargers, c.charger ∉ known ∧
      recordFrame? (seriesOfRows named known rows) f = .error (.unknownId c.charger)) ∨
    ¬f.FitsKilowatts ∧
      recordFrame? (seriesOfRows named known rows) f = .error (.number .quotientTooLarge) := by
  obtain ⟨before, c, after, hsplit, hc, hbefore⟩ := exists_first hf
  have hfold : f.chargers.foldlM (recordCharger? f.minutes) (chargersOfRows known rows) =
      liftNumber (before.mapM (chargerRow? f)) >>= fun _ => .error (.unknownId c.charger) := by
    rw [hsplit, foldlM_append_eq_bind _
      (fun _ b hb => recordCharger?_eq hknown f (not_not.mp (hbefore b hb))), mapM_liftNumber]
    simp only [List.foldlM_cons, recordCharger?_unknown f.minutes hc]
    rfl
  simp only [recordFrame?, seriesOfRows, foldlM_recordVehicle? hnamed, hfold]
  cases hvehicles : f.vehicles.mapM (vehicleRow? f) with
  | error e =>
    -- a vehicle's power fails before any charger is reached
    obtain ⟨v, -, hv⟩ := exists_of_mapM_eq_error hvehicles
    refine .inr ⟨fun hfits => ?_, by rw [eq_quotientTooLarge_of_vehicleRow? hv]; rfl⟩
    obtain ⟨vehicles, hok⟩ := (Frame.fitsKilowatts_iff.mp hfits).2
    cases hvehicles.symm.trans hok
  | ok vehicles =>
    cases hchargers : before.mapM (chargerRow? f) with
    | error e =>
      -- a power of a charger in front of the unknown one fails
      obtain ⟨b, hb, hrow⟩ := exists_of_mapM_eq_error hchargers
      refine .inr ⟨fun hfits => ?_, by rw [eq_quotientTooLarge_of_chargerRow? hrow]; rfl⟩
      obtain ⟨row, hok⟩ := exists_mapM_eq_ok_iff.mp (Frame.fitsKilowatts_iff.mp hfits).1 b
        (by simp [hsplit, hb])
      cases hrow.symm.trans hok
    | ok chargers => exact .inl ⟨c, by simp [hsplit], hc, rfl⟩

end Frames

/-! ### The series and the table -/

/-- The chargers of the first frame, each once. -/
def firstChargers (frames : List Frame) : List Int :=
  (((frames.head?.map Frame.chargers).getD []).map ChargerFrame.charger).eraseDups

theorem nodup_firstChargers (frames : List Frame) : (firstChargers frames).Nodup :=
  nodup_eraseDups _

section Runs

variable {frames : List Frame} {names : List (Int × String)} {rows : List TableRow}

theorem seriesOf?_eq_foldlM (frames : List Frame) (names : List (Int × String)) :
    seriesOf? frames names =
      frames.foldlM recordFrame? (seriesOfRows (sortNames names) (firstChargers frames) []) := by
  have hchargers : (frames.head?.map chargersOf).getD [] =
      chargersOfRows (firstChargers frames) [] := by
    cases frames with
    | nil => rfl
    | cons f rest => rfl
  have hvehicles : vehiclesOfRows (sortNames names) [] =
      (sortNames names).map fun entry => VehicleSeries.ofRows entry.1 entry.2 [] := by
    simp [vehiclesOfRows, namedFirst, idsOf, rowsAbout]
  unfold seriesOf?
  rw [hchargers, seriesOfRows, hvehicles]
  rfl

/-- Recording frame after frame: the rows of a frame are recorded after those of the frames
before. -/
theorem recordFrame?_flatten (names : List (Int × String)) {known : List Int} {f : Frame}
    (hknown : known.Nodup)
    (hf : ∀ c ∈ f.chargers, c.charger ∈ known) (done : List (List TableRow)) :
    recordFrame? (seriesOfRows (sortNames names) known done.flatten) f =
      (liftNumber (frameRows? f)).map fun new =>
        seriesOfRows (sortNames names) known (done ++ [new]).flatten := by
  simp only [List.flatten_concat]
  exact recordFrame?_eq (nodup_fst_sortNames names) hknown hf

/-- If every charger is one of the first frame, the series are what the rows of the table show,
and they fail like the table. -/
theorem seriesOf?_eq (h : ∀ f ∈ frames, ∀ c ∈ f.chargers, c.charger ∈ firstChargers frames)
    (names : List (Int × String)) :
    seriesOf? frames names =
      (liftNumber (tableOf? frames)).map
        (seriesOfRows (sortNames names) (firstChargers frames)) := by
  have hfold := foldlM_eq_map_mapM
    (fun done f hf => recordFrame?_flatten names (nodup_firstChargers frames) (h f hf) done) []
  rw [seriesOf?_eq_foldlM]
  refine hfold.trans ?_
  rw [mapM_liftNumber, tableOf?]
  cases frames.mapM frameRows? with
  | error e => rfl
  | ok groups => rfl

/-- If some charger is not one of the first frame, the series fail at such a charger, or before on
a power. -/
theorem seriesOf?_unknown
    (h : ∃ f ∈ frames, ∃ c ∈ f.chargers, c.charger ∉ firstChargers frames)
    (names : List (Int × String)) :
    (∃ f ∈ frames, ∃ c ∈ f.chargers, c.charger ∉ firstChargers frames ∧
      seriesOf? frames names = .error (.unknownId c.charger)) ∨
    (∃ f ∈ frames, ¬f.FitsKilowatts) ∧
      seriesOf? frames names = .error (.number .quotientTooLarge) := by
  obtain ⟨before, f, after, hsplit, hf, hbefore⟩ := exists_first h
  have hmem : f ∈ frames := by simp [hsplit]
  have hsteps : ∀ done : List (List TableRow), ∀ g ∈ before,
      recordFrame? (seriesOfRows (sortNames names) (firstChargers frames) done.flatten) g =
        (liftNumber (frameRows? g)).map fun new =>
          seriesOfRows (sortNames names) (firstChargers frames) (done ++ [new]).flatten := by
    intro done g hg
    refine recordFrame?_flatten names (nodup_firstChargers frames) (fun c hc => ?_) done
    by_contra hc'
    exact hbefore g hg ⟨c, hc, hc'⟩
  have hfold := foldlM_append_eq_bind (f :: after) hsteps []
  rw [← hsplit, mapM_liftNumber] at hfold
  have hseries := (seriesOf?_eq_foldlM frames names).trans hfold
  cases hrows : before.mapM frameRows? with
  | error e =>
    -- a frame in front of the one with the first unknown charger fails on a power
    obtain ⟨g, hg, hfail⟩ := exists_of_mapM_eq_error hrows
    refine .inr ⟨⟨g, by simp [hsplit, hg], fun hfits => ?_⟩, ?_⟩
    · obtain ⟨new, hnew⟩ := exists_frameRows?_iff.mpr hfits
      cases hfail.symm.trans hnew
    · rw [hseries, hrows, eq_quotientTooLarge_of_frameRows? hfail]
      rfl
  | ok groups =>
    -- all frames in front are recorded, and that frame fails
    rw [hrows] at hseries
    replace hseries : seriesOf? frames names = (f :: after).foldlM recordFrame?
        (seriesOfRows (sortNames names) (firstChargers frames) groups.flatten) := hseries
    rw [List.foldlM_cons] at hseries
    have hstep := recordFrame?_unknown groups.flatten (nodup_fst_sortNames names)
      (nodup_firstChargers frames) hf
    obtain ⟨c, hc, hunknown, hrecord⟩ | ⟨hunfit, hrecord⟩ := hstep
    · refine .inl ⟨f, hmem, c, hc, hunknown, ?_⟩
      rw [hseries, hrecord]
      rfl
    · refine .inr ⟨⟨f, hmem, hunfit⟩, ?_⟩
      rw [hseries, hrecord]
      rfl

end Runs

/-! ### The series regroup the table -/

/-- The figures of a vehicle's series are those of some rows, in their order. -/
structure VehicleSeries.Shows (s : VehicleSeries) (rows : List TableRow) : Prop where
  minutes : s.minutes.toList = rows.map TableRow.minutes
  powerKw : s.powerKw.toList = rows.map TableRow.powerKw
  stateOfCharge : s.stateOfCharge.toList.map some = rows.map TableRow.stateOfCharge

/-- The figures of a charger's series are those of some rows, in their order. -/
structure ChargerSeries.Shows (s : ChargerSeries) (rows : List TableRow) : Prop where
  minutes : s.minutes.toList = rows.map TableRow.minutes
  usedKw : s.usedKw.toList = rows.map TableRow.powerKw
  unusedKw : s.unusedKw.toList.map some = rows.map TableRow.unusedKw

/-- Series that hold what a table of the same frames holds and nothing else. -/
structure Regroups (frames : List Frame) (names : List (Int × String)) (rows : List TableRow)
    (vehicles : List VehicleSeries) (chargers : List ChargerSeries) : Prop where
  vehicle_figures : ∀ s ∈ vehicles, s.Shows (rowsAbout .vehicle s.vehicle rows)
  charger_figures : ∀ s ∈ chargers, s.Shows (rowsAbout .charger s.charger rows)
  /-- Each row belongs to exactly one series. -/
  vehicle_row : ∀ row ∈ rows, row.entity = .vehicle → ∃! s, s ∈ vehicles ∧ s.vehicle = row.id
  charger_row : ∀ row ∈ rows, row.entity = .charger → ∃! s, s ∈ chargers ∧ s.charger = row.id
  /-- Each vehicle and each charger has one series. -/
  vehicles_nodup : (vehicles.map VehicleSeries.vehicle).Nodup
  chargers_nodup : (chargers.map ChargerSeries.charger).Nodup
  /-- The vehicles with a name come first, in increasing order, then the others as they first
  appear. -/
  vehicles_listed : vehicles.map (fun s => (s.vehicle, s.name)) =
    namedFirst (sortNames names) (frames.flatMap fun f => f.vehicles.map VehicleFrame.vehicle)
  names_increasing : (sortNames names).Pairwise (·.1 < ·.1)
  names_last : ∀ id name, (id, name) ∈ sortNames names ↔ names.reverse.lookup id = some name
  /-- The chargers follow the first frame. -/
  chargers_listed : chargers.map ChargerSeries.charger = firstChargers frames
  /-- A vehicle that no frame mentions has an empty series. -/
  never_seen : ∀ s ∈ vehicles, (∀ f ∈ frames, ∀ v ∈ f.vehicles, v.vehicle ≠ s.vehicle) →
    s.minutes = #[] ∧ s.powerKw = #[] ∧ s.stateOfCharge = #[]

/-- Columns without gaps lose nothing when the gaps are left out. -/
theorem map_some_filterMap {α β : Type} {g : α → Option β} {as : List α}
    (h : ∀ a ∈ as, (g a).isSome) : (as.filterMap g).map some = as.map g := by
  induction as with
  | nil => rfl
  | cons a as ih =>
    obtain ⟨b, hb⟩ := Option.isSome_iff_exists.mp (h a List.mem_cons_self)
    rw [List.filterMap_cons_some hb, List.map_cons, List.map_cons, hb,
      ih fun a' ha' => h a' (List.mem_cons_of_mem a ha')]

/-- Among members with different keys, one key belongs to one member. -/
theorem existsUnique_of_nodup_map {α : Type} {key : α → Int} {as : List α} {id : Int}
    (hnodup : (as.map key).Nodup) (hid : id ∈ as.map key) : ∃! a, a ∈ as ∧ key a = id := by
  obtain ⟨a, ha, rfl⟩ := List.mem_map.mp hid
  exact ⟨a, ⟨ha, rfl⟩, fun b hb => List.inj_on_of_nodup_map hnodup hb.1 ha hb.2⟩

section Regrouping

variable {frames : List Frame} {names : List (Int × String)} {rows : List TableRow}

/-- The series read off the rows of a table hold what the table holds. -/
theorem regroups_seriesOfRows (hrows : tableOf? frames = .ok rows)
    (h : ∀ f ∈ frames, ∀ c ∈ f.chargers, c.charger ∈ firstChargers frames) :
    Regroups frames names rows (vehiclesOfRows (sortNames names) rows)
      (chargersOfRows (firstChargers frames) rows) := by
  have hvehicles := map_vehicle_vehiclesOfRows (sortNames names) rows
  have hchargers := map_charger_chargersOfRows (firstChargers frames) rows
  have hids := idsOf_vehicle_tableOf? hrows
  have hvehicles_nodup :
      ((vehiclesOfRows (sortNames names) rows).map VehicleSeries.vehicle).Nodup :=
    hvehicles ▸ nodup_namedFirst (nodup_fst_sortNames names)
  have hchargers_nodup :
      ((chargersOfRows (firstChargers frames) rows).map ChargerSeries.charger).Nodup := by
    rw [hchargers]
    exact nodup_firstChargers frames
  refine ⟨?figures_v, ?figures_c, ?row_v, ?row_c, hvehicles_nodup, hchargers_nodup, ?listed,
    pairwise_sortNames names, fun _ _ => mem_sortNames, hchargers, ?empty⟩
  case figures_v =>
    intro s hs
    obtain ⟨entry, -, rfl⟩ := List.mem_map.mp hs
    refine ⟨by simp [VehicleSeries.ofRows], by simp [VehicleSeries.ofRows], ?_⟩
    refine map_some_filterMap fun row hrow => ?_
    exact stateOfCharge_isSome hrows (mem_rowsAbout hrow).1 (mem_rowsAbout hrow).2
  case figures_c =>
    intro s hs
    obtain ⟨id, -, rfl⟩ := List.mem_map.mp hs
    refine ⟨by simp [ChargerSeries.ofRows], by simp [ChargerSeries.ofRows], ?_⟩
    refine map_some_filterMap fun row hrow => ?_
    exact (of_mem_chargerRows hrows (mem_rowsAbout hrow).1 (mem_rowsAbout hrow).2).1
  case row_v =>
    intro row hrow hentity
    refine existsUnique_of_nodup_map hvehicles_nodup ?_
    rw [hvehicles, mem_fst_namedFirst, mem_idsOf]
    exact .inr ⟨row, hrow, hentity, rfl⟩
  case row_c =>
    intro row hrow hentity
    refine existsUnique_of_nodup_map hchargers_nodup ?_
    obtain ⟨-, f, hf, c, hc, hid⟩ := of_mem_chargerRows hrows hrow hentity
    rw [hchargers, hid]
    exact h f hf c hc
  case listed =>
    rw [← hids, vehiclesOfRows, List.map_map]
    exact List.map_id _
  case empty =>
    intro s hs hnever
    obtain ⟨entry, -, rfl⟩ := List.mem_map.mp hs
    have hnone : rowsAbout .vehicle entry.1 rows = [] := by
      refine rowsAbout_eq_nil fun hmem => ?_
      rw [hids] at hmem
      obtain ⟨f, hf, hmem⟩ := List.mem_flatMap.mp hmem
      obtain ⟨v, hv, hid⟩ := List.mem_map.mp hmem
      exact hnever f hf v hv hid
    simp [hnone, VehicleSeries.ofRows]

/-- The series and the table of the same frames.  If every charger is one of the first frame, both
exist and agree when all powers have a finite number of kilowatts, and both fail when one has not.
If a charger is not one of the first frame, there are no series: recording them fails at such a
charger, or before on a power. -/
theorem series_agree_with_table (frames : List Frame) (names : List (Int × String)) :
    ((∀ f ∈ frames, ∀ c ∈ f.chargers, c.charger ∈ firstChargers frames) →
      (∀ f ∈ frames, f.FitsKilowatts) →
      ∃ vehicles chargers rows, seriesOf? frames names = .ok (vehicles, chargers) ∧
        tableOf? frames = .ok rows ∧ Regroups frames names rows vehicles chargers) ∧
    ((∀ f ∈ frames, ∀ c ∈ f.chargers, c.charger ∈ firstChargers frames) →
      (∃ f ∈ frames, ¬f.FitsKilowatts) →
      seriesOf? frames names = .error (.number .quotientTooLarge) ∧
        tableOf? frames = .error .quotientTooLarge) ∧
    ((∃ f ∈ frames, ∃ c ∈ f.chargers, c.charger ∉ firstChargers frames) →
      (∃ f ∈ frames, ∃ c ∈ f.chargers, c.charger ∉ firstChargers frames ∧
        seriesOf? frames names = .error (.unknownId c.charger)) ∨
      (∃ f ∈ frames, ¬f.FitsKilowatts) ∧
        seriesOf? frames names = .error (.number .quotientTooLarge)) := by
  refine ⟨fun hknown hfits => ?_, fun hknown hunfit => ?_,
    fun hunknown => seriesOf?_unknown hunknown names⟩
  · -- all powers are numbers of kilowatts
    obtain ⟨rows, hrows⟩ := exists_tableOf?_iff.mpr hfits
    refine ⟨_, _, rows, ?_, hrows, regroups_seriesOfRows hrows hknown⟩
    rw [seriesOf?_eq hknown, hrows]
    rfl
  · -- some power is not, and the table cannot exist
    cases hrows : tableOf? frames with
    | ok rows =>
      obtain ⟨f, hf, hunfit⟩ := hunfit
      exact absurd (exists_tableOf?_iff.mp ⟨rows, hrows⟩ f hf) hunfit
    | error e =>
      rw [seriesOf?_eq hknown, hrows, eq_quotientTooLarge_of_tableOf? hrows]
      exact ⟨rfl, rfl⟩

/-- Two chargers of one number, a vehicle twice in a frame, vehicles without a name, and a name
without a vehicle. -/
def repeatedFrames : List Frame :=
  [⟨1, 100, [⟨0, 5000, 6000⟩, ⟨4, 0, 11000⟩, ⟨0, 1500, -500⟩],
    [⟨7, 3000, 40⟩, ⟨2, 2000, 55⟩, ⟨7, 1500, 41⟩], 60⟩,
   ⟨2, 90, [⟨4, 7000, 4000⟩], [⟨5, 7000, 12⟩, ⟨7, 0, 41⟩], 120⟩]

/-- A power of `10 ^ 400` watts has no finite number of kilowatts. -/
def hugeFrames : List Frame :=
  [⟨1, 0, [], [⟨0, 10 ^ 400, 5⟩], 60⟩]

/-- The second charger is not there in the first frame. -/
def growingFrames : List Frame :=
  [⟨1, 0, [⟨0, 5000, 6000⟩], [], 60⟩, ⟨2, 0, [⟨0, 5000, 6000⟩, ⟨1, 7000, 0⟩], [], 120⟩]

theorem repeatedFrames_agree :
    (∃ vehicles chargers rows,
      seriesOf? repeatedFrames [(9, "Z"), (2, "B")] = .ok (vehicles, chargers) ∧
        tableOf? repeatedFrames = .ok rows ∧
        Regroups repeatedFrames [(9, "Z"), (2, "B")] rows vehicles chargers) ∧
    (seriesOf? hugeFrames [] = .error (.number .quotientTooLarge) ∧
      tableOf? hugeFrames = .error .quotientTooLarge) ∧
    ((∃ f ∈ growingFrames, ∃ c ∈ f.chargers, c.charger ∉ firstChargers growingFrames ∧
        seriesOf? growingFrames [] = .error (.unknownId c.charger)) ∨
      (∃ f ∈ growingFrames, ¬f.FitsKilowatts) ∧
        seriesOf? growingFrames [] = .error (.number .quotientTooLarge)) :=
  ⟨(series_agree_with_table repeatedFrames [(9, "Z"), (2, "B")]).1 (by decide)
      (by decide +kernel),
    (series_agree_with_table hugeFrames []).2.1 (by decide) (by decide +kernel),
    (series_agree_with_table growingFrames []).2.2 (by decide)⟩

/-- Known chargers are not enough for the series to exist. -/
theorem seriesOf?_hugeFrames :
    ¬∀ frames names, (∀ f ∈ frames, ∀ c ∈ f.chargers, c.charger ∈ firstChargers frames) →
      ∃ series, seriesOf? frames names = .ok series := by
  intro hexists
  obtain ⟨series, hseries⟩ := hexists hugeFrames [] (by decide)
  have hfail : seriesOf? hugeFrames [] = .error (.number .quotientTooLarge) := by
    decide +kernel
  cases hseries.symm.trans hfail

end Regrouping

end ChargingSite
