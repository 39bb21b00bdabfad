import ChargingSite.Report.Series
import ChargingSite.Proofs.Report.Utilisation
import Mathlib.Algebra.BigOperators.Ring.Finset
import Mathlib.Data.List.Fold
import Mathlib.Data.List.MinMax

/-!
# The summary of a run

What a summary of frames says (`RunSummary.SumsUp`).  Powers that are not negative and whose sum
stays below `2 ^ 53` are added without an error (`AddUp`).  If those of every frame do, the peak
power of the site is that of a frame with the most power (`SumsUp.measures`), which is no less than
the power of any charger in any frame (`SumsUp.kilowatts_le_peak`).  The load on a charger is made
from a column of exact numbers (`SumsUp.exists_load`, `counts_activeColumn`), so its mean and its
peak are those of the watts themselves (`utilisationOf_measures`).
-/

namespace ChargingSite

open Binary64 (Counts counts_ofInt counts_zero)

/-! ### Powers that add up -/

/-- Powers that are not negative and whose sum is exact in doubles. -/
structure AddUp (watts : List ℤ) : Prop where
  nonneg : ∀ w ∈ watts, 0 ≤ w
  sum_lt : watts.sum < 2 ^ 53

namespace AddUp

variable {watts : List ℤ}

theorem sum_toNat (h : AddUp watts) : ((watts.map Int.toNat).sum : ℤ) = watts.sum := by
  have hcast : watts.map (Nat.cast ∘ Int.toNat) = watts.map id :=
    List.map_congr_left fun w hw => Int.toNat_of_nonneg (h.nonneg w hw)
  rw [Nat.cast_list_sum, List.map_map, hcast, List.map_id]

theorem sum_toNat_lt (h : AddUp watts) : (watts.map Int.toNat).sum < 2 ^ 53 := by
  have hlt := h.sum_lt
  rw [← h.sum_toNat] at hlt
  exact_mod_cast hlt

/-- The double of the sum is exact. -/
theorem counts_sum (h : AddUp watts) :
    (Binary64.ofInt watts.sum).Counts (watts.map Int.toNat).sum := by
  rw [← h.sum_toNat]
  exact counts_ofInt h.sum_toNat_lt

theorem toNat_le_sum {w : ℤ} (hw : w ∈ watts) : w.toNat ≤ (watts.map Int.toNat).sum :=
  List.single_le_sum (fun _ _ => Nat.zero_le _) _ (List.mem_map_of_mem hw)

/-- The double of a power that adds up is exact. -/
theorem counts (h : AddUp watts) {w : ℤ} (hw : w ∈ watts) {x : Binary64}
    (hx : Binary64.ofInt? w = .ok x) : x.Counts w.toNat := by
  have hexact : Counts (.ofInt w) w.toNat := by
    rw [← Int.toNat_of_nonneg (h.nonneg w hw), Int.toNat_natCast]
    exact counts_ofInt ((toNat_le_sum hw).trans_lt h.sum_toNat_lt)
  rw [Binary64.ofInt?, if_pos hexact.isFinite] at hx
  cases hx
  exact hexact

end AddUp

/-! ### The watts of the frames -/

/-- The watts of the chargers of a frame. -/
def Frame.watts (f : Frame) : List ℤ :=
  f.chargers.map ChargerFrame.activeWatts

theorem counts_row {f : Frame} (h : AddUp f.watts) {row : List Binary64}
    (hrow : (f.chargers.mapM fun c => Binary64.ofInt? c.activeWatts) = .ok row) :
    List.Forall₂ Counts row (f.watts.map Int.toNat) := by
  rw [Frame.watts, List.map_map, List.forall₂_map_right_iff]
  refine List.Forall₂.flip (forall₂_imp_of_mem (mapM_eq_ok_iff.mp hrow) ?_)
  intro c hc x hx
  exact h.counts (List.mem_map_of_mem hc) hx

/-- The rows of doubles that hold the watts of the frames. -/
abbrev RowsCount (frames : List Frame) (rows : List (List Binary64)) : Prop :=
  List.Forall₂ (fun f row => List.Forall₂ Counts row (f.watts.map Int.toNat)) frames rows

theorem counts_activeRows {frames : List Frame} (h : ∀ f ∈ frames, AddUp f.watts)
    {rows : List (List Binary64)} (hrows : activeRows? frames = .ok rows) :
    RowsCount frames rows :=
  forall₂_imp_of_mem (mapM_eq_ok_iff.mp hrows) fun f hf _ hrow => counts_row (h f hf) hrow

/-- The power of the whole site, frame by frame. -/
theorem counts_map_siteWatts {frames : List Frame} (h : ∀ f ∈ frames, AddUp f.watts)
    {rows : List (List Binary64)} (hrows : RowsCount frames rows) :
    List.Forall₂ Counts (rows.map siteWatts) (frames.map fun f => (f.watts.map Int.toNat).sum) := by
  rw [List.forall₂_map_left_iff, List.forall₂_map_right_iff]
  refine List.Forall₂.flip (forall₂_imp_of_mem hrows ?_)
  intro f hf row hrow
  exact counts_siteWatts hrow (h f hf).sum_toNat_lt

/-- The watts of the charger at the given position of a frame. -/
def Frame.wattsAt (position : ℕ) (f : Frame) : ℤ :=
  f.watts.getD position 0

theorem Frame.wattsAt_eq {f : Frame} {position : ℕ} (h : position < f.watts.length) :
    f.wattsAt position = f.watts[position] := by
  rw [wattsAt, List.getD_eq_getElem?_getD, List.getElem?_eq_getElem h, Option.getD_some]

/-- The power of one charger, frame by frame. -/
theorem counts_activeColumn {frames : List Frame} {rows : List (List Binary64)}
    (hrows : RowsCount frames rows) {position : ℕ}
    (hposition : ∀ f ∈ frames, position < f.watts.length) :
    List.Forall₂ Counts (activeColumn position rows)
      ((frames.map (Frame.wattsAt position)).map Int.toNat) := by
  induction hrows with
  | nil => exact .nil
  | @cons f row frames rows hrow _ ih =>
    rw [List.forall_mem_cons] at hposition
    have hwatts : position < (f.watts.map Int.toNat).length := by
      rw [List.length_map]
      exact hposition.1
    have hplace : position < row.length := hrow.length_eq ▸ hwatts
    -- the row reaches the position, so the column has an entry for it
    have hcolumn : activeColumn position (row :: rows) =
        row[position] :: activeColumn position rows :=
      List.filterMap_cons_some (List.getElem?_eq_getElem hplace)
    have hhead := hrow.get hplace hwatts
    rw [hcolumn, List.map_cons, List.map_cons, Frame.wattsAt_eq hposition.1]
    refine .cons ?_ (ih hposition.2)
    simpa using hhead

/-- Fewer watts are no more kilowatts. -/
theorem kilowattsOf?_le {x : Binary64} {n : ℕ} (hx : x.Counts n) (hlt : n < 2 ^ 53) {w : ℤ}
    (hlow : 0 ≤ w) (hle : w ≤ n) :
    ∃ kilowatts, kilowattsOf? w = .ok kilowatts ∧ kilowatts.le (x / 1000) = true := by
  have hw : (0 : ℚ) ≤ w := by exact_mod_cast hlow
  have hwn : (w : ℚ) ≤ n := by exact_mod_cast hle
  have hquotient : mkRat w 1000 = (w : ℚ) / 1000 := by
    rw [Rat.mkRat_eq_div]
    rfl
  obtain ⟨hfinite, -, -⟩ := Binary64.toRat_round_mem (a := 0) hlt (x := mkRat w 1000)
    (by rw [hquotient, Nat.cast_zero]; positivity) (by rw [hquotient]; linarith) false
  obtain ⟨hpeak, -, hvalue⟩ := div_thousand hx.isFinite (hx.toRat_eq ▸ Nat.cast_nonneg n)
    hx.toRat_eq.le hlt
  refine ⟨.round (mkRat w 1000), if_pos hfinite, ?_⟩
  rw [Binary64.le_iff_place_le (Binary64.round_ne_nan _ _) (Binary64.ne_nan_of_isFinite hpeak),
    Binary64.place_of_isFinite hpeak, hvalue, hx.toRat_eq, hquotient]
  -- both quotients are rounded once, and rounding is monotone
  apply Binary64.place_round_mono
  gcongr

/-! ### What a summary says -/

theorem foldl_max_mem {ns : List ℕ} (h : ns ≠ []) : ns.foldl max 0 ∈ ns := by
  rw [List.foldl_eq_foldr]
  exact List.maximum_mem (List.foldr_max_of_ne_nil h).symm

theorem le_foldl_max {ns : List ℕ} {n : ℕ} (hn : n ∈ ns) : n ≤ ns.foldl max 0 := by
  rw [List.foldl_eq_foldr]
  exact List.le_max_of_le' 0 hn le_rfl

/-- The load on a charger, measured by its watts in each frame: the peak is the greatest of them and
the mean their sum by their number, both in kilowatts, and the utilisation is the mean by the grid
connection.  Every division is rounded, and the results are rounded to four decimal places. -/
structure ChargerUtilisation.Measures (load : ChargerUtilisation) (position : ℕ)
    (config : ChargerConfig) (watts : List ℤ) : Prop where
  charger_eq : load.charger = position
  gridConnectionKw_eq : load.gridConnectionKw = config.gridConnectionKw
  exists_peak : ∃ most ∈ watts, (∀ w ∈ watts, w ≤ most) ∧
    load.peakActiveKw = (Binary64.ofInt most / 1000).roundPlaces 4
  mean_eq : load.meanActiveKw =
    (Binary64.ofInt watts.sum / Binary64.ofInt watts.length / 1000).roundPlaces 4
  utilisation_eq : load.utilisation =
    (Binary64.ofInt watts.sum / Binary64.ofInt watts.length / 1000 /
      config.gridConnectionKw).roundPlaces 4

theorem utilisationOf_measures (chargers position : ℕ) (config : ChargerConfig)
    {xs : List Binary64} {watts : List ℤ} (hadd : AddUp watts) (hne : watts ≠ [])
    (hxs : List.Forall₂ Counts xs (watts.map Int.toNat)) :
    (utilisationOf chargers position config xs).Measures position config watts := by
  have hsum : columnSum chargers xs = Binary64.ofInt watts.sum := by
    rw [(counts_columnSum chargers hxs hadd.sum_toNat_lt).eq_ofInt, hadd.sum_toNat]
  have hlength : xs.length = watts.length := by
    rw [hxs.length_eq, List.length_map]
  have hmean : columnSum chargers xs / Binary64.ofInt xs.length / 1000 =
      Binary64.ofInt watts.sum / Binary64.ofInt watts.length / 1000 := by
    rw [hsum, hlength]
  obtain ⟨most, hmem, hmost, hle⟩ := counts_greatest hxs (by simpa using hne)
  rw [List.forall_mem_map] at hle
  obtain ⟨w, hw, rfl⟩ := List.mem_map.mp hmem
  have hnonneg := hadd.nonneg w hw
  have hgreatest : greatest xs = Binary64.ofInt w := by
    rw [hmost.eq_ofInt, Int.toNat_of_nonneg hnonneg]
  have hmost_le : ∀ w' ∈ watts, w' ≤ w := by
    intro w' hw'
    have hbound := hle w' hw'
    omega
  exact
    { charger_eq := rfl
      gridConnectionKw_eq := rfl
      exists_peak := ⟨w, hw, hmost_le,
        congrArg (fun x : Binary64 => (x / 1000).roundPlaces 4) hgreatest⟩
      mean_eq := congrArg (Binary64.roundPlaces 4) hmean
      utilisation_eq :=
        congrArg (fun mean => (mean / config.gridConnectionKw).roundPlaces 4) hmean }

namespace RunSummary

/-- What a summary says of frames that report so many chargers each. -/
structure SumsUp (summary : RunSummary) (frames : List Frame) (scenario : Scenario)
    (reported : ℕ) (rows : List (List Binary64)) : Prop where
  even : ∀ f ∈ frames, f.chargers.length = reported
  rows_eq : activeRows? frames = .ok rows
  loads_eq : utilisations? rows scenario.chargers reported = .ok summary.chargers
  numSteps_eq : summary.numSteps = frames.length
  numVehicles_eq : summary.numVehicles = scenario.vehicles.length
  totalSeconds_eq : frames.getLast?.map Frame.elapsedSeconds = some summary.totalSeconds
  peakPowerKw_eq : summary.peakPowerKw = greatest (rows.map siteWatts) / 1000
  maxVehiclesCharging_eq : summary.maxVehiclesCharging =
    (frames.map fun f => f.vehicles.length).foldl max 0

/-- The peak power is that of a frame with the most power, and the most vehicles are those of a
frame with the most vehicles. -/
structure Measures (summary : RunSummary) (frames : List Frame) : Prop where
  exists_peak : ∃ f ∈ frames, (∀ f' ∈ frames, f'.watts.sum ≤ f.watts.sum) ∧
    summary.peakPowerKw = Binary64.ofInt f.watts.sum / 1000
  exists_most : ∃ f ∈ frames, (∀ f' ∈ frames, f'.vehicles.length ≤ f.vehicles.length) ∧
    summary.maxVehiclesCharging = f.vehicles.length

variable {summary : RunSummary} {frames : List Frame} {scenario : Scenario}

theorem exists_sumsUp {isValid : Bool} (h : summarise? frames scenario isValid = .ok summary)
    (hne : frames ≠ []) : ∃ reported rows, summary.SumsUp frames scenario reported rows := by
  obtain ⟨first, rest, rfl⟩ := List.exists_cons_of_ne_nil hne
  simp only [summarise?, List.head?_cons, List.getLast?_cons] at h
  split at h
  · -- frames that do not agree on the number of chargers have no summary
    cases h
  · next heven =>
    simp only [bind_eq_ok_iff, liftNumber_eq_ok_iff, pure_eq_ok_iff] at h
    obtain ⟨rows, hrows, loads, hloads, rfl⟩ := h
    exact ⟨first.chargers.length, rows, by simpa using heven, hrows, hloads, rfl, rfl,
      by rw [List.getLast?_cons, Option.map_some], rfl, rfl⟩

namespace SumsUp

variable {reported : ℕ} {rows : List (List Binary64)}

theorem exists_load (h : summary.SumsUp frames scenario reported rows) {position : ℕ}
    {config : ChargerConfig} (hconfig : scenario.chargers[position]? = some config) :
    position < reported ∧ summary.chargers[position]? =
      some (utilisationOf reported position config (activeColumn position rows)) := by
  have hplace : scenario.chargers.zipIdx[position]? = some (config, position) := by
    rw [List.getElem?_zipIdx, hconfig, Option.map_some, Nat.zero_add]
  obtain ⟨load, hload, hmade⟩ := exists_getElem?_of_forall₂ (mapM_eq_ok_iff.mp h.loads_eq) hplace
  dsimp only at hmade
  split at hmade
  · next hposition =>
    cases hmade
    exact ⟨hposition, hload⟩
  · -- a charger that the frames do not report has no load
    cases hmade

theorem measures (h : summary.SumsUp frames scenario reported rows) (hne : frames ≠ [])
    (hadd : ∀ f ∈ frames, AddUp f.watts) : summary.Measures frames := by
  constructor
  case exists_peak =>
    have hsite := counts_map_siteWatts hadd (counts_activeRows hadd h.rows_eq)
    obtain ⟨most, hmem, hmost, hle⟩ := counts_greatest hsite (by simpa using hne)
    rw [List.forall_mem_map] at hle
    obtain ⟨f, hf, rfl⟩ := List.mem_map.mp hmem
    refine ⟨f, hf, fun f' hf' => ?_, ?_⟩
    · -- the numbers that were compared are the sums
      rw [← (hadd f hf).sum_toNat, ← (hadd f' hf').sum_toNat]
      exact_mod_cast hle f' hf'
    · rw [h.peakPowerKw_eq, hmost.eq_ofInt, (hadd f hf).sum_toNat]
  case exists_most =>
    have hlengths : frames.map (fun f => f.vehicles.length) ≠ [] := by simpa using hne
    obtain ⟨f, hf, hmost⟩ := List.mem_map.mp (foldl_max_mem hlengths)
    refine ⟨f, hf, fun f' hf' => ?_, h.maxVehiclesCharging_eq.trans hmost.symm⟩
    rw [hmost]
    exact le_foldl_max (List.mem_map_of_mem hf')

/-- **The peak power** is no less than the power of any charger in any frame. -/
theorem kilowatts_le_peak (h : summary.SumsUp frames scenario reported rows)
    (hadd : ∀ f ∈ frames, AddUp f.watts) {f : Frame} (hf : f ∈ frames) {w : ℤ} (hw : w ∈ f.watts) :
    ∃ kilowatts, kilowattsOf? w = .ok kilowatts ∧ kilowatts.le summary.peakPowerKw = true := by
  obtain ⟨most, hmem, hmost, hpeak⟩ := (h.measures (List.ne_nil_of_mem hf) hadd).exists_peak
  rw [hpeak]
  refine kilowattsOf?_le (hadd most hmem).counts_sum (hadd most hmem).sum_toNat_lt
    ((hadd f hf).nonneg w hw) ?_
  calc w = w.toNat := (Int.toNat_of_nonneg ((hadd f hf).nonneg w hw)).symm
    _ ≤ (f.watts.map Int.toNat).sum := by exact_mod_cast AddUp.toNat_le_sum hw
    _ = f.watts.sum := (hadd f hf).sum_toNat
    _ ≤ most.watts.sum := hmost f hf
    _ = (most.watts.map Int.toNat).sum := (hadd most hmem).sum_toNat.symm

end SumsUp

end RunSummary

end ChargingSite
