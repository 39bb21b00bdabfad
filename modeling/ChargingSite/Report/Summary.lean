import ChargingSite.Frame
import ChargingSite.Number.Decimal.Places
import ChargingSite.Report.Summation
import ChargingSite.Scenario

/-!
# The summary of a run

`summarise?` adds the frames of a run up to the totals that are worth showing.  Watts are added as
doubles, which is exact as long as the sums stay below `2 ^ 53`.  Powers of the single chargers and
their utilisation are rounded to four decimal places, totals are not.
-/

namespace ChargingSite

/-- The load on one charger over a whole run. -/
structure ChargerUtilisation where
  /-- The position of the charger. -/
  charger : Nat
  gridConnectionKw : Binary64
  meanActiveKw : Binary64
  peakActiveKw : Binary64
  /-- The mean power as a fraction of the grid connection. -/
  utilisation : Binary64
  deriving DecidableEq

/-- The totals of a run. -/
structure RunSummary where
  /-- Whether there was anything to run. -/
  isValid : Bool
  numSteps : Nat := 0
  numVehicles : Nat := 0
  numChargers : Nat := 0
  stepSeconds : Binary64 := 0
  totalEnergyKwh : Binary64 := 0
  totalSeconds : Binary64 := 0
  /-- The greatest power of the whole site in any step. -/
  peakPowerKw : Binary64 := 0
  /-- The greatest number of plugged-in vehicles in any step. -/
  maxVehiclesCharging : Nat := 0
  chargers : List ChargerUtilisation := []
  deriving DecidableEq

/-- The simulated minutes of a run. -/
def RunSummary.totalMinutes (s : RunSummary) : Binary64 :=
  s.totalSeconds / 60

/-- The greatest of several doubles, zero if there are none. -/
def greatest : List Binary64 → Binary64
  | [] => 0
  | x :: xs => xs.foldl Binary64.max x

/-- The active watts of all chargers, frame by frame. -/
def activeRows? (frames : List Frame) : Except NumberError (List (List Binary64)) :=
  frames.mapM fun f => f.chargers.mapM fun c => Binary64.ofInt? c.activeWatts

/-- The power of the whole site in a frame. -/
def siteWatts (row : List Binary64) : Binary64 :=
  0 + pairwiseSum row

/-- The watts of one charger, frame by frame. -/
def activeColumn (position : Nat) (rows : List (List Binary64)) : List Binary64 :=
  rows.filterMap fun row => row[position]?

/-- The sum of one charger's watts.  Where several chargers stand side by side, their sums grow
together, frame by frame; a single one is summed up like a frame. -/
def columnSum (chargers : Nat) (watts : List Binary64) : Binary64 :=
  if chargers = 1 then 0 + pairwiseSum watts else runningSum 0 watts

/-- The load on the charger at the given position, one of `chargers`, by the watts it delivered in
each step. -/
def utilisationOf (chargers position : Nat) (config : ChargerConfig) (watts : List Binary64) :
    ChargerUtilisation :=
  let mean := columnSum chargers watts / Binary64.ofInt watts.length / 1000
  { charger := position
    gridConnectionKw := config.gridConnectionKw
    meanActiveKw := mean.roundPlaces 4
    peakActiveKw := (greatest watts / 1000).roundPlaces 4
    utilisation := (mean / config.gridConnectionKw).roundPlaces 4 }

/-- The loads on all chargers of a scenario, of which the frames report `reported`. -/
def utilisations? (rows : List (List Binary64)) (chargers : List ChargerConfig) (reported : Nat) :
    Except SiteError (List ChargerUtilisation) :=
  chargers.zipIdx.mapM fun (config, position) =>
    if position < reported then
      .ok (utilisationOf reported position config (activeColumn position rows))
    else .error (.missingCharger position reported)

/-- The totals of a run, by its frames. -/
def summarise? (frames : List Frame) (scenario : Scenario) (isValid : Bool) :
    Except SiteError RunSummary := do
  let base : RunSummary := {
    isValid
    numVehicles := scenario.vehicles.length
    numChargers := scenario.chargers.length
    stepSeconds := scenario.simulation.stepSeconds }
  match frames.head?, frames.getLast? with
  | some first, some last =>
    let reported := first.chargers.length
    if frames.any fun f => f.chargers.length ≠ reported then
      .error (.unevenFrames frames.length)
    let rows ← liftNumber (activeRows? frames)
    let chargers ← utilisations? rows scenario.chargers reported
    return { base with
      numSteps := frames.length
      totalEnergyKwh := (0 + pairwiseSum (frames.map Frame.dispensedWh)) / 1000
      totalSeconds := last.elapsedSeconds
      peakPowerKw := greatest (rows.map siteWatts) / 1000
      maxVehiclesCharging := (frames.map fun f => f.vehicles.length).foldl max 0
      chargers }
  | _, _ => return base

end ChargingSite
