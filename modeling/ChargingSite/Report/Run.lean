import ChargingSite.Report.Series
import ChargingSite.Report.Summary
import ChargingSite.Site

/-!
# Running a scenario

`Scenario.run` builds the simulation, runs it to its end, and sums it up.
-/

namespace ChargingSite

/-- All that comes of a run. -/
structure RunResult where
  frames : List Frame
  summary : RunSummary
  /-- The names of the vehicles' models, by the numbers of the vehicles. -/
  names : List (Int × String)

/-- A result made of frames and names alone: the summary says only whether there are frames. -/
def RunResult.ofFrames (frames : List Frame) (names : List (Int × String)) : RunResult :=
  { frames, summary := { isValid := !frames.isEmpty }, names := uniqueNames names }

/-- Runs a scenario; answers what comes of it and what happened on the way. -/
def Scenario.run (scenario : Scenario) : Except SiteError RunResult × List Event :=
  match Site.ofScenario? scenario with
  | .error e => (.error e, [])
  | .ok site =>
    let made := site.simulation.run
    let summed : Except SiteError RunResult := do
      let frames ← made.result
      let summary ← summarise? frames scenario made.simulation.isValid
      return { frames, summary, names := site.names }
    match summed with
    | .error e => (.error e, made.events)
    | .ok result =>
      let s := result.summary
      (.ok result, made.events ++ [.complete s.totalEnergyKwh s.totalMinutes s.numChargers])

end ChargingSite
