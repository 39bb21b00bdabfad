import ChargingSite.Simulation.Step

/-!
# Many steps

`Simulation.take` makes at most so many steps, and stops when the simulation is done.
`Simulation.run` makes steps until it is done.  The simulated time bounds their number: every step
moves it on, and durations have an end, so a limit that the clock cannot reach is as good as none.
-/

namespace ChargingSite

variable {n : Nat}

namespace Simulation

/-- Makes steps until the simulation is done, a step fails, or the limit is reached, and adds their
frames and events to those of earlier steps. -/
def advance : Nat → Simulation n → Array Frame → Array Event →
    Simulation n × Except SiteError (Array Frame) × Array Event
  | 0, s, frames, events => (s, .ok frames, events)
  | limit + 1, s, frames, events =>
    if s.isDone then (s, .ok frames, events)
    else
      let made := s.step
      let events := events.appendList made.events
      match made.result with
      | .error e => (made.simulation, .error e, events)
      | .ok frame => advance limit made.simulation (frames.push frame) events

/-- Makes at most `limit` steps; a simulation that is not valid makes none. -/
def take (limit : Nat) (s : Simulation n) : Outcome n (List Frame) :=
  if s.isValid then
    let (s, frames, events) := advance limit s #[] #[]
    ⟨s, frames.map Array.toList, events.toList⟩
  else ⟨s, .ok [], []⟩

/-- More steps than the simulated time has room for. -/
def stepLimit (s : Simulation n) : Nat :=
  ((86400000000000000000 - s.elapsed.microseconds) / s.stepDuration.microseconds).toNat + 1

/-- Makes steps until the simulation is done. -/
def run (s : Simulation n) : Outcome n (List Frame) :=
  if s.isValid then
    let made := s.take s.stepLimit
    match made.result with
    | .error _ => made
    | .ok frames =>
      let last := made.simulation
      { made with
        events := made.events ++ [.finished frames.length last.dispensed last.elapsed] }
  else ⟨s, .ok [], [.notRun s.chargers.length s.registry.length]⟩

end Simulation

end ChargingSite
