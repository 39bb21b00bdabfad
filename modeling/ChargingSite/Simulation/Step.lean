import ChargingSite.Simulation

/-!
# One step

A step has four phases: the waiting line is let in to the free plugs, charger by charger; every
charger re-allocates its power, and vehicles leave; the vehicles still plugged in charge; and the
step is counted and leaves a frame.  A phase that fails ends the step, and what was done until then
stays done, which is why every phase answers the state it leaves also when it fails.
-/

namespace ChargingSite

variable {n : Nat}

/-- What an operation on a simulation leaves behind. -/
structure Outcome (n : Nat) (α : Type) where
  /-- The simulation after the operation. -/
  simulation : Simulation n
  result : Except SiteError α
  /-- What happened on the way. -/
  events : List Event

/-! ### Admission -/

/-- Lets the line in to the free plugs of one charger. -/
def Charger.fillPlugs (c : Charger n) : List (Ticket n) → Charger n × List (Ticket n) × List Event
  | [] => (c, [], [])
  | t :: queue =>
    if c.hasFreePlug then
      let occupied := c.occupy t.vehicle t.handle
      let (c, queue, events) := occupied.fillPlugs queue
      (c, queue, occupied.report [Event.pluggedIn t.handle] ++ events)
    else (c, t :: queue, [])

/-- Lets the line in to the free plugs of several chargers, in order. -/
def fillAllPlugs : List (Charger n) → List (Ticket n) →
    List (Charger n) × List (Ticket n) × List Event
  | [], queue => ([], queue, [])
  | c :: rest, queue =>
    let (c, queue, events) := c.fillPlugs queue
    let (rest, queue, later) := fillAllPlugs rest queue
    (c :: rest, queue, events ++ later)

/-! ### Re-allocation -/

/-- Re-allocates charger by charger, until one fails. -/
def reallocateAll (fleet : Fleet n) : List (Charger n) →
    List (Charger n) × Except SiteError Unit × List Event
  | [] => ([], .ok (), [])
  | c :: rest =>
    match c.reallocate fleet with
    | (c, .error e) => (c :: rest, .error e, [])
    | (c, .ok departed) =>
      let (rest, result, later) := reallocateAll fleet rest
      (c :: rest, result, c.departures departed ++ later)

/-! ### Charging -/

/-- Charges at charger after charger, adding up the energy, until one fails. -/
def chargeAll (d : Duration) : List (Charger n) → Fleet n → Energy →
    Fleet n × Except SiteError Energy
  | [], fleet, sum => (fleet, .ok sum)
  | c :: rest, fleet, sum =>
    match c.charge fleet d with
    | (fleet, .error e) => (fleet, .error e)
    | (fleet, .ok delivered) => chargeAll d rest fleet (sum + delivered)

/-! ### Frames -/

/-- The frame of one occupant. -/
def Occupant.frame? (fleet : Fleet n) (o : Occupant n) : Except NumberError VehicleFrame := do
  let soc ← (o.vehicleIn fleet).soc?
  return ⟨o.id, o.allocated.watts, soc.percent⟩

/-- The frame of one charger. -/
def Charger.frame (c : Charger n) (position : Nat) : ChargerFrame :=
  ⟨position, c.allocated.watts, (c.grid - c.allocated).watts⟩

namespace Simulation

/-- The frame of the step just made, in which the given energy was delivered. -/
def frame? (s : Simulation n) (delivered : Energy) : Except NumberError Frame := do
  let vehicles ← (s.chargers.flatMap Charger.occupants).mapM (Occupant.frame? s.fleet)
  return {
    step := s.steps
    dispensedWh := delivered.wattHours
    chargers := s.chargers.mapIdx fun i c => c.frame i
    vehicles
    elapsedSeconds := s.elapsed.seconds }

/-! ### The step -/

/-- The simulation with the line let in. -/
def fillPlugs (s : Simulation n) : Simulation n × List Event :=
  let (chargers, queue, events) := fillAllPlugs s.chargers s.queue
  ({ s with chargers, queue }, events)

/-- Counts a step in which the given energy was delivered. -/
def count? (s : Simulation n) (delivered : Energy) : Except NumberError (Simulation n) := do
  let elapsed ← s.elapsed.add? s.stepDuration.toDuration
  return { s with elapsed, dispensed := s.dispensed + delivered, steps := s.steps + 1 }

/-- The phases after admission. -/
def serve (s : Simulation n) : Outcome n Frame :=
  let (chargers, reallocated, events) := reallocateAll s.fleet s.chargers
  let s := { s with chargers }
  match reallocated with
  | .error e => ⟨s, .error e, events⟩
  | .ok () =>
    let (fleet, charged) := chargeAll s.stepDuration.toDuration s.chargers s.fleet .zero
    let s := { s with fleet }
    match charged with
    | .error e => ⟨s, .error e, events⟩
    | .ok delivered =>
      match s.count? delivered with
      | .error e => ⟨s, .error (.number e), events⟩
      | .ok s => ⟨s, liftNumber (s.frame? delivered), events⟩

/-- One step of a valid simulation. -/
def step (s : Simulation n) : Outcome n Frame :=
  if s.isValid then
    let (s, admitted) := s.fillPlugs
    let served := s.serve
    { served with events := admitted ++ served.events }
  else ⟨s, .error (.invalidSimulation s.chargers.length s.registry.length), []⟩

end Simulation

end ChargingSite
