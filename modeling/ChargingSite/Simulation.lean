import ChargingSite.Charger.Allocation
import ChargingSite.Frame

/-!
# Simulations

A simulation has a fleet of vehicles, a waiting line, and chargers.  Joining the line gives a
vehicle a handle; handles are counted up from zero, and the line is served in order, so handle
order is plug-in order.  The registry remembers which vehicle each handle stands for.
-/

namespace ChargingSite

/-- A place in the waiting line. -/
structure Ticket (n : Nat) where
  handle : Nat
  vehicle : Fin n
  deriving DecidableEq

/-- The simulated time of one step: a duration that is not empty. -/
structure StepDuration extends Duration where
  positive : 0 < microseconds
  deriving DecidableEq

/-- The step duration of the given length. -/
def StepDuration.ofDuration? (d : Duration) : Except SiteError StepDuration :=
  if positive : 0 < d.microseconds then .ok { d with positive }
  else .error (.stepDurationNotPositive d)

/-- The state of a simulation. -/
structure Simulation (n : Nat) where
  /-- All vehicles, also those that never joined the line. -/
  fleet : Fleet n
  chargers : List (Charger n)
  stepDuration : StepDuration
  /-- The vehicles that joined the line, by handle. -/
  registry : List (Fin n) := []
  /-- The waiting line. -/
  queue : List (Ticket n) := []
  elapsed : Duration := .zero
  /-- All energy delivered so far. -/
  dispensed : Energy := .zero
  steps : Nat := 0
  deriving DecidableEq

namespace Simulation

variable {n : Nat}

/-! ### Making simulations -/

/-- A simulation with an empty line and idle chargers. -/
def create (fleet : Fleet n) (installations : List Installation) (stepDuration : StepDuration) :
    Simulation n :=
  { fleet, chargers := installations.map .idle, stepDuration }

/-- A vehicle joins the back of the line. -/
def enqueue (s : Simulation n) (vehicle : Fin n) : Simulation n :=
  { s with
    registry := s.registry ++ [vehicle]
    queue := s.queue ++ [⟨s.registry.length, vehicle⟩] }

/-- Joining the line gives the next handle to the vehicle. -/
@[simp] theorem registry_enqueue (s : Simulation n) (vehicle : Fin n) :
    (s.enqueue vehicle).registry = s.registry ++ [vehicle] := rfl

/-- Who joins the line waits at its back. -/
@[simp] theorem queue_enqueue (s : Simulation n) (vehicle : Fin n) :
    (s.enqueue vehicle).queue = s.queue ++ [⟨s.registry.length, vehicle⟩] := rfl

/-- Several vehicles join the line one after the other. -/
def enqueueAll (s : Simulation n) (vehicles : List (Fin n)) : Simulation n :=
  vehicles.foldl enqueue s

/-! ### Looking at a simulation -/

/-- The vehicle with the given handle. -/
def vehicle? (s : Simulation n) (handle : Int) : Except SiteError (Fin n) :=
  match if handle < 0 then none else s.registry[handle.toNat]? with
  | some place => .ok place
  | none => .error (.unknownId handle)

/-- Whether there are chargers, and vehicles that joined the line. -/
def isValid (s : Simulation n) : Bool :=
  !s.chargers.isEmpty && !s.registry.isEmpty

/-- Whether nobody waits and nobody is plugged in. -/
def isDone (s : Simulation n) : Bool :=
  s.queue.isEmpty && s.chargers.all Charger.isIdle

end Simulation

end ChargingSite
