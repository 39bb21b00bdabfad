import ChargingSite.Event
import ChargingSite.Vehicle

/-!
# Chargers

An installation is a grid connection with a strategy for sharing it; a charger is an installation
with its occupants in the order in which they plugged in.  The vehicles themselves are kept in a
fleet, and an occupant refers to its vehicle by the place in the fleet: a vehicle that occupies two
plugs is one vehicle.
-/

namespace ChargingSite

/-- All vehicles there are. -/
abbrev Fleet (n : Nat) := Vector Vehicle n

/-- A vehicle on a plug. -/
structure Occupant (n : Nat) where
  /-- The number under which it was plugged in. -/
  id : Int
  /-- Its place in the fleet. -/
  vehicle : Fin n
  /-- The power granted to it. -/
  allocated : Power := ⟨0⟩
  deriving DecidableEq

/-- The vehicle itself. -/
def Occupant.vehicleIn {n : Nat} (o : Occupant n) (fleet : Fleet n) : Vehicle :=
  fleet[o.vehicle]

/-- A grid connection and how its plugs share it. -/
structure Installation where
  grid : Power
  strategy : Strategy
  deriving DecidableEq

/-- An installation and its occupants in plug-in order. -/
structure Charger (n : Nat) extends Installation where
  occupants : List (Occupant n) := []
  deriving DecidableEq

/-! ### Making installations -/

namespace Installation

/-- An installation of a grid connection and a strategy.  A granular one needs a budget of whole
steps that serves at least one vehicle. -/
def create? (grid : Power) (strategy : Strategy) : Except SiteError Installation :=
  match strategy with
  | .granular _ stepKw _ => do
    let step ← liftNumber (Power.ofKilowatts? stepKw)
    checkBudget grid.watts step.watts
    return { grid, strategy }
  | _ => .ok { grid, strategy }

/-- An installation has the grid connection and the strategy that it was made from. -/
theorem eq_of_create? {grid : Power} {strategy : Strategy} {i : Installation}
    (h : create? grid strategy = .ok i) : i = ⟨grid, strategy⟩ := by
  unfold create? at h
  split at h
  · next stepKw _ =>
    cases hs : Power.ofKilowatts? stepKw with
    | error e => rw [hs] at h; cases h
    | ok step =>
      rw [hs] at h
      cases hb : checkBudget grid.watts step.watts with
      | error e => simp [liftNumber, hb, bind, Except.bind] at h
      | ok u =>
        simp only [liftNumber, hb, bind, Except.bind, pure, Except.pure] at h
        cases h
        rfl
  · cases h
    rfl

/-- The installation of a configuration. -/
def ofConfig? (config : ChargerConfig) : Except SiteError Installation := do
  let grid ← liftNumber (Power.ofKilowatts? config.gridConnectionKw)
  create? grid config.strategy

end Installation

namespace Charger

variable {n : Nat}

/-- An installation with nobody plugged in. -/
def idle (i : Installation) : Charger n :=
  { i with }

/-! ### Plugs -/

/-- Whether a plug is free. -/
def hasFreePlug (c : Charger n) : Bool :=
  c.occupants.length < c.strategy.plugs

/-- Whether all plugs are free. -/
def isIdle (c : Charger n) : Bool :=
  c.occupants.isEmpty

/-- The power granted to all occupants together. -/
def allocated (c : Charger n) : Power :=
  .total (c.occupants.map Occupant.allocated)

/-- A line that names the grid connection, the strategy and the occupancy. -/
def text? (c : Charger n) : Except NumberError String := do
  let grid ← c.grid.text?
  return "Charger(grid=" ++ grid ++ ", strategy=" ++ c.strategy.kind ++ ", active=" ++
    toString c.occupants.length ++ "/" ++ toString c.strategy.plugs ++ ")"

/-- Events that mention the charger as it is now. -/
def report (c : Charger n) (events : List (String → Event)) : List Event :=
  match c.text? with
  | .ok text => events.map fun event => event text
  | .error _ => []

/-- The charger with one more occupant, who has no power yet. -/
def occupy (c : Charger n) (vehicle : Fin n) (id : Int) : Charger n :=
  { c with occupants := c.occupants ++ [{ id, vehicle }] }

/-- Plugs a vehicle in, if a plug is free. -/
def plugIn? (c : Charger n) (vehicle : Fin n) (id : Int) : Except SiteError (Charger n) :=
  if c.hasFreePlug then .ok (c.occupy vehicle id)
  else do
    let text ← liftNumber c.text?
    .error (.noFreePlug id text)

end Charger

end ChargingSite
