import ChargingSite.Charger

/-!
# Sharing the grid connection

`Charger.reallocate` decides anew how much power each occupant gets.  The plugs are visited in
plug-in order; at each visit the vehicle gets an offer, and answers with what it wants or that it
leaves.

* Under the flat strategies every plug gets the same offer, and every request is granted.
* Under the granular strategy power is counted in whole steps, of which the grid connection covers
  `grid / step`, rounded down.  A running count says how many steps are in use: those of the plugs
  already visited by their new allocation, and those of the others by their old one.  While a step
  is left, a plug is offered one step more than it has.  A request is granted if the count stays
  within the budget; otherwise the plug keeps what it had.

A visit that fails ends the sweep.  The grants made until then stay, and nobody leaves.
-/

namespace ChargingSite

/-! ### Visiting the plugs -/

/-- An occupant after its visit. -/
structure Visit (n : Nat) where
  /-- The occupant, with the power now granted to it. -/
  occupant : Occupant n
  /-- Whether it leaves its plug. -/
  leaving : Bool
  deriving DecidableEq

/-- What came of visiting plugs one after the other. -/
structure Sweep (σ : Type) (n : Nat) where
  /-- The visits made, in plug-in order. -/
  visits : List (Visit n)
  /-- The occupants that were not visited, because a visit failed. -/
  unvisited : List (Occupant n)
  /-- What is carried from visit to visit, after the last one. -/
  carried : σ
  failure : Option SiteError

variable {σ : Type} {n : Nat}

/-- Visits the occupants in order, until one visit fails. -/
def sweep (visit : σ → Occupant n → Except SiteError (Visit n × σ)) :
    σ → List (Occupant n) → Sweep σ n
  | carried, [] => ⟨[], [], carried, none⟩
  | carried, o :: rest =>
    match visit carried o with
    | .error e => ⟨[], o :: rest, carried, some e⟩
    | .ok (v, carried) =>
      let later := sweep visit carried rest
      { later with visits := v :: later.visits }

/-- The occupants that a sweep leaves on their plugs, and the numbers of those that left. -/
def Sweep.settle (w : Sweep σ n) : List (Occupant n) × Except SiteError (List Int) :=
  match w.failure with
  | some e => (w.visits.map Visit.occupant ++ w.unvisited, .error e)
  | none =>
    ((w.visits.filter fun v => !v.leaving).map Visit.occupant,
      .ok ((w.visits.filter Visit.leaving).map fun v => v.occupant.id))

/-! ### The two kinds of visit -/

/-- A visit under a flat strategy. -/
def flatVisit (fleet : Fleet n) (offer : Power) (_ : Unit) (o : Occupant n) :
    Except SiteError (Visit n × Unit) := do
  match ← (o.vehicleIn fleet).request? offer with
  | none => return (⟨o, true⟩, ())
  | some request => return (⟨{ o with allocated := request }, false⟩, ())

/-- A visit under the granular strategy; `inUse` counts the steps in use. -/
def granularVisit (fleet : Fleet n) (budget : Int) (step cap : Power) (inUse : Int)
    (o : Occupant n) : Except SiteError (Visit n × Int) := do
  let held := stepsFor o.allocated.watts step.watts
  let offer := if 0 < budget - inUse then min (o.allocated + step) cap else o.allocated
  match ← (o.vehicleIn fleet).request? offer with
  | none => return (⟨o, true⟩, inUse - held)
  | some request =>
    let next := inUse - held + stepsFor request.watts step.watts
    if next ≤ budget then return (⟨{ o with allocated := request }, false⟩, next)
    else return (⟨o, false⟩, inUse)

/-- The whole steps that the occupants' allocations take up. -/
def stepsInUse (step : Power) (occupants : List (Occupant n)) : Int :=
  occupants.foldl (fun count o => count + stepsFor o.allocated.watts step.watts) 0

namespace Charger

/-! ### Re-allocation -/

/-- What each plug is offered under a flat strategy.  A paired charger counts the plugs that are
free before anybody leaves. -/
def flatOffer (c : Charger n) : Except SiteError Power :=
  match c.strategy with
  | .exclusive => .ok c.grid
  | strategy => do
    let share ← liftNumber (c.grid.divInt? strategy.plugs)
    match strategy with
    | .paired plugs =>
      let free := plugs - c.occupants.length
      return if plugs < free * 2 then share.timesInt 2 else share
    | .split _ => return share
    | .custom _ _ shown => .error (.unknownStrategy shown)
    -- the other strategies do not come here
    | strategy => .error (.unknownStrategy strategy.kind)

/-- Re-allocation in steps of `step` watts, up to `cap` for one plug. -/
def reallocateGranular (fleet : Fleet n) (c : Charger n) (step cap : Power) :
    Charger n × Except SiteError (List Int) :=
  let budget := c.grid.watts / step.watts
  let swept := sweep (granularVisit fleet budget step cap) (stepsInUse step c.occupants) c.occupants
  let (occupants, departed) := swept.settle
  ({ c with occupants }, departed)

/-- Re-allocation with the same offer to every plug. -/
def reallocateFlat (fleet : Fleet n) (c : Charger n) (offer : Power) :
    Charger n × Except SiteError (List Int) :=
  let (occupants, departed) := (sweep (flatVisit fleet offer) () c.occupants).settle
  ({ c with occupants }, departed)

/-- Decides anew how much power each occupant gets; answers the numbers of those who leave. -/
def reallocate (fleet : Fleet n) (c : Charger n) : Charger n × Except SiteError (List Int) :=
  match c.strategy with
  | .granular _ stepKw capKw =>
    match Power.ofKilowatts? stepKw, Power.ofKilowatts? capKw with
    | .ok step, .ok cap => c.reallocateGranular fleet step cap
    | .error e, _ | _, .error e => (c, .error (.number e))
  | _ =>
    match c.flatOffer with
    | .ok offer => c.reallocateFlat fleet offer
    | .error e => (c, .error e)

/-- The events of vehicles leaving, told once all who leave have left. -/
def departures (c : Charger n) (ids : List Int) : List Event :=
  c.report (ids.map Event.unplugged)

/-! ### Charging -/

/-- Charges occupants one after the other at the power granted to them, adding up the energy.  If
one cannot be charged, those before it have been. -/
def chargeOccupants (d : Duration) :
    List (Occupant n) → Fleet n → Energy → Fleet n × Except SiteError Energy
  | [], fleet, sum => (fleet, .ok sum)
  | o :: rest, fleet, sum =>
    match (o.vehicleIn fleet).charge? o.allocated d with
    | .error e => (fleet, .error e)
    | .ok (v, added) => chargeOccupants d rest (fleet.set o.vehicle v) (sum + added)

/-- Charges all occupants for a duration; answers the energy delivered. -/
def charge (fleet : Fleet n) (c : Charger n) (d : Duration) : Fleet n × Except SiteError Energy :=
  chargeOccupants d c.occupants fleet .zero

end Charger

end ChargingSite
