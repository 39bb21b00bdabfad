import ChargingSite.Quantity.Energy

/-!
# Events worth a log line

What happens to single vehicles is of interest while looking into a run; what happens to the run as
a whole is of general interest.
-/

namespace ChargingSite

/-- Something that happened. -/
inductive Event where
  /-- A vehicle took a plug of the charger described. -/
  | pluggedIn (vehicle : Int) (charger : String)
  /-- A vehicle left the charger described. -/
  | unplugged (vehicle : Int) (charger : String)
  /-- A simulation without chargers or without vehicles was not run. -/
  | notRun (chargers vehicles : Nat)
  /-- A simulation ran to its end. -/
  | finished (steps : Nat) (dispensed : Energy) (elapsed : Duration)
  /-- A scenario was run and summed up. -/
  | complete (kilowattHours minutes : Binary64) (chargers : Nat)
  deriving DecidableEq

namespace Event

/-- Whether an event is of general interest. -/
def isGeneral : Event → Bool
  | pluggedIn .. | unplugged .. => false
  | _ => true

/-- The log line. -/
def text : Event → String
  | pluggedIn id charger => "vehicle " ++ toString id ++ " plugged into " ++ charger
  | unplugged id charger => "vehicle " ++ toString id ++ " unplugged from " ++ charger
  | notRun chargers vehicles =>
    "simulation not run: " ++ toString chargers ++ " chargers, " ++ toString vehicles ++ " vehicles"
  | finished steps dispensed elapsed =>
    "simulation finished: " ++ toString steps ++ " steps, " ++ dispensed.text ++
      " dispensed over " ++ elapsed.text
  | complete kwh minutes chargers =>
    "run complete: " ++ kwh.fixed 1 ++ " kWh over " ++ minutes.fixed 1 ++ " min across " ++
      toString chargers ++ " chargers"

end Event

end ChargingSite
