import ChargingSite.Quantity.Duration
import ChargingSite.Quantity.Percentage
import ChargingSite.Quantity.Power
import ChargingSite.Number.Decimal.Shortest
import ChargingSite.Text.Quoted

/-!
# What can go wrong on a charging site

`SiteError` has one constructor for each cause of failure outside the reading of configurations, and
`SiteError.message` words it.  A cause carries what its message needs: where that is a power in
kilowatts, the cause holds the kilowatts, because a power can be too large to have any.
-/

namespace ChargingSite

/-- A cause of failure. -/
inductive SiteError where
  /-- A number or a duration does not exist. -/
  | number (cause : NumberError)
  /-- A charge curve of fewer than two points. -/
  | tooFewPoints (count : Nat)
  /-- A charge curve with a point whose state of charge is not above that of the point before. -/
  | notIncreasing (before after : Percentage)
  /-- A state of charge below the first or above the last point of a charge curve. -/
  | outsideCurve (stateOfCharge first last : Percentage)
  /-- A vehicle model whose charge curve does not reach from 0 % to 100 %. -/
  | partialCurve (model : String) (first last : Percentage)
  /-- A vehicle model with a battery that holds nothing. -/
  | emptyBattery (model : String)
  /-- A vehicle was to be charged with a negative power. -/
  | negativePower (model : String) (kilowatts : Binary64)
  /-- No catalog entry has this name. -/
  | unknownSpec (name : String)
  /-- A granular charger whose step is not positive. -/
  | stepNotPositive (watts : Int)
  /-- A granular charger whose whole steps add up to less than the least charge power. -/
  | budgetTooSmall (kilowatts : Binary64)
  /-- A vehicle was to be plugged into a fully occupied charger. -/
  | noFreePlug (vehicle : Int) (charger : String)
  /-- A strategy without a rule for sharing, in the words that show it. -/
  | unknownStrategy (shown : String)
  /-- A simulation whose steps take no time. -/
  | stepDurationNotPositive (step : Duration)
  /-- A step of a simulation without chargers or without vehicles. -/
  | invalidSimulation (chargers vehicles : Nat)
  /-- No vehicle or charger has this number. -/
  | unknownId (id : Int)
  /-- The frames report fewer chargers than the scenario has. -/
  | missingCharger (position reported : Nat)
  /-- The frames do not all report the same number of chargers. -/
  | unevenFrames (frames : Nat)
  deriving DecidableEq

/-- The wording of each cause. -/
def SiteError.message : SiteError → String
  | number cause => cause.message
  | tooFewPoints n => "a charge curve needs at least two points, got " ++ toString n
  | notIncreasing a b =>
    "curve points must have strictly increasing state of charge (" ++ a.text ++
      " is followed by " ++ b.text ++ ")"
  | outsideCurve s a b =>
    "state of charge " ++ s.text ++ " is outside the curve range [" ++ a.text ++ ", " ++
      b.text ++ "]"
  | partialCurve name a b =>
    "charge curve for " ++ quoted name ++ " must span 0%–100%, got " ++ a.text ++ "–" ++ b.text
  | emptyBattery name => "battery capacity for " ++ quoted name ++ " must be positive"
  | negativePower name kw =>
    "cannot charge " ++ quoted name ++ " with negative power " ++ Power.kilowattText kw
  | unknownSpec name => "Unable to find vehicle by name " ++ quoted name
  | stepNotPositive w => "granular power step must be positive, got " ++ toString w ++ " W"
  | budgetTooSmall kw =>
    "granular budget of " ++ kw.shortest ++ " kW cannot cover the 5.0 kW minimum charge rate"
  | noFreePlug id charger => "no free plug for vehicle " ++ toString id ++ " on " ++ charger
  | unknownStrategy shown => "unknown load-sharing strategy " ++ shown
  | stepDurationNotPositive d => "step_duration must be positive, got " ++ d.text
  | invalidSimulation chargers vehicles =>
    "cannot step an invalid simulation (" ++ toString chargers ++ " chargers, " ++
      toString vehicles ++ " vehicles)"
  | unknownId id => toString id
  | missingCharger i n =>
    "index " ++ toString i ++ " is out of bounds for axis 0 with size " ++ toString n
  | unevenFrames n =>
    "setting an array element with a sequence. The requested array has an inhomogeneous shape " ++
      "after 1 dimensions. The detected shape was (" ++ toString n ++ ",) + inhomogeneous part."

/-- A number that does not exist is a cause of failure like any other. -/
def liftNumber {α : Type} : Except NumberError α → Except SiteError α
  | .ok a => .ok a
  | .error e => .error (.number e)

instance : MonadLift (Except NumberError) (Except SiteError) := ⟨liftNumber⟩

end ChargingSite
