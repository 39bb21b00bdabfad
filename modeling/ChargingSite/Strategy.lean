import ChargingSite.Error

/-!
# Load-sharing strategies

A charger has one grid connection and one or more plugs, and its strategy says how the plugs share
the connection.

* `exclusive`: one plug, which gets all of it;
* `paired`: each plug gets an equal share, and twice that while more than half of the plugs are
  free;
* `split`: each plug gets an equal share;
* `granular`: power is handed out in whole steps up to a ceiling per plug.

A granular charger whose whole steps add up to less than the least charge power could never serve
anybody; `checkBudget` refuses it.
-/

namespace ChargingSite

/-- How the plugs of a charger share its grid connection. -/
inductive Strategy where
  /-- A single plug with the whole connection. -/
  | exclusive
  /-- Equal shares, doubled while more than half of the plugs are free. -/
  | paired (plugs : Int)
  /-- Equal shares. -/
  | split (plugs : Int)
  /-- Whole steps of `stepKw` kilowatts, at most `capKw` kilowatts for one plug. -/
  | granular (plugs : Int) (stepKw capKw : Binary64)
  /-- A strategy declared elsewhere: it has a kind and plugs, but no rule for sharing.  Messages
  show it in the words that it brings along. -/
  | custom (kind : String) (plugs : Int) (shown : String)
  deriving DecidableEq

namespace Strategy

/-- The word that selects a strategy in a configuration. -/
def kind : Strategy → String
  | exclusive => "exclusive"
  | paired _ => "paired"
  | split _ => "split"
  | granular .. => "granular"
  | custom kind .. => kind

/-- The number of plugs. -/
def plugs : Strategy → Int
  | exclusive => 1
  | paired n | split n | granular n .. | custom _ n _ => n

end Strategy

/-! ### Whole steps -/

/-- The least power at which a vehicle is charged; every request is lifted to it. -/
def minimumCharge : Power := ⟨5000⟩

/-- The number of whole steps that cover the given watts. -/
def stepsFor (watts step : Int) : Int :=
  -(-watts / step)

/-- Refuses a step that is not positive, and a grid connection whose whole steps cannot cover the
least charge power. -/
def checkBudget (grid step : Int) : Except SiteError Unit :=
  if step ≤ 0 then .error (.stepNotPositive step)
  else if grid / step < stepsFor minimumCharge.watts step then do
    let kilowatts ← liftNumber (Binary64.quotient? (grid / step * step) 1000)
    .error (.budgetTooSmall kilowatts)
  else .ok ()

end ChargingSite
