import ChargingSite.Quantity.Duration
import ChargingSite.Quantity.Percentage
import ChargingSite.Quantity.Power
import ChargingSite.Number.Decimal.Shortest

/-!
# Energy

Energy is a double of watt-hours.  It accumulates from power held over a duration
(`Power.over?`), and dividing it by a power gives the time that power needs (`Energy.timeAt?`).
-/

namespace ChargingSite

/-- An amount of energy in watt-hours. -/
structure Energy where
  wattHours : Binary64
  deriving DecidableEq, Inhabited

namespace Energy

/-! ### Arithmetic and order -/

instance : Add Energy := ⟨fun a b => ⟨a.wattHours + b.wattHours⟩⟩
instance : Sub Energy := ⟨fun a b => ⟨a.wattHours - b.wattHours⟩⟩

/-- No energy. -/
def zero : Energy := ⟨0⟩

/-- `a < b` as numbers of watt-hours. -/
def lt (a b : Energy) : Bool := a.wattHours.lt b.wattHours

/-- `a ≤ b` as numbers of watt-hours. -/
def le (a b : Energy) : Bool := a.wattHours.le b.wattHours

/-! ### Kilowatt-hours -/

/-- A number of kilowatt-hours. -/
def ofKilowattHours (x : Binary64) : Energy :=
  ⟨x * 1000⟩

/-- The number of kilowatt-hours. -/
def kilowattHours (a : Energy) : Binary64 :=
  a.wattHours / 1000

/-- The energy in kilowatt-hours to one decimal place. -/
def text (a : Energy) : String :=
  a.kilowattHours.fixed 1 ++ " kWh"

/-- The energy as a record of its watt-hours. -/
def recordText (a : Energy) : String :=
  "Energy(watt_hours=" ++ a.wattHours.shortest ++ ")"

end Energy

/-! ### Between the quantities -/

/-- The given share of an energy. -/
def Percentage.of (p : Percentage) (a : Energy) : Energy :=
  ⟨a.wattHours * p.fraction⟩

/-- The energy that a power delivers in a duration. -/
def Power.over? (p : Power) (d : Duration) : Except NumberError Energy := do
  let w ← Binary64.ofInt? p.watts
  return ⟨w * d.hours⟩

/-- The time in which a power delivers the energy; no time at all if it delivers nothing. -/
def Energy.timeAt? (a : Energy) (p : Power) : Except NumberError Duration :=
  if p.watts ≤ 0 then .ok .zero
  else do
    let w ← Binary64.ofInt? p.watts
    Duration.ofSeconds? (a.wattHours / w * 3600)

end ChargingSite
