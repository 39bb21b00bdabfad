import ChargingSite.Number.Binary64.Arithmetic

/-!
# Frames

Each step of a simulation leaves one frame: what every charger delivered and what every plugged-in
vehicle got.  Frames are what reports are made from, whether a simulation made them or not.
-/

namespace ChargingSite

/-- One plugged-in vehicle during one step. -/
structure VehicleFrame where
  /-- The number of the vehicle. -/
  vehicle : Int
  /-- The watts granted to it. -/
  allocatedWatts : Int
  /-- Its state of charge in percent, after the step. -/
  stateOfCharge : Binary64
  deriving DecidableEq

/-- One charger during one step. -/
structure ChargerFrame where
  /-- The position of the charger. -/
  charger : Int
  /-- The watts granted to all its occupants. -/
  activeWatts : Int
  /-- What that leaves of the grid connection; negative if the least charge power lifts a plug above
  its share. -/
  unusedWatts : Int
  deriving DecidableEq

/-- One step of a simulation. -/
structure Frame where
  /-- The number of the step, from one on. -/
  step : Int
  /-- The watt-hours delivered during the step. -/
  dispensedWh : Binary64
  chargers : List ChargerFrame
  /-- The vehicles still plugged in, charger by charger in plug-in order. -/
  vehicles : List VehicleFrame
  /-- The simulated seconds at the end of the step. -/
  elapsedSeconds : Binary64
  deriving DecidableEq

/-- The simulated minutes at the end of the step. -/
def Frame.minutes (f : Frame) : Binary64 :=
  f.elapsedSeconds / 60

end ChargingSite
