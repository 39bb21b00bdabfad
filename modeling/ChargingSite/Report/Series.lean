import ChargingSite.Frame
import ChargingSite.Error

/-!
# Series over time

`seriesOf?` reshapes frames, which go step by step, into one series per vehicle and one per charger.
Vehicles that have a name come first, in the order of their numbers, also if no frame mentions them;
the others follow in the order in which the frames first mention them, without a name.  The chargers
are those of the first frame.
-/

namespace ChargingSite

/-- What one vehicle got over time. -/
structure VehicleSeries where
  /-- The number of the vehicle. -/
  vehicle : Int
  name : String
  minutes : Array Binary64 := #[]
  powerKw : Array Binary64 := #[]
  stateOfCharge : Array Binary64 := #[]
  deriving DecidableEq

/-- What one charger delivered over time. -/
structure ChargerSeries where
  /-- The position of the charger. -/
  charger : Int
  minutes : Array Binary64 := #[]
  usedKw : Array Binary64 := #[]
  unusedKw : Array Binary64 := #[]
  deriving DecidableEq

/-- A number of watts in kilowatts. -/
def kilowattsOf? (watts : Int) : Except NumberError Binary64 :=
  Power.kilowatts? ⟨watts⟩

/-! ### Names -/

/-- Names a vehicle; one named before is renamed where it stands. -/
def assignName (id : Int) (name : String) : List (Int × String) → List (Int × String)
  | [] => [(id, name)]
  | entry :: rest =>
    if id = entry.1 then (id, name) :: rest else entry :: assignName id name rest

/-- Each vehicle once, in the order in which they are first named, with the last name given to
it. -/
def uniqueNames (names : List (Int × String)) : List (Int × String) :=
  names.foldl (fun named (id, name) => assignName id name named) []

/-- Names a vehicle in a list that is ordered by number; a vehicle named before is renamed. -/
def insertName (id : Int) (name : String) : List (Int × String) → List (Int × String)
  | [] => [(id, name)]
  | entry :: rest =>
    if id < entry.1 then (id, name) :: entry :: rest
    else if id = entry.1 then (id, name) :: rest
    else entry :: insertName id name rest

/-- The names ordered by number, the last one given to each number. -/
def sortNames (names : List (Int × String)) : List (Int × String) :=
  names.foldl (fun sorted (id, name) => insertName id name sorted) []

/-! ### Recording -/

/-- One more point of a vehicle's series. -/
def VehicleSeries.push (s : VehicleSeries) (minutes powerKw stateOfCharge : Binary64) :
    VehicleSeries :=
  { s with
    minutes := s.minutes.push minutes
    powerKw := s.powerKw.push powerKw
    stateOfCharge := s.stateOfCharge.push stateOfCharge }

/-- One more point of a charger's series. -/
def ChargerSeries.push (s : ChargerSeries) (minutes usedKw unusedKw : Binary64) : ChargerSeries :=
  { s with
    minutes := s.minutes.push minutes
    usedKw := s.usedKw.push usedKw
    unusedKw := s.unusedKw.push unusedKw }

/-- Applies `f` to the series of the vehicle with the given number, which is added at the end if
there is none. -/
def updateVehicle (id : Int) (f : VehicleSeries → VehicleSeries) :
    List VehicleSeries → List VehicleSeries
  | [] => [f { vehicle := id, name := "" }]
  | s :: rest => if s.vehicle = id then f s :: rest else s :: updateVehicle id f rest

/-- Applies `f` to the series of the charger with the given number, which has to be there. -/
def updateCharger? (id : Int) (f : ChargerSeries → Except NumberError ChargerSeries) :
    List ChargerSeries → Except SiteError (List ChargerSeries)
  | [] => .error (.unknownId id)
  | s :: rest =>
    if s.charger = id then do
      let s ← liftNumber (f s)
      return s :: rest
    else (updateCharger? id f rest).map (s :: ·)

/-- Records a vehicle's part of a frame. -/
def recordVehicle? (minutes : Binary64) (all : List VehicleSeries) (v : VehicleFrame) :
    Except NumberError (List VehicleSeries) := do
  let power ← kilowattsOf? v.allocatedWatts
  return updateVehicle v.vehicle (·.push minutes power v.stateOfCharge) all

/-- Records a charger's part of a frame. -/
def recordCharger? (minutes : Binary64) (all : List ChargerSeries) (c : ChargerFrame) :
    Except SiteError (List ChargerSeries) :=
  updateCharger? c.charger (fun s => do
    let used ← kilowattsOf? c.activeWatts
    let unused ← kilowattsOf? c.unusedWatts
    return s.push minutes used unused) all

/-- Records a frame. -/
def recordFrame? (all : List VehicleSeries × List ChargerSeries) (f : Frame) :
    Except SiteError (List VehicleSeries × List ChargerSeries) := do
  let vehicles ← liftNumber (f.vehicles.foldlM (recordVehicle? f.minutes) all.1)
  let chargers ← f.chargers.foldlM (recordCharger? f.minutes) all.2
  return (vehicles, chargers)

/-! ### The series -/

/-- Empty series for the chargers of a frame, one for each number. -/
def chargersOf (f : Frame) : List ChargerSeries :=
  (f.chargers.map ChargerFrame.charger).eraseDups.map fun id => { charger := id }

/-- The series of all vehicles and of all chargers. -/
def seriesOf? (frames : List Frame) (names : List (Int × String)) :
    Except SiteError (List VehicleSeries × List ChargerSeries) :=
  let vehicles : List VehicleSeries :=
    (sortNames names).map fun (id, name) => { vehicle := id, name }
  let chargers := (frames.head?.map chargersOf).getD []
  frames.foldlM recordFrame? (vehicles, chargers)

end ChargingSite
