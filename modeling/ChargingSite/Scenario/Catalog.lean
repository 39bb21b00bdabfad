import ChargingSite.Scenario

/-!
# The built-in catalog

Seven vehicle models with their usable capacities, samples of their fast-charging power, and rated
ranges.  A scenario that brings no catalog of its own uses this one.
-/

namespace ChargingSite

/-- A number of tenths. -/
def tenths (n : Nat) : Binary64 :=
  .round (mkRat n 10)

/-- The vehicle models that are always known. -/
def builtInCatalog : List VehicleSpec := [
  { name := "KIA EV6 Long Range AWD"
    batteryCapacityKwh := tenths 774
    chargeCurve :=
      [(0, 20), (2, 220), (45, 238), (50, 198), (55, 198), (60, 100), (70, 198), (77, 75),
        (78, 168), (82, 10), (83, 125), (100, 20)]
    epaMiles := 270 },
  { name := "Lucid Air Grand Touring"
    batteryCapacityKwh := 112
    chargeCurve :=
      [(0, 200), (2, 280), (10, 300), (20, 290), (80, 100), (100, 10)]
    epaMiles := 510 },
  { name := "Porsche Taycan 2022"
    batteryCapacityKwh := tenths 934
    chargeCurve :=
      [(0, 260), (21, 265), (22, 250), (28, 200), (80, 100), (100, 10)]
    epaMiles := 510 },
  { name := "Chevy Bolt 2022"
    batteryCapacityKwh := 65
    chargeCurve :=
      [(0, 55), (50, 55), (70, 33), (93, 26), (100, 5)]
    epaMiles := 259 },
  { name := "Tesla Model 3 LR AWD 2021"
    batteryCapacityKwh := 82
    chargeCurve :=
      [(0, 80), (8, 225), (11, 250), (20, 250), (24, 250), (26, 200), (34, 200), (36, 150),
        (66, 120), (69, 120), (80, 60), (100, 20)]
    epaMiles := 358 },
  { name := "Rivian R1S Standard Pack"
    batteryCapacityKwh := 105
    chargeCurve :=
      [(0, 100), (1, 190), (47, 230), (50, 173), (55, 147), (57, 175), (60, 145), (70, 75),
        (80, 75), (100, 15)]
    epaMiles := 352 },
  { name := "GMC Hummer EV Pickup"
    batteryCapacityKwh := 212
    chargeCurve :=
      [(0, 150), (1, 335), (2, 338), (34, 345), (36, 306), (40, 294), (50, 257), (62, 255),
        (70, 115), (80, 45), (83, 17), (90, 51), (100, 15)]
    epaMiles := 352 }]

end ChargingSite
