import ChargingSite.Number.Binary64.Arithmetic
import ChargingSite.Number.Decimal.Places

/-!
# Percentages

States of charge are counted in hundredths of a percent, from `0` to `10000`.  A number outside that
range is moved to the nearer end, so making a percentage from an integer never fails; making one
from a double fails only where the double has no nearest integer.
-/

namespace ChargingSite

/-- A share between 0 % and 100 %, in hundredths of a percent. -/
structure Percentage where
  hundredths : Nat
  /-- It is at most 100 %. -/
  le_full : hundredths ≤ 10000
  deriving DecidableEq

namespace Percentage

/-! ### Making percentages -/

/-- A number of hundredths of a percent, moved into the range from 0 % to 100 %. -/
def ofHundredths (n : Int) : Percentage :=
  ⟨(min (max n 0) 10000).toNat, by omega⟩

/-- A number in range is kept. -/
theorem hundredths_ofHundredths {n : Nat} (h : n ≤ 10000) :
    (ofHundredths n).hundredths = n := by
  simp only [ofHundredths]
  omega

/-- A percentage is made from its own hundredths. -/
@[simp] theorem ofHundredths_hundredths (p : Percentage) : ofHundredths p.hundredths = p := by
  have h := hundredths_ofHundredths p.le_full
  cases p
  simp only [ofHundredths] at h ⊢
  simp only [h]

instance : Inhabited Percentage := ⟨ofHundredths 0⟩

/-- A number of percent, to the nearest hundredth. -/
def ofPercent? (x : Binary64) : Except NumberError Percentage :=
  (x * 100).nearestInt?.map ofHundredths

/-- A fraction of one. -/
def ofFraction? (x : Binary64) : Except NumberError Percentage :=
  ofPercent? (x * 100)

/-! ### Reading percentages -/

/-- The number of percent, correctly rounded. -/
def percent (p : Percentage) : Binary64 :=
  .round (mkRat p.hundredths 100)

/-- The fraction of one, correctly rounded. -/
def fraction (p : Percentage) : Binary64 :=
  .round (mkRat p.hundredths 10000)

/-- Two decimal places and a percent sign. -/
def text (p : Percentage) : String :=
  pointed p.hundredths 2 ++ "%"

/-- The percentage as a record of its hundredths. -/
def recordText (p : Percentage) : String :=
  "Percentage(hundredths=" ++ toString p.hundredths ++ ")"

/-! ### Order and difference -/

instance : LT Percentage := ⟨fun p q => p.hundredths < q.hundredths⟩
instance : LE Percentage := ⟨fun p q => p.hundredths ≤ q.hundredths⟩
instance (p q : Percentage) : Decidable (p < q) :=
  inferInstanceAs (Decidable (p.hundredths < q.hundredths))
instance (p q : Percentage) : Decidable (p ≤ q) :=
  inferInstanceAs (Decidable (p.hundredths ≤ q.hundredths))

/-- What `p` has over `q`, and 0 % if it has nothing. -/
protected def sub (p q : Percentage) : Percentage :=
  ofHundredths (p.hundredths - q.hundredths)

instance : Sub Percentage := ⟨Percentage.sub⟩

/-- The hundredths of a difference. -/
theorem hundredths_sub (p q : Percentage) :
    (p - q).hundredths = p.hundredths - q.hundredths := by
  have h := p.le_full
  show (ofHundredths _).hundredths = _
  simp only [ofHundredths]
  omega

end Percentage

end ChargingSite
