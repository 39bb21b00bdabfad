import ChargingSite.Number.Binary64.Arithmetic
import ChargingSite.Number.Decimal.Places

/-!
# Electric power

Power is a whole number of watts, so that sharing a grid connection stays exact.  Scaling and
division cut the result off toward zero; an integer divisor is exact, a double is applied to the
nearest double of the watts.
-/

namespace ChargingSite

/-! ### Division toward zero -/

/-- The quotient of two integers, cut off toward zero.  It is the quotient of their magnitudes, with
a minus unless a number that is not negative is divided by a positive one, or a negative number by
one that is not positive. -/
def quotientTowardZero (a b : Int) : Int :=
  let magnitude : Int := a.natAbs / b.natAbs
  if 0 ≤ a ↔ 0 < b then magnitude else -magnitude

/-- Cut off toward zero, a quotient of integers is the truncating one.  Where its dividend is zero,
the minus that a negative divisor brings changes nothing. -/
theorem quotientTowardZero_eq_tdiv (a b : Int) : quotientTowardZero a b = a.tdiv b := by
  unfold quotientTowardZero
  have hmagnitude : ((a.tdiv b).natAbs : Int) = a.natAbs / b.natAbs :=
    congrArg Int.ofNat (Int.natAbs_tdiv a b)
  rw [← hmagnitude]
  -- the signs of the two integers decide the sign of the quotient
  rcases Int.lt_trichotomy b 0 with hb | rfl | hb
  · rcases Int.lt_or_le a 0 with ha | ha
    · have hsign := Int.tdiv_nonneg_of_nonpos_of_nonpos (Int.le_of_lt ha) (Int.le_of_lt hb)
      rw [if_pos (by omega)]
      omega
    · have hsign := Int.tdiv_nonpos_of_nonneg_of_nonpos ha (Int.le_of_lt hb)
      rw [if_neg (by omega)]
      omega
  · simp
  · rcases Int.lt_or_le a 0 with ha | ha
    · have hsign := Int.tdiv_nonneg (a := -a) (by omega) (Int.le_of_lt hb)
      rw [Int.neg_tdiv] at hsign
      rw [if_neg (by omega)]
      omega
    · have hsign := Int.tdiv_nonneg ha (Int.le_of_lt hb)
      rw [if_pos (by omega)]
      omega

/-! ### Powers -/

/-- A signed power in whole watts. -/
structure Power where
  watts : Int
  deriving DecidableEq, Inhabited

namespace Power

/-! ### Arithmetic -/

instance : Add Power := ⟨fun p q => ⟨p.watts + q.watts⟩⟩
instance : Sub Power := ⟨fun p q => ⟨p.watts - q.watts⟩⟩
instance : Neg Power := ⟨fun p => ⟨-p.watts⟩⟩

instance : LT Power := ⟨fun p q => p.watts < q.watts⟩
instance : LE Power := ⟨fun p q => p.watts ≤ q.watts⟩
instance (p q : Power) : Decidable (p < q) :=
  inferInstanceAs (Decidable (p.watts < q.watts))
instance (p q : Power) : Decidable (p ≤ q) :=
  inferInstanceAs (Decidable (p.watts ≤ q.watts))

instance : Max Power := ⟨fun p q => ⟨max p.watts q.watts⟩⟩
instance : Min Power := ⟨fun p q => ⟨min p.watts q.watts⟩⟩

/-- The sum of several powers. -/
def total (ps : List Power) : Power :=
  ps.foldl (· + ·) ⟨0⟩

/-- `n` times the power. -/
def timesInt (p : Power) (n : Int) : Power :=
  ⟨p.watts * n⟩

/-- `x` times the power. -/
def timesDouble? (p : Power) (x : Binary64) : Except NumberError Power := do
  let w ← Binary64.ofInt? p.watts
  let n ← (w * x).truncate?
  return ⟨n⟩

/-- The `n`-th part of the power, cut off toward zero. -/
def divInt? (p : Power) (n : Int) : Except NumberError Power :=
  if n = 0 then .error .integerByZero else .ok ⟨quotientTowardZero p.watts n⟩

/-- Every integer but zero divides the watts, toward zero. -/
theorem divInt?_eq_ok_iff {p q : Power} {n : Int} :
    p.divInt? n = .ok q ↔ n ≠ 0 ∧ q = ⟨p.watts.tdiv n⟩ := by
  unfold divInt?
  rw [quotientTowardZero_eq_tdiv]
  by_cases hn : n = 0
  · simp [hn]
  · simp [hn, eq_comm]

/-- The power divided by a double, cut off toward zero. -/
def divDouble? (p : Power) (x : Binary64) : Except NumberError Power := do
  let w ← Binary64.ofInt? p.watts
  let q ← w.div? x
  let n ← q.truncate?
  return ⟨n⟩

/-- Adding powers adds their watts. -/
@[simp] theorem watts_add (p q : Power) : (p + q).watts = p.watts + q.watts := rfl

/-- Subtracting powers subtracts their watts. -/
@[simp] theorem watts_sub (p q : Power) : (p - q).watts = p.watts - q.watts := rfl

/-- The opposite power has the opposite watts. -/
@[simp] theorem watts_neg (p : Power) : (-p).watts = -p.watts := rfl

/-- The greater of two powers has the greater of their watts. -/
@[simp] theorem watts_max (p q : Power) : (max p q).watts = max p.watts q.watts := rfl

/-- The lesser of two powers has the lesser of their watts. -/
@[simp] theorem watts_min (p q : Power) : (min p q).watts = min p.watts q.watts := rfl

/-- The sum from the left, taken out of its start. -/
theorem watts_foldl_add (ps : List Power) (start : Power) :
    (ps.foldl (· + ·) start).watts = start.watts + (total ps).watts := by
  induction ps generalizing start with
  | nil => simp [total]
  | cons p ps ih =>
    have h := ih (⟨0⟩ + p)
    rw [watts_add, Int.zero_add] at h
    have htotal : (total (p :: ps)).watts = p.watts + (total ps).watts := h
    rw [List.foldl_cons, ih, htotal, watts_add]
    omega

/-- Nothing adds up to no watts. -/
@[simp] theorem watts_total_nil : (total []).watts = 0 := rfl

/-- The watts of a sum, one power at a time. -/
@[simp] theorem watts_total_cons (p : Power) (ps : List Power) :
    (total (p :: ps)).watts = p.watts + (total ps).watts := by
  have h := watts_foldl_add ps (⟨0⟩ + p)
  rw [watts_add, Int.zero_add] at h
  exact h

/-! ### Kilowatts -/

/-- A number of kilowatts, cut off to whole watts. -/
def ofKilowatts? (x : Binary64) : Except NumberError Power :=
  (x * 1000).truncate?.map Power.mk

/-- The number of kilowatts, correctly rounded. -/
def kilowatts? (p : Power) : Except NumberError Binary64 :=
  Binary64.quotient? p.watts 1000

/-- A number of kilowatts to one decimal place, with the unit. -/
def kilowattText (kilowatts : Binary64) : String :=
  kilowatts.fixed 1 ++ " kW"

/-- The power in kilowatts to one decimal place. -/
def text? (p : Power) : Except NumberError String :=
  p.kilowatts?.map kilowattText

/-- The power as a record of its watts. -/
def recordText (p : Power) : String :=
  "Power(watts=" ++ toString p.watts ++ ")"

end Power

end ChargingSite
