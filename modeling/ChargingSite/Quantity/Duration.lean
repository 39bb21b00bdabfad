import ChargingSite.Number.Binary64.Arithmetic

/-!
# Durations

A duration is a whole number of microseconds whose whole days stay below a thousand million in
magnitude.  `Duration.ofSeconds?` rounds a double of seconds to microseconds, `Duration.seconds` is
the double nearest to the exact number of seconds, and `Duration.text` writes days and the time of
day.  Products and quotients with doubles take the exact value of the double and round once.
-/

namespace ChargingSite

/-- The microseconds of a day. -/
def microsecondsPerDay : Int := 86400000000

/-- The durations that exist: from `-999999999` days up to, but not including, `1000000000` days. -/
def InDurationRange (microseconds : Int) : Prop :=
  -86399999913600000000 ≤ microseconds ∧ microseconds < 86400000000000000000

instance (n : Int) : Decidable (InDurationRange n) := by
  unfold InDurationRange
  infer_instance

/-- A span of time. -/
structure Duration where
  microseconds : Int
  /-- The span lies in the range of durations. -/
  inRange : InDurationRange microseconds
  deriving DecidableEq

namespace Duration

/-! ### Making durations -/

/-- The empty span. -/
def zero : Duration := ⟨0, by decide⟩

/-- A whole number of microseconds, if it is in range. -/
def ofMicroseconds? (n : Int) : Except NumberError Duration :=
  if h : InDurationRange n then .ok ⟨n, h⟩ else .error (.daysOutOfRange (n / microsecondsPerDay))

/-- A number of seconds, rounded to whole microseconds with ties to even.  The fraction of a second
is turned into microseconds on its own, with one rounding to a double, so that seconds far from zero
do not cost it any digits. -/
def ofSeconds? (x : Binary64) : Except NumberError Duration := do
  let whole ← x.truncate?
  let fraction := Binary64.round (x.toRat - whole) * 1000000
  ofMicroseconds? (nearestEven ((whole * 1000000 : Int) + fraction.toRat))

/-- The sum of two spans, if it is in range. -/
def add? (a b : Duration) : Except NumberError Duration :=
  ofMicroseconds? (a.microseconds + b.microseconds)

/-- The difference of two spans, if it is in range. -/
def sub? (a b : Duration) : Except NumberError Duration :=
  ofMicroseconds? (a.microseconds - b.microseconds)

/-- The opposite span, if it is in range. -/
def neg? (d : Duration) : Except NumberError Duration :=
  ofMicroseconds? (-d.microseconds)

/-- `n` times the span. -/
def timesInt? (d : Duration) (n : Int) : Except NumberError Duration :=
  ofMicroseconds? (d.microseconds * n)

/-- `x` times the span, by the exact value of `x`, to the nearest microsecond with ties to even. -/
def timesDouble? (d : Duration) (x : Binary64) : Except NumberError Duration := do
  let r ← x.ratio?
  ofMicroseconds? (nearestEven (d.microseconds * r))

/-- The span divided by an exact number, to the nearest microsecond with ties to even. -/
def divRat? (d : Duration) (r : Rat) : Except NumberError Duration :=
  if r = 0 then .error .integerByZero else ofMicroseconds? (nearestEven (d.microseconds / r))

/-- The span divided by an integer. -/
def divInt? (d : Duration) (n : Int) : Except NumberError Duration :=
  d.divRat? n

/-- The span divided by the exact value of a double. -/
def divDouble? (d : Duration) (x : Binary64) : Except NumberError Duration := do
  let r ← x.ratio?
  d.divRat? r

/-- How many times the second span fits into the first, correctly rounded. -/
def quotient? (a b : Duration) : Except NumberError Binary64 :=
  Binary64.intQuotient? a.microseconds b.microseconds

/-- A span has the microseconds that it was made from. -/
theorem microseconds_of_ofMicroseconds? {n : Int} {d : Duration}
    (h : ofMicroseconds? n = .ok d) : d.microseconds = n := by
  unfold ofMicroseconds? at h
  split at h
  · cases h; rfl
  · cases h

/-- Spans are added exactly. -/
theorem microseconds_of_add? {a b c : Duration} (h : a.add? b = .ok c) :
    c.microseconds = a.microseconds + b.microseconds :=
  microseconds_of_ofMicroseconds? h

/-- Spans are multiplied by integers exactly. -/
theorem microseconds_of_timesInt? {a c : Duration} {n : Int} (h : a.timesInt? n = .ok c) :
    c.microseconds = a.microseconds * n :=
  microseconds_of_ofMicroseconds? h

/-! ### Reading durations -/

/-- The number of seconds, correctly rounded. -/
def seconds (d : Duration) : Binary64 :=
  .round (mkRat d.microseconds 1000000)

/-- The number of hours: the rounded number of seconds divided by 3600. -/
def hours (d : Duration) : Binary64 :=
  d.seconds / 3600

/-- The whole days, rounded down. -/
def days (d : Duration) : Int :=
  d.microseconds / microsecondsPerDay

/-- The microseconds beyond the whole days. -/
def timeOfDay (d : Duration) : Nat :=
  (d.microseconds % microsecondsPerDay).toNat

/-- A number below a hundred in two digits. -/
def twoDigits (n : Nat) : String :=
  (if n < 10 then "0" else "") ++ toString n

/-- Days, if there are any, and the time of day as `H:MM:SS`, with six more digits if it is not a
whole number of seconds.  The days are rounded down, so the time of day is never negative. -/
def text (d : Duration) : String :=
  let secs := d.timeOfDay / 1000000
  let micros := d.timeOfDay % 1000000
  let clock := toString (secs / 3600) ++ ":" ++ twoDigits (secs / 60 % 60) ++ ":" ++
    twoDigits (secs % 60)
  let digits := toString micros
  (if d.days = 0 then ""
    else toString d.days ++ (if d.days.natAbs = 1 then " day, " else " days, ")) ++
  clock ++
  (if micros = 0 then ""
    else "." ++ String.ofList (List.replicate (6 - digits.length) '0') ++ digits)

/-- The span as a record of its days, seconds and microseconds, those that are zero left out. -/
def recordText (d : Duration) : String :=
  let parts : List (String × Int) :=
    [("days", d.days), ("seconds", (d.timeOfDay / 1000000 : Nat)),
      ("microseconds", (d.timeOfDay % 1000000 : Nat))]
  let written := (parts.filter fun part => part.2 ≠ 0).map fun (name, n) =>
    name ++ "=" ++ toString n
  "datetime.timedelta(" ++ (if written.isEmpty then "0" else ", ".intercalate written) ++ ")"

end Duration

end ChargingSite
