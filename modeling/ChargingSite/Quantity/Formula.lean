import ChargingSite.Quantity.Energy
import ChargingSite.Text.Quoted

/-!
# Formulas over quantities

A formula combines percentages, powers, energies, durations and plain numbers.  Each operation is
defined for certain kinds of operands only (`Value.add?`, `Value.mul?`, …), and says so about the
others.  A truth value counts as the number one or zero, except where a power is scaled; a zero of
any kind of number may stand in front of a sum of quantities.
-/

namespace ChargingSite

/-- A value of a formula. -/
inductive Value where
  | integer (n : Int)
  | decimal (x : Binary64)
  | bool (b : Bool)
  | duration (d : Duration)
  | percentage (p : Percentage)
  | power (p : Power)
  | energy (a : Energy)
  | text (s : String)
  deriving DecidableEq

/-- Why a formula has no value. -/
inductive FormulaError where
  /-- A number or a duration does not exist. -/
  | number (cause : NumberError)
  /-- The operation is not defined for operands of these two kinds. -/
  | operands (operator left right : String)
  /-- Values of these two kinds have no order. -/
  | comparison (operator left right : String)
  /-- A value of this kind has no opposite. -/
  | negation (kind : String)
  /-- The function chooses among its arguments, and there are none. -/
  | nothing (function : String)
  /-- The function is not defined for these arguments. -/
  | arguments (kinds : List String)
  deriving DecidableEq

/-- The wording of each cause. -/
def FormulaError.message : FormulaError → String
  | number cause => cause.message
  | operands op l r =>
    "unsupported operand type(s) for " ++ op ++ ": '" ++ l ++ "' and '" ++ r ++ "'"
  | comparison op l r =>
    "'" ++ op ++ "' not supported between instances of '" ++ l ++ "' and '" ++ r ++ "'"
  | negation kind => "bad operand type for unary -: '" ++ kind ++ "'"
  | nothing function => function ++ "() arg is an empty sequence"
  | arguments kinds => "unsupported arguments: " ++ ", ".intercalate kinds

/-- A number that does not exist leaves a formula without a value. -/
def orNumber {α : Type} : Except NumberError α → Except FormulaError α
  | .ok a => .ok a
  | .error e => .error (.number e)

namespace Value

/-- The word for the kind of a value. -/
def kind : Value → String
  | integer _ => "int"
  | decimal _ => "float"
  | bool _ => "bool"
  | duration _ => "datetime.timedelta"
  | percentage _ => "Percentage"
  | power _ => "Power"
  | energy _ => "Energy"
  | text _ => "str"

/-- A truth value as the number one or zero; other values as they are. -/
def unbool : Value → Value
  | bool b => integer (if b then 1 else 0)
  | v => v

/-- Whether a value is the number zero. -/
def isZero (v : Value) : Bool :=
  match v.unbool with
  | integer n => n = 0
  | decimal x => x.eq 0
  | _ => false

/-- The double nearest to a number. -/
def toBinary64? (v : Value) : Except FormulaError Binary64 :=
  match v.unbool with
  | decimal x => .ok x
  | integer n => orNumber (Binary64.ofInt? n)
  | v => .error (.arguments [v.kind])

/-- The integer of a number, cut off toward zero. -/
def toInt? (v : Value) : Except FormulaError Int :=
  match v.unbool with
  | integer n => .ok n
  | decimal x => orNumber x.truncate?
  | v => .error (.arguments [v.kind])

/-! ### Operations -/

/-- Applies an operation to two numbers: exactly to integers, otherwise to doubles. -/
def numeric? (operator : String) (exact : Int → Int → Except FormulaError Value)
    (rounded : Binary64 → Binary64 → Except FormulaError Value) (u v : Value) :
    Except FormulaError Value :=
  match u.unbool, v.unbool with
  | integer m, integer n => exact m n
  | decimal x, decimal y => rounded x y
  | integer m, decimal y => do rounded (← orNumber (Binary64.ofInt? m)) y
  | decimal x, integer n => do rounded x (← orNumber (Binary64.ofInt? n))
  | _, _ => .error (.operands operator u.kind v.kind)

/-- The sum of two values. -/
def add? : Value → Value → Except FormulaError Value
  | power p, power q => .ok (power (p + q))
  | energy a, energy b => .ok (energy (a + b))
  | duration c, duration d => orNumber ((c.add? d).map duration)
  | u, power q => if u.isZero then .ok (power q) else .error (.operands "+" u.kind "Power")
  | u, energy b => if u.isZero then .ok (energy b) else .error (.operands "+" u.kind "Energy")
  | u, v =>
    numeric? "+" (fun m n => .ok (integer (m + n))) (fun x y => .ok (decimal (x + y))) u v

/-- The difference of two values. -/
def sub? : Value → Value → Except FormulaError Value
  | percentage p, percentage q => .ok (percentage (p - q))
  | power p, power q => .ok (power (p - q))
  | energy a, energy b => .ok (energy (a - b))
  | duration c, duration d => orNumber ((c.sub? d).map duration)
  | u, v =>
    numeric? "-" (fun m n => .ok (integer (m - n))) (fun x y => .ok (decimal (x - y))) u v

/-- The product of two values: a share of an energy, a power over a duration, a scaled power or
duration, or a product of numbers. -/
def mul? : Value → Value → Except FormulaError Value
  | percentage p, energy a => .ok (energy (p.of a))
  | power p, duration d | duration d, power p => orNumber ((p.over? d).map energy)
  | power p, integer n | integer n, power p => .ok (power (p.timesInt n))
  | power p, decimal x | decimal x, power p => orNumber ((p.timesDouble? x).map power)
  | duration d, integer n | integer n, duration d => orNumber ((d.timesInt? n).map duration)
  | duration d, bool b | bool b, duration d => orNumber ((d.timesInt? b.toInt).map duration)
  | duration d, decimal x | decimal x, duration d => orNumber ((d.timesDouble? x).map duration)
  | u, v =>
    numeric? "*" (fun m n => .ok (integer (m * n))) (fun x y => .ok (decimal (x * y))) u v

/-- The quotient of two values: the time that an energy takes, a part of a power or of a duration, a
ratio of durations, or a quotient of numbers. -/
def div? : Value → Value → Except FormulaError Value
  | energy a, power p => orNumber ((a.timeAt? p).map duration)
  | power p, integer n => orNumber ((p.divInt? n).map power)
  | power p, decimal x => orNumber ((p.divDouble? x).map power)
  | duration d, integer n => orNumber ((d.divInt? n).map duration)
  | duration d, bool b => orNumber ((d.divInt? b.toInt).map duration)
  | duration d, decimal x => orNumber ((d.divDouble? x).map duration)
  | duration c, duration d => orNumber ((c.quotient? d).map decimal)
  | u, v =>
    numeric? "/" (fun m n => orNumber ((Binary64.intQuotient? m n).map decimal))
      (fun x y => orNumber ((x.div? y).map decimal)) u v

/-- The opposite of a value. -/
def neg? (v : Value) : Except FormulaError Value :=
  match v.unbool with
  | integer n => .ok (integer (-n))
  | decimal x => .ok (decimal (-x))
  | power p => .ok (power (-p))
  | duration d => orNumber (d.neg?.map duration)
  | v => .error (.negation v.kind)

/-! ### Comparison -/

/-- An order relation, by what it says of exact numbers and of doubles. -/
structure Relation where
  symbol : String
  onExact : Rat → Rat → Bool
  onDouble : Binary64 → Binary64 → Bool

/-- Less than. -/
def Relation.lt : Relation := ⟨"<", fun m n => m < n, Binary64.lt⟩
/-- At most. -/
def Relation.le : Relation := ⟨"<=", fun m n => m ≤ n, Binary64.le⟩
/-- Greater than. -/
def Relation.gt : Relation := ⟨">", fun m n => n < m, fun x y => y.lt x⟩
/-- At least. -/
def Relation.ge : Relation := ⟨">=", fun m n => n ≤ m, fun x y => y.le x⟩
/-- Equal. -/
def Relation.eq : Relation := ⟨"==", fun m n => m = n, Binary64.eq⟩

/-- What a relation says on two values of one kind, or on two numbers; nothing on others.  An
integer is compared to a finite double exactly, and lies with zero among the others. -/
def related? (r : Relation) (u v : Value) : Option Bool :=
  match u.unbool, v.unbool with
  | integer m, integer n => some (r.onExact m n)
  | decimal x, decimal y => some (r.onDouble x y)
  | integer m, decimal y => some (if y.isFinite then r.onExact m y.toRat else r.onDouble 0 y)
  | decimal x, integer n => some (if x.isFinite then r.onExact x.toRat n else r.onDouble x 0)
  | duration c, duration d => some (r.onExact c.microseconds d.microseconds)
  | percentage p, percentage q => some (r.onExact p.hundredths q.hundredths)
  | power p, power q => some (r.onExact p.watts q.watts)
  | energy a, energy b => some (r.onDouble a.wattHours b.wattHours)
  | _, _ => none

/-- Whether two values stand in an order relation. -/
def compare? (r : Relation) (u v : Value) : Except FormulaError Bool :=
  match related? r u v with
  | some b => .ok b
  | none => .error (.comparison r.symbol u.kind v.kind)

/-- Whether two values are equal; values that cannot be compared are not. -/
def equals (u v : Value) : Bool :=
  match u, v with
  | text s, text t => s = t
  | u, v => (related? .eq u v).getD false

/-- Among several values the first from which no later one stands in the relation. -/
def extreme? (r : Relation) : Value → List Value → Except FormulaError Value
  | best, [] => .ok best
  | best, v :: rest => do
    if ← compare? r v best then extreme? r v rest else extreme? r best rest

/-! ### Texts -/

/-- A value as it is shown. -/
def show? : Value → Except FormulaError Value
  | integer n => .ok (text (toString n))
  | decimal x => .ok (text x.shortest)
  | bool b => .ok (text (if b then "True" else "False"))
  | duration d => .ok (text d.text)
  | percentage p => .ok (text p.text)
  | power p => orNumber (p.text?.map text)
  | energy a => .ok (text a.text)
  | text s => .ok (text s)

/-- A value as a record of its parts. -/
def record? : Value → Except FormulaError Value
  | percentage p => .ok (text p.recordText)
  | power p => .ok (text p.recordText)
  | energy a => .ok (text a.recordText)
  | duration d => .ok (text d.recordText)
  | text s => .ok (text (quoted s))
  | v => v.show?

end Value

/-! ### Formulas -/

/-- The functions of formulas. -/
inductive Function where
  | percentage | power | energy
  | ofPercent | ofFraction | ofKilowatts | ofKilowattHours | microseconds
  | percent | fraction | kilowatts | kilowattHours
  | add | sub | mul | div | neg
  | lt | le | gt | ge | eq | ne
  | min | max | sum | sumFrom
  | asText | asRecord
  deriving DecidableEq

/-- The value of a function. -/
def Function.apply : Function → List Value → Except FormulaError Value
  | percentage, [] => .ok (.percentage (.ofHundredths 0))
  | percentage, [v] => do return .percentage (.ofHundredths (← v.toInt?))
  | power, [] => .ok (.power ⟨0⟩)
  | power, [v] => do return .power ⟨← v.toInt?⟩
  | energy, [] => .ok (.energy .zero)
  | energy, [v] => do return .energy ⟨← v.toBinary64?⟩
  | ofPercent, [v] =>
    match v.unbool with
    | .integer n => .ok (.percentage (.ofHundredths (n * 100)))
    | v => do orNumber ((Percentage.ofPercent? (← v.toBinary64?)).map .percentage)
  | ofFraction, [v] => do orNumber ((Percentage.ofFraction? (← v.toBinary64?)).map .percentage)
  | ofKilowatts, [v] =>
    match v.unbool with
    | .integer n => .ok (.power ⟨n * 1000⟩)
    | v => do orNumber ((Power.ofKilowatts? (← v.toBinary64?)).map .power)
  | ofKilowattHours, [v] => do return .energy (.ofKilowattHours (← v.toBinary64?))
  | microseconds, [v] => do orNumber ((Duration.ofMicroseconds? (← v.toInt?)).map .duration)
  | percent, [.percentage p] => .ok (.decimal p.percent)
  | fraction, [.percentage p] => .ok (.decimal p.fraction)
  | kilowatts, [.power p] => orNumber (p.kilowatts?.map .decimal)
  | kilowattHours, [.energy a] => .ok (.decimal a.kilowattHours)
  | add, [u, v] => u.add? v
  | sub, [u, v] => u.sub? v
  | mul, [u, v] => u.mul? v
  | div, [u, v] => u.div? v
  | neg, [v] => v.neg?
  | lt, [u, v] => (Value.compare? .lt u v).map .bool
  | le, [u, v] => (Value.compare? .le u v).map .bool
  | gt, [u, v] => (Value.compare? .gt u v).map .bool
  | ge, [u, v] => (Value.compare? .ge u v).map .bool
  | eq, [u, v] => .ok (.bool (u.equals v))
  | ne, [u, v] => .ok (.bool !(u.equals v))
  | min, [] => .error (.nothing "min")
  | min, v :: vs => Value.extreme? .lt v vs
  | max, [] => .error (.nothing "max")
  | max, v :: vs => Value.extreme? .gt v vs
  | sum, vs => vs.foldlM Value.add? (.integer 0)
  | sumFrom, v :: vs => vs.foldlM Value.add? v
  | asText, [v] => v.show?
  | asRecord, [v] => v.record?
  | _, vs => .error (.arguments (vs.map Value.kind))

/-- A formula. -/
inductive Formula where
  | value (v : Value)
  | apply (f : Function) (arguments : List Formula)

mutual

/-- The value of a formula; arguments are evaluated from left to right. -/
def Formula.eval : Formula → Except FormulaError Value
  | .value v => .ok v
  | .apply f arguments => do f.apply (← Formula.evalAll arguments)

/-- The values of several formulas. -/
def Formula.evalAll : List Formula → Except FormulaError (List Value)
  | [] => .ok []
  | e :: rest => do return (← e.eval) :: (← Formula.evalAll rest)

end

end ChargingSite
