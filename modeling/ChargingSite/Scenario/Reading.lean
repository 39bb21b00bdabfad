import ChargingSite.Number.Binary64.Arithmetic
import ChargingSite.Number.Decimal.Reader
import ChargingSite.Scenario.Verdict
import ChargingSite.Text.CharClass

/-!
# Reading the parts of a configuration

The readers of this module turn documents into numbers, texts, lists and fields.  They are generous
with numbers: a truth value counts as one or zero, and a text that writes a number is read.
-/

namespace ChargingSite

/-! ### Numbers -/

/-- A text without its underscores; `none` if one stands at either end or beside another one. -/
def dropUnderscores? : List Char → Option (List Char)
  | [] => some []
  | c :: '_' :: d :: rest =>
    if c = '_' then none else (dropUnderscores? (d :: rest)).map (c :: ·)
  | c :: rest => if c = '_' then none else (dropUnderscores? rest).map (c :: ·)

/-- The number that a text writes.  Blanks may stand around it, or single underscores within it, but
not both. -/
def numberOfText? (s : String) : Option Binary64 :=
  (readNumber? (trimBlanks s.toList)).or ((dropUnderscores? s.toList).bind readNumber?)

/-- A number. -/
def readNumber : Document → Verdict Binary64
  | .decimal x => .valid x
  | .integer n =>
    let x := Binary64.ofInt n
    if x.isFinite then .valid x else .fault .notNumber
  | .bool b => .valid (if b then 1 else 0)
  | .text s =>
    match numberOfText? s with
    | some x => .valid x
    | none => .fault .numberSyntax
  | .null | .list _ | .record _ => .fault .notNumber

/-- A number above zero. -/
def readPositive (d : Document) : Verdict Binary64 :=
  (readNumber d).require (fun x => Binary64.lt 0 x) (.notAbove 0)

/-- A number that is not negative. -/
def readNonNegative (d : Document) : Verdict Binary64 :=
  (readNumber d).require (fun x => Binary64.le 0 x) (.notAtLeast 0)

/-- A number from 0 to 100. -/
def readPercent (d : Document) : Verdict Binary64 :=
  ((readNumber d).require (fun x => x.le 100) (.notAtMost 100)).require
    (fun x => Binary64.le 0 x) (.notAtLeast 0)

/-! ### Integers -/

/-- An integer of more digits than this is not read. -/
def integerLimit : Nat := 4300

/-- What a text is in the plain notation of integers. -/
inductive PlainInteger where
  /-- It writes an integer. -/
  | value (n : Int)
  /-- It starts with more digits than are read. -/
  | tooLong
  /-- It is not in this notation. -/
  | malformed
  deriving DecidableEq, Repr

/-- A text in the plain notation of integers: an optional minus sign and digits, of which the first
is a zero only if it is the only one.  Too many digits are noticed before anything that follows. -/
def PlainInteger.ofText (cs : List Char) : PlainInteger :=
  let (negative, cs) := match cs with
    | '-' :: cs => (true, cs)
    | cs => (false, cs)
  let ds := cs.takeWhile Char.isDigit
  if ds.head? = some '0' then
    if cs.length = 1 then .value 0 else .malformed
  else if integerLimit < ds.length then .tooLong
  else if ds.isEmpty || ds.length < cs.length then .malformed
  else .value (if negative then -(natOfDigits ds : Int) else natOfDigits ds)

/-- A text that starts with a digit, without the zeros at its front and the underscores after them.
The last of these characters stays if nothing or only a fraction follows; else a digit has to follow
or a minus sign. -/
def dropZeros? (cs : List Char) : Option (List Char) :=
  let zeros := cs.takeWhile fun c => c = '0' || c = '_'
  let rest := cs.dropWhile fun c => c = '0' || c = '_'
  if cs.head? = some '_' then none
  else
    match zeros.getLast?, rest with
    | none, c :: _ => if c.isDigit then some rest else none
    | none, [] => none
    | some last, [] => some [last]
    | some last, c :: _ =>
      if c = '.' then some (last :: rest)
      else if c.isDigit || c = '-' then some rest
      else none

/-- A text without the fraction at its end, if that is a point and zeros. -/
def dropZeroFraction (cs : List Char) : List Char :=
  let fraction := (cs.dropWhile (· ≠ '.')).drop 1
  if !fraction.isEmpty && fraction.all (· = '0') then cs.takeWhile (· ≠ '.') else cs

/-- The plain notation of an integer that is written with blanks around it, a sign and zeros in
front of its digits, single underscores between them, or a fraction of zeros behind them. -/
def tidyInteger? (cs : List Char) : Option (List Char) :=
  let (negative, cs) := takeSign (trimBlanks cs)
  (dropZeros? cs).map fun cs =>
    let cs := dropZeroFraction cs
    let cs := (dropUnderscores? cs).getD cs
    if negative then '-' :: cs else cs

/-- The integer that a text writes.  The text is tidied only if it is not plain as it stands, and
then it is no integer at all if its digits are too many. -/
def integerOfText (s : String) : Verdict Int :=
  match PlainInteger.ofText s.toList with
  | .value n => .valid n
  | .tooLong => .fault .integerSize
  | .malformed =>
    match (tidyInteger? s.toList).map PlainInteger.ofText with
    | some (.value n) => .valid n
    | _ => .fault .integerSyntax

/-- An integer. -/
def readInteger : Document → Verdict Int
  | .integer n => .valid n
  | .bool b => .valid (if b then 1 else 0)
  | .decimal x =>
    match x.truncate? with
    | .error _ => .fault .notFinite
    | .ok n =>
      if x.toRat ≠ n then .fault .fractional
      else if -9223372036854775808 < n ∧ n < 9223372036854775808 then .valid n
      else .fault .integerSize
  | .text s => integerOfText s
  | .null | .list _ | .record _ => .fault .notInteger

/-- An integer from one on. -/
def readCount (d : Document) : Verdict Int :=
  (readInteger d).require (fun n => 1 ≤ n) (.notAtLeast 1)

/-! ### Texts, lists, fields -/

/-- A text. -/
def readText : Document → Verdict String
  | .text s => .valid s
  | _ => .fault .notText

/-- The items of a list one by one, from the given position on. -/
def readItems {α : Type} (read : Document → Verdict α) : (position : Nat) → List Document →
    Verdict (List α)
  | _, [] => .valid []
  | position, d :: rest =>
    (((read d).under (.index position)).both (readItems read (position + 1) rest)).map
      fun (a, as) => a :: as

/-- A list. -/
def readList {α : Type} (read : Document → Verdict α) : Document → Verdict (List α)
  | .list items => readItems read 0 items
  | _ => .fault .notList

/-- A field of a record.  One that is absent has its default, if there is one. -/
def readField {α : Type} (fields : List (String × Document)) (name : String) (default? : Option α)
    (read : Document → Verdict α) : Verdict α :=
  match Document.lookUp fields name with
  | some d => (read d).under (.field name)
  | none =>
    match default? with
    | some a => .valid a
    | none => (Verdict.fault .missing).under (.field name)

/-- A record of the named sort. -/
def readRecord {α : Type} (sort : String) (read : List (String × Document) → Verdict α) :
    Document → Verdict α
  | .record fields => read fields
  | _ => .fault (.notRecord sort)

end ChargingSite
