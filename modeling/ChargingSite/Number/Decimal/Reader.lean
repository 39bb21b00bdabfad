import ChargingSite.Number.Binary64

/-!
# Reading decimals

A decimal literal is an optional sign, digits with at most one point among or around them, and an
optional exponent.  `Literal.read?` takes it apart and `Literal.toBinary64` is the double nearest to
its exact value.  `readNumber?` also reads the words for an infinity and for not a number.
-/

namespace ChargingSite

/-- A decimal literal, taken apart. -/
structure Literal where
  negative : Bool
  /-- All digits, without the point. -/
  digits : List Char
  /-- The exponent of ten of the last digit. -/
  exponent : Int
  deriving DecidableEq

/-- The natural number that decimal digits write. -/
def natOfDigits (cs : List Char) : Nat :=
  cs.foldl (fun n c => 10 * n + (c.toNat - '0'.toNat)) 0

/-- An optional sign, and whether it is a minus. -/
def takeSign : List Char → Bool × List Char
  | '-' :: cs => (true, cs)
  | '+' :: cs => (false, cs)
  | cs => (false, cs)

/-- The exponent part of a literal: nothing, or `e`, an optional sign and digits to the end. -/
def readExponent? : List Char → Option Int
  | [] => some 0
  | c :: cs =>
    if c = 'e' ∨ c = 'E' then
      let (negative, ds) := takeSign cs
      if ds.isEmpty || !ds.all Char.isDigit then none
      else some (if negative then -(natOfDigits ds : Int) else natOfDigits ds)
    else none

/-- Takes a decimal literal apart; `none` if the text is not one. -/
def Literal.read? (cs : List Char) : Option Literal :=
  let (negative, cs) := takeSign cs
  let whole := cs.takeWhile Char.isDigit
  let rest := cs.dropWhile Char.isDigit
  let (fraction, rest) := match rest with
    | '.' :: after => (after.takeWhile Char.isDigit, after.dropWhile Char.isDigit)
    | _ => ([], rest)
  if whole.isEmpty && fraction.isEmpty then none
  else (readExponent? rest).map fun e => ⟨negative, whole ++ fraction, e - fraction.length⟩

/-- The double nearest to a literal.  The position of the first digit settles the ones that are far
beyond the doubles on either side, so that no huge power of ten is ever formed. -/
def Literal.toBinary64 (l : Literal) : Binary64 :=
  let ds := l.digits.dropWhile (· == '0')
  let top := l.exponent + ds.length
  if ds.isEmpty ∨ top < -400 then .zero l.negative
  else if 400 < top then .infinity l.negative
  else
    let n : Int := natOfDigits ds
    .round (scaled 10 (if l.negative then -n else n) l.exponent)

/-- Reads a decimal literal, `inf`, `infinity` or `nan`; the words in any case and with an optional
sign. -/
def readNumber? (cs : List Char) : Option Binary64 :=
  match Literal.read? cs with
  | some l => some l.toBinary64
  | none =>
    let (negative, word) := takeSign cs
    let word := String.ofList (word.map Char.toLower)
    if word = "inf" ∨ word = "infinity" then some (.infinity negative)
    else if word = "nan" then some .nan
    else none

end ChargingSite
