import ChargingSite.Text.Hidden

/-!
# Quoted texts

Messages name vehicles and catalog entries in quotes.  The quote is a single one, unless the text
holds single quotes and no double ones.  A backslash, the chosen quote and the characters that would
not show are written as escapes, so that the quoted form stays on one line and ends where it seems
to.
-/

namespace ChargingSite

/-- A number in hexadecimal, filled up with zeros to `width` digits. -/
def hexText (width n : Nat) : List Char :=
  let ds := Nat.toDigits 16 n
  List.replicate (width - ds.length) '0' ++ ds

/-- One character inside quotes of the given kind. -/
def escapeChar (quote c : Char) : List Char :=
  if c = '\\' ∨ c = quote then ['\\', c]
  else if c = '\n' then ['\\', 'n']
  else if c = '\r' then ['\\', 'r']
  else if c = '\t' then ['\\', 't']
  else if isHidden c then
    if c.toNat < 0x100 then '\\' :: 'x' :: hexText 2 c.toNat
    else if c.toNat < 0x10000 then '\\' :: 'u' :: hexText 4 c.toNat
    else '\\' :: 'U' :: hexText 8 c.toNat
  else [c]

/-- The quote to write around a text: a double one only if that saves an escape. -/
def quoteFor (cs : List Char) : Char :=
  if cs.contains '\'' && !cs.contains '"' then '"' else '\''

/-- A text in quotes. -/
def quoted (s : String) : String :=
  let cs := s.toList
  let q := quoteFor cs
  String.ofList (q :: cs.flatMap (escapeChar q) ++ [q])

/-- Texts in quotes, as a bracketed list. -/
def quotedList (names : List String) : String :=
  "[" ++ ", ".intercalate (names.map quoted) ++ "]"

end ChargingSite
