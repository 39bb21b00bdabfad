/-!
# Character classes

A class of characters is a table of closed ranges of code points, ascending and apart (`Ascending`),
and `inRanges` looks a character up in it.  The class kept here are the blanks that may stand around
a number given as text.
-/

namespace ChargingSite

/-- Whether a code point lies in one of the closed ranges. -/
def inRanges (ranges : List (Nat × Nat)) (c : Char) : Bool :=
  ranges.any fun (first, last) => first ≤ c.toNat && c.toNat ≤ last

/-- Whether the ranges of a table are in ascending order, with a gap between any two of them. -/
def Ascending : List (Nat × Nat) → Prop
  | [] => True
  | [r] => r.1 ≤ r.2
  | r :: s :: rest => r.1 ≤ r.2 ∧ r.2 + 1 < s.1 ∧ Ascending (s :: rest)

instance decideAscending : (ranges : List (Nat × Nat)) → Decidable (Ascending ranges)
  | [] => isTrue trivial
  | [r] => inferInstanceAs (Decidable (r.1 ≤ r.2))
  | r :: s :: rest =>
    have := decideAscending (s :: rest)
    inferInstanceAs (Decidable (r.1 ≤ r.2 ∧ r.2 + 1 < s.1 ∧ Ascending (s :: rest)))

/-! ### Blanks -/

/-- The code points with the Unicode property White_Space. -/
def blankRanges : List (Nat × Nat) :=
  [(0x09, 0x0d), (0x20, 0x20), (0x85, 0x85), (0xa0, 0xa0), (0x1680, 0x1680), (0x2000, 0x200a),
    (0x2028, 0x2029), (0x202f, 0x202f), (0x205f, 0x205f), (0x3000, 0x3000)]

example : Ascending blankRanges := by decide

/-- A blank character. -/
def isBlank (c : Char) : Bool :=
  inRanges blankRanges c

/-- A text without the blanks around it. -/
def trimBlanks (cs : List Char) : List Char :=
  ((cs.dropWhile isBlank).reverse.dropWhile isBlank).reverse

end ChargingSite
