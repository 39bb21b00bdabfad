import ChargingSite.Number.Binary64.Arithmetic

/-!
# Adding up many doubles

`pairwiseSum` adds in a fixed tree shape that keeps rounding errors small.  Fewer than eight numbers
are added from left to right.  Up to 128 numbers run through eight accumulators side by side, which
are then added in pairs, and the numbers left over follow.  A longer list is split in two, the first
part holding half of the numbers, rounded down to a multiple of eight.
-/

namespace ChargingSite

/-- The sum from left to right, starting at `start`. -/
def runningSum (start : Binary64) (xs : List Binary64) : Binary64 :=
  xs.foldl (· + ·) start

/-- Adds blocks of eight numbers to eight accumulators; answers these and what is left over. -/
def accumulateBlocks (acc xs : List Binary64) : List Binary64 × List Binary64 :=
  if 8 ≤ xs.length then accumulateBlocks (List.zipWith (· + ·) acc (xs.take 8)) (xs.drop 8)
  else (acc, xs)
termination_by xs.length

/-- The sum of eight accumulators, in pairs, and the numbers left over. -/
def closeBlocks : List Binary64 × List Binary64 → Binary64
  | ([a, b, c, d, e, f, g, h], rest) =>
    runningSum (((a + b) + (c + d)) + ((e + f) + (g + h))) rest
  | (acc, rest) => runningSum (runningSum 0 acc) rest

/-- The sum in a tree shape. -/
def pairwiseSum (xs : List Binary64) : Binary64 :=
  if xs.length < 8 then runningSum 0 xs
  else if xs.length ≤ 128 then closeBlocks (accumulateBlocks (xs.take 8) (xs.drop 8))
  else
    let half := xs.length / 2 - xs.length / 2 % 8
    pairwiseSum (xs.take half) + pairwiseSum (xs.drop half)
termination_by xs.length
decreasing_by
  all_goals simp only [List.length_take, List.length_drop]; omega

end ChargingSite
