import GameLang.Decimal.Binary64

/-!
# Shortest decimals

The decimal with the fewest digits that still reads back as a given number. Decimal grids are tried
from coarse to fine; on each grid only the two neighbours of the number matter, the first grid with
a neighbour that reads back wins, and of two such neighbours the nearer one.
-/

namespace GameLang.Decimal

/-- Which of two equally near decimals is taken: the larger, or the one with the even last digit. -/
inductive Tie where
  | up
  | even
  deriving DecidableEq

/-- The positive decimal `digits * 10 ^ exponent`. -/
structure Scientific where
  digits : Nat
  exponent : Int
  deriving DecidableEq

/-- The reals that read back as a number, in quarters of its last place: `low` and `high` enclose
`middle`, which is the number itself, and belong to it when `closed` is set. -/
structure Interval where
  low : Nat
  middle : Nat
  high : Nat
  closed : Bool

/-- The interval of a positive finite number. Below a power of two the neighbour is only half as far
away. -/
def Binary64.interval (x : Binary64) : Interval :=
  let m := x.significand
  { low := if x.fraction = 0 && 1 < x.field then 4 * m - 1 else 4 * m - 2
    middle := 4 * m
    high := 4 * m + 2
    closed := m % 2 = 0 }

/-- Whether `value` lies in an interval whose ends are scaled by `factor`. -/
def Interval.contains (i : Interval) (factor value : Nat) : Bool :=
  (i.low * factor < value && value < i.high * factor) ||
    (i.closed && (value = i.low * factor || value = i.high * factor))

/-- The neighbour on the grid of multiples of `10 ^ exponent` that reads back, if there is one. The
number is `i.middle * 2 ^ scale` quarter units. -/
def neighbour? (tie : Tie) (i : Interval) (scale : Nat) (exponent : Int) : Option Scientific :=
  let factor := Nat.pow 2 scale * Nat.pow 10 (-exponent).toNat
  let step := Nat.pow 2 (Binary64.unitExponent + 2) * Nat.pow 10 exponent.toNat
  let value := i.middle * factor
  let below := value / step
  let lower := i.contains factor (below * step)
  let upper := i.contains factor ((below + 1) * step)
  let takesUpper :=
    if lower && upper then
      let twice := 2 * (value % step)
      if twice < step then false
      else if step < twice then true
      else match tie with
        | .up => true
        | .even => below % 2 = 1
    else upper
  if takesUpper then some ⟨below + 1, exponent⟩
  else if lower then some ⟨below, exponent⟩
  else none

/-- The hit on the coarsest of `count` grids, from `exponent` downwards. A decimal that ends in a
zero lies on a coarser grid too, so from high enough up the hit has no such digit. -/
def firstHit (tie : Tie) (i : Interval) (scale : Nat) : Nat → Int → Option Scientific
  | 0, _ => none
  | count + 1, exponent =>
    match neighbour? tie i scale exponent with
    | some hit => some hit
    | none => firstHit tie i scale count (exponent - 1)

/-- A power of ten above the number is at most this exponent: `30103 / 100000` exceeds the decimal
logarithm of two. -/
def topExponent (i : Interval) (scale : Nat) : Int :=
  ((i.middle.log2 + scale : Int) - Binary64.unitExponent - 1) * 30103 / 100000 + 2

/-- Seventeen digits tell every number apart, so that many grids below the leading digit are enough;
the others leave room for the estimate of the leading digit. -/
def gridCount : Nat := 24

def Binary64.shortest (tie : Tie) (x : Binary64) : Scientific :=
  (firstHit tie x.interval x.scale gridCount (topExponent x.interval x.scale)).getD ⟨0, 0⟩

end GameLang.Decimal
