import Rollup.Binary.Basic
import Rollup.Text.Digits

/-
The shortest decimal that reads back as a given binary number.

The decimals that round to a number fill an interval around it, ends included when its
significand is even.  Among the multiples of a power of ten only the two neighbours of the
number matter: if any multiple lies in the interval, one of them does.  The coarsest power
of ten with such a multiple gives the fewest digits; of two neighbours inside, the nearer
is taken, and the upper one on a tie.
-/

namespace Rollup
namespace Binary

/-- An interval with a point inside, all three counted in one unit. -/
structure Interval where
  low : Nat
  value : Nat
  high : Nat
  closed : Bool

namespace Interval

def reachesDown (i : Interval) (n : Nat) : Bool := i.low < n || (i.closed && n == i.low)
def reachesUp (i : Interval) (n : Nat) : Bool := n < i.high || (i.closed && n == i.high)

/-- The neighbour of the point among the multiples of `grid`, as a multiple, if one lies in
the interval. -/
def neighbour? (i : Interval) (grid : Nat) : Option Nat :=
  let below := i.value / grid
  let rest := i.value % grid
  match i.reachesDown (below * grid), i.reachesUp ((below + 1) * grid) with
  | true, true => some (if 2 * rest < grid then below else below + 1)
  | true, false => some below
  | false, true => some (below + 1)
  | false, false => none

/-- The multiple found on the coarsest grid of at most `10 ^ k`, and the power it counts. -/
def coarsest (i : Interval) : Nat → Nat × Nat
  | 0 => (i.value, 0)
  | k + 1 =>
      match i.neighbour? (Text.tenPow (k + 1)) with
      | some n => (n, k + 1)
      | none => coarsest i k

end Interval

variable {f : Format}

/-- The interval of a finite number, in quarter units.  Below a power of two the numbers
lie twice as close, so that side is half as long. -/
def interval (x : Binary f) : Interval :=
  let gap := Nat.pow 2 x.shift
  let low := if x.significand == f.hidden && 0 < x.shift then gap else 2 * gap
  { low := 4 * x.units - low, value := 4 * x.units, high := 4 * x.units + 2 * gap,
    closed := x.significand % 2 == 0 }

/-- A quarter unit is two to the power minus `n`, which is `5 ^ n` in steps of
`10 ^ (-n)`. -/
def decimalInterval (x : Binary f) : Interval :=
  let five := Nat.pow 5 (f.unitExponent + 2)
  let i := x.interval
  { low := i.low * five, value := i.value * five, high := i.high * five, closed := i.closed }

/-- Digits and the power of ten of the first of them: `d₀.d₁d₂… * 10 ^ exponent`. -/
structure Scientific where
  digits : List Char
  exponent : Int

def shortest (x : Binary f) : Scientific :=
  let i := x.decimalInterval
  let found := i.coarsest (Text.digits i.high).length
  let ds := Text.digits found.1
  { digits := ds,
    exponent := (ds.length : Int) - 1 + found.2 - (f.unitExponent + 2 : Nat) }

end Binary
end Rollup
