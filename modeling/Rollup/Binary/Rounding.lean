import Rollup.Binary.Basic
import Rollup.Text.Digits

/-
Rounding to the nearest number of a binary format, a tie going to the even significand,
and the operations that are an exact result followed by one rounding.
-/

namespace Rollup
namespace Binary

variable {f : Format}

/-- The whole number nearest to `num / den`, the even one of two equally near. -/
def nearestEven (num den : Nat) : Nat :=
  let q := num / den
  let r := num % den
  if 2 * r < den || (2 * r == den && q % 2 == 0) then q else q + 1

/-- The magnitude pattern nearest to `num / den` units.  The significand keeps one bit more
than the fraction has; when it rounds up to the next power of two the carry moves into the
exponent, and past the largest exponent the result is infinity. -/
def roundUnits (f : Format) (num den : Nat) : Nat :=
  let p := (num / den).log2 - f.fractionBits
  min (p * f.hidden + nearestEven num (den * Nat.pow 2 p)) f.infinity

/-- A NaN with its quiet bit set; sign and payload stay. -/
def quiet (x : Binary f) : Binary f :=
  if x.magnitude % f.hidden < f.hidden / 2 then
    signed x.isNegative (x.magnitude + f.hidden / 2)
  else x

/-- Addition.  A NaN operand is the result, the first one before the second; opposite
infinities have a negative NaN as their sum; a zero sum is negative only if both operands
are. -/
def add (x y : Binary f) : Binary f :=
  if x.isNaN then x.quiet
  else if y.isNaN then y.quiet
  else if x.isInfinite then
    if y.isInfinite && x.isNegative != y.isNegative then nan true else x
  else if y.isInfinite then y
  else
    let sum := x.signedUnits + y.signedUnits
    if sum == 0 then signed (x.isNegative && y.isNegative) 0
    else signed (sum < 0) (roundUnits f sum.natAbs 1)

/-- The same number in the double format, which has every number of the single format. -/
def toDouble (x : Single) : Double :=
  let gap := Format.double.fractionBits - Format.single.fractionBits
  if x.isNaN then
    quiet (signed x.isNegative
      (Format.double.infinity + x.magnitude % Format.single.hidden * Nat.pow 2 gap))
  else if x.isInfinite then infinite x.isNegative
  else
    signed x.isNegative
      (roundUnits .double
        (x.units * Nat.pow 2 (Format.double.unitExponent - Format.single.unitExponent)) 1)

/-- The number nearest to `coefficient * 10 ^ exponent`.  A number whose leading digit lies
more than 400 places from the point on either side is beyond every format in use here, so
no power larger than the digits of the coefficient and 400 call for is ever formed. -/
def ofDecimal (f : Format) (coefficient : Nat) (exponent : Int) : Binary f :=
  let leading := (Text.digits coefficient).length + exponent
  if coefficient == 0 || leading < -400 then zero
  else if 400 < leading then infinite false
  else
    let scaled := coefficient * Nat.pow 2 f.unitExponent
    signed false
      (if exponent < 0 then roundUnits f scaled (Text.tenPow exponent.natAbs)
       else roundUnits f (scaled * Text.tenPow exponent.natAbs) 1)

def negate (x : Binary f) : Binary f := signed (!x.isNegative) x.magnitude

end Binary
end Rollup
