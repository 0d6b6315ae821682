import Rollup.Binary.Rounding
import Rollup.Text.Blank
import Rollup.Text.Numeral

/-
Texts read as numbers of the double format.

The space and all control characters below it are dropped at both ends.  What remains is
`NaN`, `Infinity` or a numeral with an optional exponent and an optional type letter, each
behind an optional sign.  The sign of `NaN` is not kept.
-/

namespace Rollup
namespace Binary

def isTypeLetter (c : Char) : Bool := c == 'd' || c == 'D' || c == 'f' || c == 'F'

def dropTypeLetter (cs : List Char) : List Char :=
  match cs.getLast? with
  | some c => if isTypeLetter c then cs.dropLast else cs
  | none => cs

/-- A signed run of digits, which may not be empty. -/
def readExponent? (cs : List Char) : Option Int :=
  let split := Text.takeSign cs
  if split.2.isEmpty || !Text.allDigits split.2 then none
  else
    let n : Int := Text.ofDigits split.2
    some (if split.1 then -n else n)

def ofUnsignedText? (cs : List Char) : Option Double :=
  let cut := Text.cutAt (fun c => c == 'e' || c == 'E') (dropTypeLetter cs)
  (Text.Numeral.ofChars? cut.1).bind fun numeral =>
    (match cut.2 with
      | none => some 0
      | some cs => readExponent? cs).map fun exponent =>
    ofDecimal .double numeral.coefficient (exponent - numeral.fraction.length)

def ofText? (s : String) : Option Double :=
  let split := Text.takeSign (Text.stripEnds (fun c => c.toNat ≤ 0x20) s.toList)
  if split.2 == "NaN".toList then some (nan false)
  else if split.2 == "Infinity".toList then some (infinite split.1)
  else (ofUnsignedText? split.2).map fun x => if split.1 then x.negate else x

end Binary
end Rollup
