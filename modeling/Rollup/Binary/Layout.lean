import Rollup.Binary.Shortest

/-
Texts of binary numbers: the shortest digits, laid out positionally or with an exponent.
-/

namespace Rollup
namespace Binary

namespace Scientific

/-- Positional notation with at least one digit on each side of the point. -/
def positional (s : Scientific) : List Char :=
  let n := s.digits.length
  match s.exponent with
  | .negSucc k => ['0', '.'] ++ Text.zeros k ++ s.digits
  | .ofNat k =>
      if n ≤ k + 1 then s.digits ++ Text.zeros (k + 1 - n) ++ ['.', '0']
      else s.digits.take (k + 1) ++ '.' :: s.digits.drop (k + 1)

/-- One digit, then the others behind a point, then the exponent behind `mark`.  A lone
digit stands by itself or is followed by `lone`. -/
def exponential (mark : Char) (lone : List Char) (s : Scientific) : List Char :=
  (match s.digits with
    | [] => []
    | [d] => d :: lone
    | d :: ds => d :: '.' :: ds) ++
  mark :: Text.ofInt s.exponent

end Scientific

/-- What a style decides beyond the digits. -/
structure Style where
  /-- The least exponent that is written positionally. -/
  positionalFrom : Int
  /-- The least exponent above it that no longer is. -/
  positionalUpTo : Int
  mark : Char
  /-- What follows a lone digit before the exponent. -/
  lone : List Char
  infinity : List Char

/-- Magnitudes from a thousandth up to ten million are positional, and the others have a
point and an exponent. -/
def Style.result : Style :=
  { positionalFrom := -3, positionalUpTo := 7, mark := 'E', lone := ['.', '0'],
    infinity := "Infinity".toList }

/-- Magnitudes from `10 ^ (-4)` up to `10 ^ 16` are positional. -/
def Style.diagnostic : Style :=
  { positionalFrom := -4, positionalUpTo := 16, mark := 'e', lone := [],
    infinity := "inf".toList }

variable {f : Format}

def render (style : Style) (x : Binary f) : String :=
  let sign := if x.isNegative then ['-'] else []
  if x.isNaN then "NaN"
  else if x.isInfinite then String.ofList (sign ++ style.infinity)
  else if x.isZero then String.ofList (sign ++ ['0', '.', '0'])
  else
    let s := x.shortest
    String.ofList (sign ++
      if style.positionalFrom ≤ s.exponent && s.exponent < style.positionalUpTo then s.positional
      else s.exponential style.mark style.lone)

end Binary
end Rollup
