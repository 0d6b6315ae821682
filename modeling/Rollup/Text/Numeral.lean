import Rollup.Text.Digits

/-
Unsigned decimal numerals: ASCII digits with at most one point before, among or behind
them, and at least one digit in all.
-/

namespace Rollup
namespace Text

structure Numeral where
  whole : List Char
  fraction : List Char

namespace Numeral

def ofChars? (cs : List Char) : Option Numeral :=
  let cut := cutAt (· == '.') cs
  let whole := cut.1
  let fraction := cut.2.getD []
  if (whole.isEmpty && fraction.isEmpty) || !allDigits whole || !allDigits fraction then none
  else some ⟨whole, fraction⟩

/-- The number that the digits denote when the point is left out. -/
def coefficient (n : Numeral) : Nat := ofDigits (n.whole ++ n.fraction)

/-- The numeral in units of `10 ^ (-scale)`, a half going up. -/
def scaledHalfUp (n : Numeral) (scale : Nat) : Nat :=
  let kept := n.fraction.take scale
  let unit := ofDigits (n.whole ++ kept ++ zeros (scale - kept.length))
  match n.fraction.drop scale with
  | c :: _ => if '5' ≤ c then unit + 1 else unit
  | [] => unit

end Numeral
end Text
end Rollup
