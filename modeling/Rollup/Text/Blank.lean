/-
Blank characters and the removal of them from both ends of a text.

The class is the Unicode property White_Space, which has 25 members: five control
characters, the next-line character and the space separators with the two line
separators.
-/

namespace Rollup
namespace Text

def isBlank (c : Char) : Bool :=
  let n := c.toNat
  (9 ≤ n && n ≤ 13) || n == 32 || n == 0x85 || n == 0xA0 || n == 0x1680 ||
    (0x2000 ≤ n && n ≤ 0x200A) || n == 0x2028 || n == 0x2029 || n == 0x202F ||
    n == 0x205F || n == 0x3000

/-- A text without the characters of `drop` at its two ends. -/
def stripEnds (drop : Char → Bool) (cs : List Char) : List Char :=
  ((cs.dropWhile drop).reverse.dropWhile drop).reverse

def trim (s : String) : String := String.ofList (stripEnds isBlank s.toList)

/-- Capitals of the ASCII alphabet become small letters; every other character stays. -/
def lowercase (s : String) : String := String.ofList (s.toList.map Char.toLower)

end Text
end Rollup
