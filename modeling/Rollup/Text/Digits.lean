/-
Decimal digits of natural numbers, and texts of a fixed number of them.
-/

namespace Rollup
namespace Text

/-- Ten to the power `k`. -/
def tenPow (k : Nat) : Nat := Nat.pow 10 k

theorem tenPow_pos (k : Nat) : 0 < tenPow k := Nat.pow_pos (by decide)

/-- The digits of `n`, most significant first, with no leading zero but for zero itself. -/
def digits (n : Nat) : List Char := Nat.toDigits 10 n

/-- The number that a run of digits denotes; the empty run denotes zero. -/
def ofDigits (cs : List Char) : Nat := Nat.ofDigitChars 10 cs 0

theorem ofDigits_digits (n : Nat) : ofDigits (digits n) = n :=
  Nat.ofDigitChars_toDigits (by decide) (by decide)

def zeros (n : Nat) : List Char := List.replicate n '0'

/-- The digits of `n` with zeros before them up to `width` characters. -/
def padded (width n : Nat) : List Char := zeros (width - (digits n).length) ++ digits n

def allDigits (cs : List Char) : Bool := cs.all Char.isDigit

/-- The digits of an integer, with a minus sign before those of a negative one. -/
def ofInt (i : Int) : List Char :=
  if i < 0 then '-' :: digits i.natAbs else digits i.natAbs

def hexDigits (n : Nat) : List Char := Nat.toDigits 16 n

/-- The hexadecimal digits of `n` with zeros before them up to `width` characters. -/
def hexPadded (width n : Nat) : List Char :=
  zeros (width - (hexDigits n).length) ++ hexDigits n

/-- A text cut at the first character of `mark`, which belongs to neither part. -/
def cutAt (mark : Char → Bool) : List Char → List Char × Option (List Char)
  | [] => ([], none)
  | c :: rest =>
      if mark c then ([], some rest)
      else
        let cut := cutAt mark rest
        (c :: cut.1, cut.2)

/-- An optional sign and what follows it; `true` for a minus. -/
def takeSign : List Char → Bool × List Char
  | '-' :: rest => (true, rest)
  | '+' :: rest => (false, rest)
  | cs => (false, cs)

end Text
end Rollup
