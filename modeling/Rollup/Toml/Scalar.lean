import Rollup.Binary.Rounding
import Rollup.Calendar.Date
import Rollup.Text.Digits
import Rollup.Toml.Item
import Rollup.Toml.Text

/-
TOML values that are one unbroken word: numbers, truth values, dates and times.
-/

namespace Rollup
namespace Toml

/-! ## Digits -/

/-- Digits with single underscores between them, which are dropped. -/
def spacedDigits? (isDigit : Char → Bool) : List Char → Option (List Char)
  | [] => none
  | [c] => if isDigit c then some [c] else none
  | c :: '_' :: rest =>
      if isDigit c then (spacedDigits? isDigit rest).map (c :: ·) else none
  | c :: rest => if isDigit c then (spacedDigits? isDigit rest).map (c :: ·) else none

/-- A whole number without a zero before other digits. -/
def whole? (cs : List Char) : Option (List Char) :=
  match spacedDigits? Char.isDigit cs with
  | some ('0' :: _ :: _) => none
  | digits => digits

/-! ## Integers -/

def inWord? (i : Int) : Option Item :=
  if -9223372036854775808 ≤ i && i ≤ 9223372036854775807 then some (.integer i) else none

def decimal? (cs : List Char) : Option Item :=
  let split := Text.takeSign cs
  (whole? split.2).bind fun digits =>
    let n : Int := Text.ofDigits digits
    inWord? (if split.1 then -n else n)

def inBase (base : Nat) (digits : List Char) : Nat :=
  digits.foldl (fun n c => base * n + (hexValue? c).getD 0) 0

def isDigitBelow (base : Nat) (c : Char) : Bool := (hexValue? c).any (· < base)

def based? (base : Nat) (cs : List Char) : Option Item :=
  (spacedDigits? (isDigitBelow base) cs).bind fun digits => inWord? (inBase base digits)

def integer? : List Char → Option Item
  | '0' :: 'x' :: rest => based? 16 rest
  | '0' :: 'o' :: rest => based? 8 rest
  | '0' :: 'b' :: rest => based? 2 rest
  | cs => decimal? cs

/-! ## Floats -/

def exponent? (cs : List Char) : Option Int :=
  let split := Text.takeSign cs
  (spacedDigits? Char.isDigit split.2).map fun digits =>
    if split.1 then -(Text.ofDigits digits : Int) else Text.ofDigits digits

/-- Fraction and exponent behind the whole part, of which at least one must be there. -/
def fractional? (whole : List Char) (point exponent : Option (List Char)) : Option Double :=
  let fraction :=
    match point with
    | none => some []
    | some cs => spacedDigits? Char.isDigit cs
  let power :=
    match exponent with
    | none => some 0
    | some cs => exponent? cs
  match fraction, power with
  | some fraction, some power =>
      some (Binary.ofDecimal .double (Text.ofDigits (whole ++ fraction))
        (power - (fraction.length : Int)))
  | _, _ => none

/-- A number too large for the format is refused if it is positive. -/
def float? (cs : List Char) : Option Item :=
  let split := Text.takeSign cs
  if split.2 == "inf".toList then some (.float (.infinite split.1))
  else if split.2 == "nan".toList then some (.float (.nan split.1))
  else
    let parts := Text.cutAt (fun c => c == 'e' || c == 'E') split.2
    let mantissa := Text.cutAt (· == '.') parts.1
    if mantissa.2.isNone && parts.2.isNone then none
    else
      (whole? mantissa.1).bind fun whole =>
        (fractional? whole mantissa.2 parts.2).bind fun x =>
          if split.1 then some (.float x.negate)
          else if x.isInfinite then none
          else some (.float x)

/-! ## Dates and times -/

def two? (limit : Nat) (a b : Char) : Option Nat :=
  if a.isDigit && b.isDigit && Text.ofDigits [a, b] ≤ limit then some (Text.ofDigits [a, b])
  else none

def isDate : List Char → Bool
  | [a, b, c, d, '-', e, f, '-', g, h] =>
      match two? 12 e f, two? 31 g h with
      | some month, some day =>
          Text.allDigits [a, b, c, d] &&
            Civil.isValid ⟨Text.ofDigits [a, b, c, d], month, day⟩
      | _, _ => false
  | _ => false

/-- An offset from universal time, or nothing. -/
def isOffset : List Char → Bool
  | [] => true
  | ['Z'] => true
  | ['z'] => true
  | [sign, a, b, ':', c, d] =>
      (sign == '+' || sign == '-') && (two? 23 a b).isSome && (two? 59 c d).isSome
  | _ => false

/-- A time of day; a sixtieth second is allowed for. -/
def isTime (offset : Bool) : List Char → Bool
  | a :: b :: ':' :: c :: d :: ':' :: e :: f :: rest =>
      let ending :=
        match rest with
        | '.' :: g :: more => if g.isDigit then some (more.dropWhile Char.isDigit) else none
        | other => some other
      (two? 23 a b).isSome && (two? 59 c d).isSome && (two? 60 e f).isSome &&
        ending.any fun cs => if offset then isOffset cs else cs.isEmpty
  | _ => false

def isMoment (cs : List Char) : Bool :=
  isDate cs || isTime false cs ||
    match cs.drop 10 with
    | mark :: time => (mark == 'T' || mark == 't') && isDate (cs.take 10) && isTime true time
    | [] => false

/-! ## Words -/

def isWordChar (c : Char) : Bool :=
  c.isAlphanum || c == '_' || c == '+' || c == '-' || c == '.' || c == ':'

def word? (cs : List Char) : Option Item :=
  if cs == "true".toList then some (.boolean true)
  else if cs == "false".toList then some (.boolean false)
  else if isMoment cs then some .moment
  else
    match float? cs with
    | some item => some item
    | none => integer? cs

/-- The value of the word that the text begins with.  A date and a time may also stand one
space apart. -/
def scalar? (cs : List Char) : Option (Item × List Char) :=
  let word := cs.takeWhile isWordChar
  let rest := cs.dropWhile isWordChar
  let time := (rest.drop 1).takeWhile isWordChar
  if rest.head? == some ' ' && isDate word && isTime true time then
    some (.moment, rest.drop (1 + time.length))
  else (word? word).map fun item => (item, rest)

end Toml
end Rollup
