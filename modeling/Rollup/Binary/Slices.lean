import Rollup.Binary.Reading

/-
The reading of doubles over the bytes of a text.

A text is kept in UTF-8, and its parts are taken at byte offsets.  There is no part that would
begin or end inside a character, or past the last byte; who asks for one gets no answer at all,
which is the outer `none` of `Binary.ofSlices?`.
-/

namespace Rollup
namespace Text

def bytes (cs : List Char) : List UInt8 := cs.flatMap String.utf8EncodeChar

/-- What comes before an offset. -/
def sliceTo? : Nat → List Char → Option (List Char)
  | 0, _ => some []
  | _ + 1, [] => none
  | n + 1, c :: cs =>
      if c.utf8Size ≤ n + 1 then (sliceTo? (n + 1 - c.utf8Size) cs).map (c :: ·) else none

/-- What comes from an offset on. -/
def sliceFrom? : Nat → List Char → Option (List Char)
  | 0, cs => some cs
  | _ + 1, [] => none
  | n + 1, c :: cs =>
      if c.utf8Size ≤ n + 1 then sliceFrom? (n + 1 - c.utf8Size) cs else none

/-- The offset of the first character of `mark`. -/
def offsetOf? (mark : Char → Bool) : List Char → Option Nat
  | [] => none
  | c :: cs => if mark c then some 0 else (offsetOf? mark cs).map (c.utf8Size + ·)

def allDigitBytes (cs : List Char) : Bool := (bytes cs).all fun b => 0x30 ≤ b && b ≤ 0x39

def isExponentMark (c : Char) : Bool := c == 'e' || c == 'E'

end Text

namespace Binary

/-- An optional sign, told from the first byte, and what follows it. -/
def takeSignByte? (cs : List Char) : Option (Bool × List Char) :=
  match Text.bytes cs with
  | [] => none
  | b :: _ =>
      if b == 0x2D then (Text.sliceFrom? 1 cs).map (true, ·)
      else if b == 0x2B then (Text.sliceFrom? 1 cs).map (false, ·)
      else some (false, cs)

/-- A text cut at its exponent mark, which has one byte. -/
def cutExponent? (cs : List Char) : Option (List Char × Option (List Char)) :=
  match Text.offsetOf? Text.isExponentMark cs with
  | none => some (cs, none)
  | some offset =>
      (Text.sliceTo? offset cs).bind fun mantissa =>
        (Text.sliceFrom? (offset + 1) cs).map fun exponent => (mantissa, some exponent)

def isMantissa (cs : List Char) : Bool :=
  let cut := Text.cutAt (· == '.') cs
  let fraction := cut.2.getD []
  !((cut.1.isEmpty && fraction.isEmpty) || !Text.allDigitBytes cut.1 ||
    !Text.allDigitBytes fraction)

def isExponent : Option (List Char) → Bool
  | none => true
  | some cs => !((Text.takeSign cs).2.isEmpty || !Text.allDigitBytes (Text.takeSign cs).2)

/-- An exponent that is left out is zero. -/
def exponentOf? : Option (List Char) → Option Int
  | none => some 0
  | some cs => readExponent? cs

/-- The number of a text without sign and type letter. -/
def ofBody? (cs : List Char) : Option Double :=
  let cut := Text.cutAt Text.isExponentMark cs
  (Text.Numeral.ofChars? cut.1).bind fun numeral =>
    (exponentOf? cut.2).map fun exponent =>
    ofDecimal .double numeral.coefficient (exponent - numeral.fraction.length)

def ofBodySlices? (cs : List Char) : Option (Option Double) :=
  (cutExponent? cs).map fun cut =>
    if isMantissa cut.1 && isExponent cut.2 then ofBody? cs else none

/-- The text is checked part by part, and then read as a whole. -/
def ofSlices? (s : String) : Option (Option Double) :=
  let trimmed := Text.stripEnds (fun c => c.toNat ≤ 0x20) s.toList
  if trimmed.isEmpty then some none
  else
    (takeSignByte? trimmed).bind fun split =>
      if split.2 == "NaN".toList then some (some (nan false))
      else if split.2 == "Infinity".toList then some (some (infinite split.1))
      else
        (ofBodySlices? (dropTypeLetter split.2)).map fun read =>
          read.map fun x => if split.1 then x.negate else x

end Binary
end Rollup
