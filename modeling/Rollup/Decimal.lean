import Rollup.Signed
import Rollup.Text.Blank
import Rollup.Text.Numeral

/-
Decimals: an unscaled 128-bit integer and a scale, denoting `unscaled / 10 ^ scale`.

A negative scale counts multiples of a power of ten.  Aligning two decimals only ever
appends zeros to an unscaled value, so no digit is lost, and it is refused when the word
cannot hold the result.
-/

namespace Rollup

structure Decimal where
  unscaled : Signed 128
  precision : Nat
  scale : Int

namespace Decimal

def maxPrecision : Nat := 38

/-! ## Change of scale -/

inductive ScaleFault where
  | narrowing (source target : Int)
  | overflow

def ScaleFault.message : ScaleFault → String
  | .narrowing source target =>
      s!"decimal scale {source} cannot be narrowed to {target} without rounding"
  | .overflow => "decimal overflow"

def appendZeros : Nat → Signed 128 → Option (Signed 128)
  | 0, v => some v
  | n + 1, v => v.timesTen?.bind (appendZeros n)

/-- The unscaled value at scale `target` of a number that has `v` at scale `source`. -/
def rescale (v : Signed 128) (source target : Int) : Except ScaleFault (Signed 128) :=
  if target < source then .error (.narrowing source target)
  else
    match appendZeros (target - source).toNat v with
    | some w => .ok w
    | none => .error .overflow

/-! ## Order and equality -/

/-- Compares at the larger of the two scales.  A side that does not fit there is larger in
magnitude than anything that does, so its sign decides. -/
def compare (a b : Decimal) : Ordering :=
  let target := max a.scale b.scale
  match rescale a.unscaled a.scale target, rescale b.unscaled b.scale target with
  | .ok x, .ok y => Ord.compare x.toInt y.toInt
  | .error _, _ => if a.unscaled.toInt < 0 then .lt else .gt
  | .ok _, .error _ => if b.unscaled.toInt < 0 then .gt else .lt

/-- Appends up to `n` zeros while they fit; the second part counts those left over. -/
def appendFitting : Nat → Signed 128 → Signed 128 × Nat
  | 0, v => (v, 0)
  | n + 1, v =>
      match v.timesTen? with
      | some w => appendFitting n w
      | none => (v, n + 1)

/-- Drops up to `n` zeros from the end; the second part counts those not dropped. -/
def dropZeros : Nat → Int → Int × Nat
  | 0, v => (v, 0)
  | n + 1, v => if v % 10 == 0 then dropZeros n (v / 10) else (v, n + 1)

/-- Unscaled value and scale of the same number at the scale nearest zero that it has
without rounding.  The precision plays no part. -/
def canonical (d : Decimal) : Int × Int :=
  match d.scale with
  | .negSucc n =>
      let raised := appendFitting (n + 1) d.unscaled
      (raised.1.toInt, -(raised.2 : Int))
  | .ofNat n =>
      let lowered := dropZeros n d.unscaled.toInt
      (lowered.1, lowered.2)

/-! ## Text -/

/-- A positive scale places the point so many digits from the right, after zeros that leave
at least one digit before it.  At any other scale the unscaled digits stand alone. -/
def magnitudeText (n : Nat) (scale : Int) : List Char :=
  match scale with
  | .ofNat (s + 1) =>
      let ds := Text.padded (s + 2) n
      ds.take (ds.length - (s + 1)) ++ '.' :: ds.drop (ds.length - (s + 1))
  | _ => Text.digits n

def text (v : Int) (scale : Int) : List Char :=
  if v < 0 then '-' :: magnitudeText v.natAbs scale else magnitudeText v.natAbs scale

def render (d : Decimal) : String := String.ofList (text d.unscaled.toInt d.scale)

inductive ReadFault where
  | type (precision : Nat) (scale : Int)
  | literal (text : String)
  | exceeds (text : String) (precision : Nat) (scale : Int)

def ReadFault.message : ReadFault → String
  | .type p s => s!"invalid decimal type DECIMAL({p}, {s})"
  | .literal text => s!"invalid decimal literal: {text}"
  | .exceeds text p s => s!"decimal literal {text} exceeds DECIMAL({p}, {s})"

/-- Reads a literal, blanks around it allowed, as a decimal of the given precision and
scale.  Digits beyond the scale round half away from zero; integral digits beyond the
precision are refused before any arithmetic. -/
def read (literal : String) (precision : Nat) (scale : Int) : Except ReadFault Decimal :=
  if scale < 0 || (precision : Int) < scale || maxPrecision < precision then
    .error (.type precision scale)
  else
    let split := Text.takeSign (Text.stripEnds Text.isBlank literal.toList)
    match Text.Numeral.ofChars? split.2 with
    | none => .error (.literal literal)
    | some numeral =>
        let exceeds := ReadFault.exceeds literal precision scale
        if precision - scale.toNat < (numeral.whole.dropWhile (· == '0')).length then
          .error exceeds
        else
          let n := numeral.scaledHalfUp scale.toNat
          if Text.tenPow precision ≤ n then .error exceeds
          else
            match Signed.ofInt? (if split.1 then -(n : Int) else n) with
            | none => .error exceeds
            | some v => .ok ⟨v, precision, scale⟩

end Decimal
end Rollup
