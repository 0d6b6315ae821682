/-
IEEE 754 binary interchange formats, as bit patterns.

A pattern keeps the sign and payload of a NaN, which the total order looks at.  A finite
pattern denotes a whole number of units of the least positive number of its format.
-/

namespace Rollup

structure Format where
  exponentBits : Nat
  fractionBits : Nat

namespace Format

def single : Format := ⟨8, 23⟩
def double : Format := ⟨11, 52⟩

def width (f : Format) : Nat := f.exponentBits + f.fractionBits + 1

/-- The weight of the sign bit. -/
def signWeight (f : Format) : Nat := Nat.pow 2 (f.exponentBits + f.fractionBits)

/-- The weight of the lowest exponent bit, which is also the hidden bit of a normal number. -/
def hidden (f : Format) : Nat := Nat.pow 2 f.fractionBits

/-- The pattern of positive infinity: an exponent of ones and no fraction. -/
def infinity (f : Format) : Nat := (Nat.pow 2 f.exponentBits - 1) * f.hidden

/-- The least positive number is two to the power minus this. -/
def unitExponent (f : Format) : Nat := Nat.pow 2 (f.exponentBits - 1) + f.fractionBits - 2

end Format

structure Binary (f : Format) where
  bits : BitVec f.width
deriving DecidableEq

namespace Binary

variable {f : Format}

def word (x : Binary f) : Nat := x.bits.toNat

def ofWord (f : Format) (w : Nat) : Binary f := ⟨BitVec.ofNat f.width w⟩

def isNegative (x : Binary f) : Bool := f.signWeight ≤ x.word

/-- The pattern without its sign bit. -/
def magnitude (x : Binary f) : Nat := x.word % f.signWeight

def signed (negative : Bool) (magnitude : Nat) : Binary f :=
  ofWord f (if negative then f.signWeight + magnitude else magnitude)

def isNaN (x : Binary f) : Bool := f.infinity < x.magnitude
def isInfinite (x : Binary f) : Bool := x.magnitude == f.infinity
def isZero (x : Binary f) : Bool := x.magnitude == 0

def zero : Binary f := signed false 0
def infinite (negative : Bool) : Binary f := signed negative f.infinity

/-- The quiet NaN of either sign with an empty payload. -/
def nan (negative : Bool) : Binary f := signed negative (f.infinity + f.hidden / 2)

/-! ## Order and equality -/

/-- Position in the total order: negative patterns by falling magnitude, then positive
patterns by rising magnitude, so the two zeros are neighbours and NaNs lie outermost. -/
def rank (x : Binary f) : Int :=
  if x.isNegative then -(x.magnitude : Int) - 1 else x.magnitude

def compare (x y : Binary f) : Ordering := Ord.compare x.rank y.rank

/-- One pattern for each value: the zeros count as one value and so do all NaNs. -/
def canonical (x : Binary f) : Binary f :=
  if x.isZero then zero else if x.isNaN then nan false else x

/-! ## Finite numbers -/

/-- The significand of a finite pattern, hidden bit included. -/
def significand (x : Binary f) : Nat :=
  if x.magnitude < f.hidden then x.magnitude else x.magnitude % f.hidden + f.hidden

/-- The power of two by which a finite pattern's significand counts units. -/
def shift (x : Binary f) : Nat := x.magnitude / f.hidden - 1

/-- The magnitude of a finite pattern in units of the least positive number. -/
def units (x : Binary f) : Nat := x.significand * Nat.pow 2 x.shift

def signedUnits (x : Binary f) : Int := if x.isNegative then -(x.units : Int) else x.units

end Binary

abbrev Single := Binary .single
abbrev Double := Binary .double

end Rollup
