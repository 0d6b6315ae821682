/-
Signed integers of a fixed number of bits.

A value is the integer it denotes together with the bound that lets a word of that size
hold it, so arithmetic is stated over `Int`.  What happens outside the range is the
caller's choice: `ofInt?` refuses, `wrap` keeps the low bits.
-/

namespace Rollup

/-- An integer that a two's-complement word of `bits` bits holds. -/
structure Signed (bits : Nat) where
  toInt : Int
  lower : -(Nat.pow 2 (bits - 1) : Nat) ≤ toInt
  upper : toInt < (Nat.pow 2 (bits - 1) : Nat)
deriving DecidableEq

namespace Signed

theorem ext {bits : Nat} {a b : Signed bits} (h : a.toInt = b.toInt) : a = b := by
  cases a
  cases b
  simp only at h
  subst h
  rfl

theorem half_pos (bits : Nat) : 0 < Nat.pow 2 (bits - 1) := Nat.pow_pos (by decide)

def ofInt? {bits : Nat} (i : Int) : Option (Signed bits) :=
  if h : -(Nat.pow 2 (bits - 1) : Nat) ≤ i ∧ i < (Nat.pow 2 (bits - 1) : Nat) then
    some ⟨i, h.1, h.2⟩
  else none

theorem ofInt?_eq_some_iff {bits : Nat} {i : Int} {a : Signed bits} :
    ofInt? i = some a ↔ a.toInt = i := by
  unfold ofInt?
  split
  · constructor
    · intro h
      rw [← Option.some.inj h]
    · intro h
      exact congrArg some (ext h.symm)
  · rename_i hi
    refine ⟨(nomatch ·), fun h => absurd ⟨?_, ?_⟩ hi⟩
    · exact h ▸ a.lower
    · exact h ▸ a.upper

theorem ofInt?_toInt {bits : Nat} (a : Signed bits) : ofInt? a.toInt = some a :=
  ofInt?_eq_some_iff.mpr rfl

/-- Reduction modulo the number of words, to the representative nearest zero. -/
def wrap {bits : Nat} (i : Int) : Signed bits :=
  ⟨Int.bmod i (2 * Nat.pow 2 (bits - 1)), by
    have h := @Int.le_bmod i (2 * Nat.pow 2 (bits - 1)) (by have := half_pos bits; omega)
    omega, by
    have h := @Int.bmod_lt i (2 * Nat.pow 2 (bits - 1)) (by have := half_pos bits; omega)
    omega⟩

def zero {bits : Nat} : Signed bits :=
  ⟨0, by omega, by have := half_pos bits; omega⟩

/-- The same integer in a word at least as large. -/
def widen {bits : Nat} (wide : Nat) (h : bits ≤ wide) (a : Signed bits) : Signed wide :=
  have grow : Nat.pow 2 (bits - 1) ≤ Nat.pow 2 (wide - 1) :=
    Nat.pow_le_pow_right (by decide) (by omega)
  ⟨a.toInt, by have := a.lower; omega, by have := a.upper; omega⟩

def addWrap {bits : Nat} (a b : Signed bits) : Signed bits := wrap (a.toInt + b.toInt)

def add? {bits : Nat} (a b : Signed bits) : Option (Signed bits) := ofInt? (a.toInt + b.toInt)

/-- The value with a zero appended to its decimal digits. -/
def timesTen? {bits : Nat} (a : Signed bits) : Option (Signed bits) := ofInt? (a.toInt * 10)

def least (bits : Nat) : Signed bits :=
  ⟨-(Nat.pow 2 (bits - 1) : Nat), by omega, by have := half_pos bits; omega⟩

def greatest (bits : Nat) : Signed bits :=
  ⟨(Nat.pow 2 (bits - 1) : Nat) - 1, by have := half_pos bits; omega, by omega⟩

end Signed
end Rollup
