import Rollup.Proofs.Value.Equality
import Rollup.Table.Key

/-
Equality of group keys.

Keys are equal exactly if their cells have the same contents, so equality sorts all keys
into classes, and an index may look keys up by the hash of their contents.
-/

namespace Rollup

theorem keysEqual_iff {a b : List Cell} : keysEqual a b = true ↔ contents a = contents b := by
  induction a generalizing b with
  | nil => cases b <;> simp [keysEqual, contents]
  | cons x xs ih =>
    cases b with
    | nil => simp [keysEqual, contents]
    | cons y ys => simp [keysEqual, contents, Cell.equal_eq_true_iff, ih]

variable {a b c : List Cell}

theorem keysEqual_refl (a : List Cell) : keysEqual a a = true := keysEqual_iff.mpr rfl

theorem keysEqual_comm (a b : List Cell) : keysEqual a b = keysEqual b a := by
  rw [Bool.eq_iff_iff, keysEqual_iff, keysEqual_iff, eq_comm]

/-- Equal keys are equal to the same keys. -/
theorem keysEqual_congr (h : keysEqual a b = true) (c : List Cell) :
    keysEqual a c = keysEqual b c := by
  rw [Bool.eq_iff_iff, keysEqual_iff, keysEqual_iff, keysEqual_iff.mp h]

theorem keysEqual_congr_right (h : keysEqual b c = true) (a : List Cell) :
    keysEqual a b = keysEqual a c := by
  rw [keysEqual_comm a b, keysEqual_comm a c, keysEqual_congr h]

/-! ## Keys of an index -/

namespace GroupKey

theorem beq_iff {a b : GroupKey} : (a == b) = true ↔ contents a.cells = contents b.cells :=
  keysEqual_iff

instance : EquivBEq GroupKey where
  rfl := beq_iff.mpr rfl
  symm h := beq_iff.mpr (beq_iff.mp h).symm
  trans hab hbc := beq_iff.mpr ((beq_iff.mp hab).trans (beq_iff.mp hbc))

instance : LawfulHashable GroupKey where
  hash_eq a b h := by
    show hash (contents a.cells) = hash (contents b.cells)
    rw [beq_iff.mp h]

end GroupKey
end Rollup
