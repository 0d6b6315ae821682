import Rollup.Column.Type
import Rollup.Value.Basic

/-
Bringing a value to a declared type without changing what it denotes.
-/

namespace Rollup

namespace IntWidth

def holds (width : IntWidth) (i : Int) : Bool :=
  -(Nat.pow 2 (width.bits - 1) : Nat) ≤ i && i < (Nat.pow 2 (width.bits - 1) : Nat)

end IntWidth

inductive ValueFault where
  | outOfRange (width : IntWidth) (value : Int)
  | scale (fault : Decimal.ScaleFault)
  | mismatch (expected : ColumnType) (got : Value)

def ValueFault.message : ValueFault → String
  | .outOfRange width value => s!"{width.name} overflow: {value}"
  | .scale fault => fault.message
  | .mismatch expected got =>
      "scalar type mismatch: expected " ++ expected.render ++ ", got " ++ got.typeName

namespace ColumnType

/-- The form that a value takes in a column of the given type.  Integers must be in range,
decimals are brought to the scale of the column, and a float is widened to a double;
every other value must be of the family of the type. -/
def normalize : ColumnType → Value → Except ValueFault Value
  | .integer width, .integer i =>
      if width.holds i.toInt then .ok (.integer i) else .error (.outOfRange width i.toInt)
  | .decimal p s, .decimal d =>
      match Decimal.rescale d.unscaled d.scale s with
      | .ok v => .ok (.decimal ⟨v, p, s⟩)
      | .error e => .error (.scale e)
  | .float, .float x => .ok (.float x)
  | .double, .double x => .ok (.double x)
  | .double, .float x => .ok (.double x.toDouble)
  | .string, .string s => .ok (.string s)
  | .boolean, .boolean b => .ok (.boolean b)
  | .timestamp _, .timestamp t => .ok (.timestamp t)
  | .date, .date d => .ok (.date d)
  | .binary, .binary bytes => .ok (.binary bytes)
  | expected, got => .error (.mismatch expected got)

/-- A missing value belongs to every type. -/
def normalizeCell (type : ColumnType) : Cell → Except ValueFault Cell
  | none => .ok none
  | some v => (type.normalize v).map some

end ColumnType
end Rollup
