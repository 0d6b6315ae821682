import Rollup.Aggregate.Accumulator

/-
Stored columns seen as the argument columns of aggregates.
-/

namespace Rollup

namespace ColumnType

/-- Whether every value stored in a column of type `actual` can be brought to the declared
type without loss: narrower integers, decimals with fewer places, and timestamps in units
no finer than those the declared type is stored in. -/
def accepts (expected : ColumnType) (actual : StorageType) : Bool :=
  match actual.column with
  | .error _ => false
  | .ok type =>
      match expected, type with
      | .integer wide, .integer narrow => narrow.bits ≤ wide.bits
      | .decimal _ wide, .decimal _ narrow => narrow ≤ wide
      | .timestamp p, .timestamp q => q ≤ (TimeUnit.ofPrecision p).precision
      | expected, type => expected = type

end ColumnType

structure View where
  column : Column
  expected : ColumnType

inductive ViewFault where
  | count (aggregates columns : Nat)
  | mismatch (expected : ColumnType) (actual : StorageType)

def ViewFault.message : ViewFault → String
  | .count aggregates columns =>
      s!"aggregate input length mismatch: {aggregates} kernels, {columns} arrays"
  | .mismatch expected actual =>
      "aggregate input type mismatch: expected " ++ expected.render ++ ", got " ++ actual.render

namespace View

def ofColumn (expected : ColumnType) (c : Column) : Except ViewFault View :=
  if expected.accepts c.type then .ok ⟨c, expected⟩ else .error (.mismatch expected c.type)

def length (v : View) : Nat := v.column.length

def read (v : View) (index : Nat) : Except ReadFault Cell := v.column.read index

/-- One view for each aggregate, the columns given in the same order. -/
def ofColumns (ofPartials : Bool) (aggregates : List Aggregate) (columns : List Column) :
    Except ViewFault (List View) :=
  if aggregates.length = columns.length then
    (aggregates.zip columns).mapM fun p => ofColumn (p.1.expects ofPartials) p.2
  else .error (.count aggregates.length columns.length)

end View
end Rollup
