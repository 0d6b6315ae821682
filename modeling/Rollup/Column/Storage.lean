import Rollup.Calendar.Timestamp
import Rollup.Column.Type
import Rollup.Text.Quoted

/-
Physical types of stored columns, and their correspondence with declared types.

There are more physical types than declared ones.  Every declared type has one physical
type, `ColumnType.storage`; the physical types that stand for a declared type are those
where `StorageType.column` succeeds.
-/

namespace Rollup

mutual

inductive StorageType where
  | null
  | boolean
  | int (width : IntWidth)
  | uint (width : IntWidth)
  | float16
  | float32
  | float64
  | date32
  | date64
  | binary
  | largeBinary
  | binaryView
  | fixedSizeBinary (size : Int)
  | utf8
  | largeUtf8
  | utf8View
  | decimal128 (precision : Nat) (scale : Int)
  | decimal256 (precision : Nat) (scale : Int)
  | timestamp (unit : TimeUnit) (zone : Option String)
  | time32 (unit : TimeUnit)
  | time64 (unit : TimeUnit)
  | duration (unit : TimeUnit)
  | list (item : StorageField)
  | largeList (item : StorageField)
  | map (entries : StorageField)
  | struct (fields : StorageFields)

inductive StorageField where
  | mk (name : String) (type : StorageType) (nullable : Bool)

inductive StorageFields where
  | nil
  | cons (head : StorageField) (rest : StorageFields)

end

deriving instance DecidableEq for StorageType, StorageField, StorageFields

/-! ## Text -/

namespace StorageType

def intName : IntWidth → String
  | .tiny => "Int8"
  | .small => "Int16"
  | .int => "Int32"
  | .big => "Int64"

def unitName : TimeUnit → String
  | .second => "Second"
  | .millisecond => "Millisecond"
  | .microsecond => "Microsecond"
  | .nanosecond => "Nanosecond"

def zoneText : Option String → String
  | none => "None"
  | some zone => "Some(" ++ Text.quoted zone ++ ")"

end StorageType

mutual

def StorageType.render : StorageType → String
  | .null => "Null"
  | .boolean => "Boolean"
  | .int width => StorageType.intName width
  | .uint width => "U" ++ StorageType.intName width
  | .float16 => "Float16"
  | .float32 => "Float32"
  | .float64 => "Float64"
  | .date32 => "Date32"
  | .date64 => "Date64"
  | .binary => "Binary"
  | .largeBinary => "LargeBinary"
  | .binaryView => "BinaryView"
  | .fixedSizeBinary size => s!"FixedSizeBinary({size})"
  | .utf8 => "Utf8"
  | .largeUtf8 => "LargeUtf8"
  | .utf8View => "Utf8View"
  | .decimal128 p s => s!"Decimal128({p}, {s})"
  | .decimal256 p s => s!"Decimal256({p}, {s})"
  | .timestamp unit zone =>
      "Timestamp(" ++ StorageType.unitName unit ++ ", " ++ StorageType.zoneText zone ++ ")"
  | .time32 unit => "Time32(" ++ StorageType.unitName unit ++ ")"
  | .time64 unit => "Time64(" ++ StorageType.unitName unit ++ ")"
  | .duration unit => "Duration(" ++ StorageType.unitName unit ++ ")"
  | .list item => "List(" ++ item.render ++ ")"
  | .largeList item => "LargeList(" ++ item.render ++ ")"
  | .map entries => "Map(" ++ entries.render ++ ", false)"
  | .struct fields => "Struct([" ++ fields.render ++ "])"

def StorageField.render : StorageField → String
  | .mk name type nullable =>
      "Field \x7b name: " ++ Text.quoted name ++ ", data_type: " ++ type.render ++
        (if nullable then ", nullable: true" else ", nullable: false") ++
        ", dict_id: 0, dict_is_ordered: false, metadata: \x7b\x7d \x7d"

def StorageFields.render : StorageFields → String
  | .nil => ""
  | .cons head .nil => head.render
  | .cons head rest => head.render ++ ", " ++ rest.render

end

/-! ## Precision of timestamps

A stored timestamp counts units, so a declared precision is rounded up to the next unit. -/

def TimeUnit.ofPrecision (p : Nat) : TimeUnit :=
  if p == 0 then .second
  else if p ≤ 3 then .millisecond
  else if p ≤ 6 then .microsecond
  else .nanosecond

def TimeUnit.precision : TimeUnit → Nat
  | .second => 0
  | .millisecond => 3
  | .microsecond => 6
  | .nanosecond => 9

theorem TimeUnit.ofPrecision_precision (u : TimeUnit) : ofPrecision u.precision = u := by
  cases u <;> rfl

/-! ## From declared to physical types -/

mutual

def ColumnType.storage : ColumnType → StorageType
  | .integer width => .int width
  | .decimal p s => .decimal128 p s
  | .float => .float32
  | .double => .float64
  | .string => .utf8
  | .boolean => .boolean
  | .timestamp p => .timestamp (.ofPrecision p) none
  | .date => .date32
  | .binary => .binary
  | .array element => .list (.mk "item" element.storage true)
  | .map key value =>
      .map (.mk "entries"
        (.struct (.cons (.mk "key" key.storage false)
          (.cons (.mk "value" value.storage true) .nil))) false)
  | .row fields => .struct fields.storage

def RowFields.storage : RowFields → StorageFields
  | .nil => .nil
  | .cons name type rest => .cons (.mk name type.storage true) rest.storage

end

/-! ## From physical to declared types -/

inductive StorageFault where
  | unsupported (type : StorageType)
  | mapEntries (type : StorageType)

def StorageFault.message : StorageFault → String
  | .unsupported type => "unsupported arrow type: " ++ type.render
  | .mapEntries type => "map entries type mismatch: " ++ type.render

mutual

/-- The declared type that a physical type stands for.  Names of list items and map entries
are not looked at, and neither are nullability and time zones. -/
def StorageType.column : StorageType → Except StorageFault ColumnType
  | .boolean => .ok .boolean
  | .int width => .ok (.integer width)
  | .float32 => .ok .float
  | .float64 => .ok .double
  | .date32 => .ok .date
  | .binary | .largeBinary => .ok .binary
  | .utf8 | .largeUtf8 => .ok .string
  | .decimal128 p s => .ok (.decimal p s)
  | .timestamp unit _ => .ok (.timestamp unit.precision)
  | .list (.mk _ item _) | .largeList (.mk _ item _) => item.column.map .array
  | .map (.mk _ (.struct (.cons (.mk _ key _) (.cons (.mk _ value _) .nil))) _) =>
      match key.column with
      | .error e => .error e
      | .ok k => value.column.map (.map k)
  | .map (.mk _ type _) => .error (.mapEntries type)
  | .struct fields => fields.columns.map .row
  | type => .error (.unsupported type)

def StorageFields.columns : StorageFields → Except StorageFault RowFields
  | .nil => .ok .nil
  | .cons (.mk name type _) rest =>
      match type.column with
      | .error e => .error e
      | .ok t => rest.columns.map (.cons name t)

end

end Rollup
