/-
Declared types of columns.
-/

namespace Rollup

inductive IntWidth where
  | tiny
  | small
  | int
  | big
deriving DecidableEq

namespace IntWidth

def all : List IntWidth := [.tiny, .small, .int, .big]

def bits : IntWidth → Nat
  | .tiny => 8
  | .small => 16
  | .int => 32
  | .big => 64

def name : IntWidth → String
  | .tiny => "TINYINT"
  | .small => "SMALLINT"
  | .int => "INT"
  | .big => "BIGINT"

end IntWidth

mutual

/-- Precisions and scales are those written in the declaration; `ColumnType.check` tells
which of them make sense. -/
inductive ColumnType where
  | integer (width : IntWidth)
  | decimal (precision : Nat) (scale : Int)
  | float
  | double
  | string
  | boolean
  | timestamp (precision : Nat)
  | date
  | binary
  | array (element : ColumnType)
  | map (key value : ColumnType)
  | row (fields : RowFields)

inductive RowFields where
  | nil
  | cons (name : String) (type : ColumnType) (rest : RowFields)

end

deriving instance DecidableEq for ColumnType, RowFields

namespace ColumnType

def isComplex : ColumnType → Bool
  | .array _ | .map _ _ | .row _ => true
  | _ => false

/-- The family of a type, without parameters. -/
def root : ColumnType → String
  | .integer .tiny => "TINYINT"
  | .integer .small => "SMALLINT"
  | .integer .int => "INTEGER"
  | .integer .big => "BIGINT"
  | .decimal _ _ => "DECIMAL"
  | .float => "FLOAT"
  | .double => "DOUBLE"
  | .string => "VARCHAR"
  | .boolean => "BOOLEAN"
  | .timestamp _ => "TIMESTAMP_WITHOUT_TIME_ZONE"
  | .date => "DATE"
  | .binary => "VARBINARY"
  | .array _ => "ARRAY"
  | .map _ _ => "MAP"
  | .row _ => "ROW"

end ColumnType

/-! ## Maps inside a type -/

mutual

/-- Whether a map occurs anywhere in the type. -/
def ColumnType.containsMap : ColumnType → Bool
  | .map _ _ => true
  | .array element => element.containsMap
  | .row fields => fields.containsMap
  | _ => false

def RowFields.containsMap : RowFields → Bool
  | .nil => false
  | .cons _ type rest => type.containsMap || rest.containsMap

end

/-! ## Well-formed types -/

inductive TypeFault where
  | decimalPrecision (precision : Nat)
  | decimalScale (precision : Nat) (scale : Int)
  | timestampPrecision (precision : Nat)

def TypeFault.message : TypeFault → String
  | .decimalPrecision p => s!"decimal precision out of range: {p}"
  | .decimalScale p s => s!"decimal scale out of range: DECIMAL({p}, {s})"
  | .timestampPrecision p => s!"timestamp precision out of range: {p}"

mutual

/-- The first parameter out of range, keys before values and fields in order. -/
def ColumnType.check : ColumnType → Except TypeFault Unit
  | .decimal p s =>
      if p == 0 || 38 < p then .error (.decimalPrecision p)
      else if s < 0 || (p : Int) < s then .error (.decimalScale p s)
      else .ok ()
  | .timestamp p => if 9 < p then .error (.timestampPrecision p) else .ok ()
  | .array element => element.check
  | .map key value =>
      match key.check with
      | .error e => .error e
      | .ok () => value.check
  | .row fields => fields.check
  | _ => .ok ()

def RowFields.check : RowFields → Except TypeFault Unit
  | .nil => .ok ()
  | .cons _ type rest =>
      match type.check with
      | .error e => .error e
      | .ok () => rest.check

end

/-! ## Text -/

/-- A field name stands between backquotes. -/
def RowFields.renderField (name type : String) : String := "`" ++ name ++ "` " ++ type

mutual

def ColumnType.render : ColumnType → String
  | .integer width => width.name
  | .decimal p s => s!"DECIMAL({p}, {s})"
  | .float => "FLOAT"
  | .double => "DOUBLE"
  | .string => "STRING"
  | .boolean => "BOOLEAN"
  | .timestamp p => s!"TIMESTAMP({p})"
  | .date => "DATE"
  | .binary => "BYTES"
  | .array element => "ARRAY<" ++ element.render ++ ">"
  | .map key value => "MAP<" ++ key.render ++ ", " ++ value.render ++ ">"
  | .row fields => "ROW<" ++ fields.render ++ ">"

def RowFields.render : RowFields → String
  | .nil => ""
  | .cons name type .nil => RowFields.renderField name type.render
  | .cons name type rest => RowFields.renderField name type.render ++ ", " ++ rest.render

end

end Rollup
