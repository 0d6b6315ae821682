import Rollup.Binary.Basic
import Rollup.Binary.Rounding
import Rollup.Calendar.Timestamp
import Rollup.Decimal

/-
Scalar values: their families, their order, and the equality by which rows are grouped.

Integers of every declared width are one family.  A missing value is not a `Value`; a cell
of a row or a column is an `Option Value`.
-/

namespace Rollup

inductive Value where
  | boolean (b : Bool)
  | integer (i : Signed 64)
  | float (x : Single)
  | double (x : Double)
  | string (s : String)
  | binary (bytes : List UInt8)
  | decimal (d : Decimal)
  | date (d : Date)
  | timestamp (t : Timestamp)

abbrev Cell := Option Value

namespace Value

def typeName : Value → String
  | .boolean _ => "BOOLEAN"
  | .integer _ => "INTEGER"
  | .float _ => "FLOAT"
  | .double _ => "DOUBLE"
  | .string _ => "STRING"
  | .binary _ => "BINARY"
  | .decimal _ => "DECIMAL"
  | .date _ => "DATE"
  | .timestamp _ => "TIMESTAMP"

/-! ## Order -/

/-- The order of two values of one family, and nothing for values of different families.
Numbers of a binary format follow the total order of their patterns, strings and bytes are
compared from the front. -/
def compare? : Value → Value → Option Ordering
  | .boolean a, .boolean b => some (Ord.compare a b)
  | .integer a, .integer b => some (Ord.compare a.toInt b.toInt)
  | .float a, .float b => some (a.compare b)
  | .double a, .double b => some (a.compare b)
  | .string a, .string b => some (Ord.compare a b)
  | .binary a, .binary b => some (List.compareLex Ord.compare a b)
  | .decimal a, .decimal b => some (a.compare b)
  | .date a, .date b => some (a.compare b)
  | .timestamp a, .timestamp b => some (a.compare b)
  | _, _ => none

/-! ## Equality -/

/-- Equality as a group key: the same place in the order, except that all zeros and all
NaNs of one format count as one value each. -/
def equal : Value → Value → Bool
  | .float a, .float b => a.toDouble.canonical == b.toDouble.canonical
  | .double a, .double b => a.canonical == b.canonical
  | a, b => a.compare? b == some .eq

/-- What is left of a value when everything that `equal` overlooks is removed. -/
inductive Content where
  | boolean (b : Bool)
  | integer (i : Int)
  | float (x : Double)
  | double (x : Double)
  | string (s : String)
  | binary (bytes : List UInt8)
  | decimal (unscaled scale : Int)
  | date (d : Date)
  | timestamp (t : Timestamp)
deriving DecidableEq

def content : Value → Content
  | .boolean b => .boolean b
  | .integer i => .integer i.toInt
  | .float x => .float x.toDouble.canonical
  | .double x => .double x.canonical
  | .string s => .string s
  | .binary bytes => .binary bytes
  | .decimal d => .decimal d.canonical.1 d.canonical.2
  | .date d => .date d
  | .timestamp t => .timestamp t

end Value

namespace Cell

/-- Two missing values are equal to each other and to nothing else. -/
def equal : Cell → Cell → Bool
  | none, none => true
  | some a, some b => a.equal b
  | _, _ => false

end Cell
end Rollup
