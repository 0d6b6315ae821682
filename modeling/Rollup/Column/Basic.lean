import Rollup.Column.Storage
import Rollup.Value.Normal

/-
Stored columns, and their reading and building cell by cell.

A physical type fixes what a cell holds, so a column is its type with a list of cells of
just that kind.  Cells of a type that cannot be read hold nothing.
-/

namespace Rollup

namespace StorageType

def Datum : StorageType → Type
  | .boolean => Bool
  | .int width => Signed width.bits
  | .float32 => Single
  | .float64 => Double
  | .utf8 | .largeUtf8 => String
  | .binary | .largeBinary => List UInt8
  | .decimal128 _ _ => Signed 128
  | .date32 => Signed 32
  | .timestamp _ _ => Signed 64
  | _ => Unit

end StorageType

structure Column where
  type : StorageType
  cells : List (Option type.Datum)

/-! ## Reading -/

inductive ReadFault where
  | row (index length : Nat)
  | unsupported (type : StorageType)
  | date (day : Int)
  | timestamp (units : Int)

def ReadFault.message : ReadFault → String
  | .row index length => s!"row {index} out of bounds (len={length})"
  | .unsupported type => "unsupported aggregate input array type: " ++ type.render
  | .date day => s!"date32 value out of range: {day}"
  | .timestamp units => s!"timestamp value out of range: {units}"

theorem IntWidth.bits_le (width : IntWidth) : width.bits ≤ 64 := by cases width <;> decide

namespace StorageType

/-- The value of one cell.  A type that cannot be read is refused even where the cell is
missing. -/
def decode : (type : StorageType) → Option type.Datum → Except ReadFault Cell
  | .boolean, cell => .ok (cell.map fun (b : Bool) => .boolean b)
  | .int width, cell =>
      .ok (cell.map fun (i : Signed width.bits) => .integer (i.widen 64 width.bits_le))
  | .float32, cell => .ok (cell.map fun (x : Single) => .float x)
  | .float64, cell => .ok (cell.map fun (x : Double) => .double x)
  | .utf8, cell | .largeUtf8, cell => .ok (cell.map fun (s : String) => .string s)
  | .binary, cell | .largeBinary, cell =>
      .ok (cell.map fun (bytes : List UInt8) => .binary bytes)
  | .decimal128 p s, cell => .ok (cell.map fun (v : Signed 128) => .decimal ⟨v, p, s⟩)
  | .date32, none => .ok none
  | .date32, some (day : Signed 32) =>
      match Date.ofDay? day.toInt with
      | some d => .ok (some (.date d))
      | none => .error (.date day.toInt)
  | .timestamp _ _, none => .ok none
  | .timestamp unit _, some (n : Signed 64) =>
      match Timestamp.ofUnits? unit n.toInt with
      | some t => .ok (some (.timestamp t))
      | none => .error (.timestamp n.toInt)
  | type, _ => .error (.unsupported type)

end StorageType

namespace Column

def length (c : Column) : Nat := c.cells.length

def read (c : Column) (index : Nat) : Except ReadFault Cell :=
  match c.cells[index]? with
  | none => .error (.row index c.length)
  | some cell => c.type.decode cell

end Column

/-! ## Building -/

inductive BuildFault where
  | value (fault : ValueFault)
  | nanoseconds (t : Timestamp)
  | complex (type : ColumnType)

def BuildFault.message : BuildFault → String
  | .value fault => fault.message
  | .nanoseconds t => "timestamp " ++ t.fullText ' ' ++ " out of nanosecond range"
  | .complex type => "cannot materialize complex aggregate column of type " ++ type.render

/-- Every date in range has its day number in a 32-bit word. -/
def Date.word (d : Date) : Signed 32 :=
  have half : Nat.pow 2 (32 - 1) = 2147483648 := rfl
  ⟨d.day, by have := d.lower; omega, by have := d.upper; omega⟩

namespace ColumnType

/-- The stored form of a value in a column of a declared type.  Unlike `normalize` this
widens no float. -/
def encode : (type : ColumnType) → Value → Except BuildFault type.storage.Datum
  | .boolean, .boolean b => .ok b
  | .integer width, .integer i =>
      match (Signed.ofInt? i.toInt : Option (Signed width.bits)) with
      | some word => .ok word
      | none => .error (.value (.outOfRange width i.toInt))
  | .float, .float x => .ok x
  | .double, .double x => .ok x
  | .string, .string s => .ok s
  | .binary, .binary bytes => .ok bytes
  | .decimal _ s, .decimal d =>
      match Decimal.rescale d.unscaled d.scale s with
      | .ok v => .ok v
      | .error e => .error (.value (.scale e))
  | .date, .date d => .ok d.word
  | .timestamp p, .timestamp t =>
      match (Signed.ofInt? (t.toUnits (.ofPrecision p)) : Option (Signed 64)) with
      | some n => .ok n
      | none => .error (.nanoseconds t)
  | .array element, _ => .error (.complex (.array element))
  | .map key value, _ => .error (.complex (.map key value))
  | .row fields, _ => .error (.complex (.row fields))
  | type, v => .error (.value (.mismatch type v))

def encodeCell (type : ColumnType) : Cell → Except BuildFault (Option type.storage.Datum)
  | none => .ok none
  | some v => (type.encode v).map some

end ColumnType

namespace Column

/-- A column of a declared type from its cells in order; the first cell that does not fit
is the failure.  A complex type is refused whatever the cells are. -/
def ofCells (type : ColumnType) (cells : List Cell) : Except BuildFault Column :=
  if type.isComplex then .error (.complex type)
  else
    match cells.mapM type.encodeCell with
    | .ok stored => .ok ⟨type.storage, stored⟩
    | .error e => .error e

end Column
end Rollup
