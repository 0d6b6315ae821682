import Rollup.Aggregate.View
import Rollup.Plan

/-
Rows as a plan takes them in: a group key and one value for each call.

A row is checked against the plan before anything is done with it, and leaves the check
with every value in the form that its column has.  Rows also come out of wider inputs, by
column number, and out of chunks of stored columns.
-/

namespace Rollup

/-- Values of the group columns and one value for each call. -/
structure Row where
  key : List Cell
  values : List Cell

structure Chunk where
  rows : Nat
  columns : List Column

inductive TableFault where
  | updateFinished
  | mergeFinished
  | alreadyFinished
  | keyLength (got expected : Nat)
  | valueCount (got expected : Nat)
  | key (column : Nat) (fault : ValueFault)
  | argument (fault : ArgumentFault)
  | inputRow (width column : Nat)
  | chunkColumn (column count : Nat)
  | groupColumn (column : Nat) (expected : ColumnType) (actual : StorageType)
  | view (fault : ViewFault)
  | read (fault : ReadFault)
  | state (fault : StateFault)
  | build (fault : BuildFault)
  | finishedPartial
  | differentPartial (other : String)

/-- The wording of a fault of the table called `name`. -/
def TableFault.message (name : String) : TableFault → String
  | .updateFinished => name ++ ": update after finalize"
  | .mergeFinished => name ++ ": merge after finalize"
  | .alreadyFinished => name ++ ": already finalized"
  | .keyLength got expected => s!"{name}: group key has {got} values, expected {expected}"
  | .valueCount got expected => s!"{name}: row has {got} aggregate values, expected {expected}"
  | .key column fault => s!"{name}: group-by column {column}: " ++ fault.message
  | .argument fault => fault.message
  | .inputRow width column => s!"input row has {width} columns, column {column} requested"
  | .chunkColumn column count =>
      s!"aggregate input column {column} out of bounds (columns={count})"
  | .groupColumn column expected actual =>
      s!"group-by column {column} type mismatch: expected " ++ expected.render ++ ", got " ++
        actual.render
  | .view fault => fault.message
  | .read fault => fault.message
  | .state fault => fault.message
  | .build fault => fault.message
  | .finishedPartial => name ++ ": cannot merge a finalized partial"
  | .differentPartial other =>
      name ++ ": cannot merge partial of a different aggregation (" ++ other ++ ")"

/-! ## Checking rows -/

namespace Plan

def normalKey : List GroupColumn → List Cell → Except TableFault (List Cell)
  | g :: gs, c :: cs =>
      match g.type.normalizeCell c with
      | .error e => .error (.key g.column e)
      | .ok w => (normalKey gs cs).map (w :: ·)
  | _, _ => .ok []

def normalValues : List Measure → List Cell → Except TableFault (List Cell)
  | m :: ms, c :: cs =>
      match m.aggregate.normalize m.call.ofPartials c with
      | .error e => .error (.argument e)
      | .ok w => (normalValues ms cs).map (w :: ·)
  | _, _ => .ok []

/-- The row with every value in the form its column has. -/
def prepare (p : Plan) (r : Row) : Except TableFault Row :=
  if r.key.length ≠ p.groupBy.length then
    .error (.keyLength r.key.length p.groupBy.length)
  else if r.values.length ≠ p.measures.length then
    .error (.valueCount r.values.length p.measures.length)
  else
    match normalKey p.groupBy r.key with
    | .error e => .error e
    | .ok key => (normalValues p.measures r.values).map (⟨key, ·⟩)

/-! ## Reading rows from wider inputs -/

def pick (input : List Cell) (column : Nat) : Except TableFault Cell :=
  match input[column]? with
  | some c => .ok c
  | none => .error (.inputRow input.length column)

/-- Key and values of a row that holds all columns of the input. -/
def rowOf (p : Plan) (input : List Cell) : Except TableFault Row :=
  match p.groupBy.mapM fun g => pick input g.column with
  | .error e => .error e
  | .ok key => (p.measures.mapM fun m => pick input m.call.column).map (⟨key, ·⟩)

def chunkColumn (c : Chunk) (index : Nat) : Except TableFault Column :=
  match c.columns[index]? with
  | some column => .ok column
  | none => .error (.chunkColumn index c.columns.length)

def groupColumn (c : Chunk) (g : GroupColumn) : Except TableFault Column :=
  match chunkColumn c g.column with
  | .error e => .error e
  | .ok column =>
      if g.type.accepts column.type then .ok column
      else .error (.groupColumn g.column g.type column.type)

def measureView (column : Column) (m : Measure) : Except TableFault View :=
  match View.ofColumn (m.aggregate.expects m.call.ofPartials) column with
  | .ok v => .ok v
  | .error e => .error (.view e)

/-- The columns of a chunk that a plan reads: those of the group key, each of an accepted
type, then those of the calls, which must all be present before any type is looked at. -/
def chunkColumns (p : Plan) (c : Chunk) : Except TableFault (List Column × List View) :=
  match p.groupBy.mapM (groupColumn c) with
  | .error e => .error e
  | .ok keys =>
      match p.measures.mapM fun m => chunkColumn c m.call.column with
      | .error e => .error e
      | .ok columns =>
          ((columns.zip p.measures).mapM fun x => measureView x.1 x.2).map (keys, ·)

def readCell (c : Column) (index : Nat) : Except TableFault Cell :=
  match c.read index with
  | .ok cell => .ok cell
  | .error e => .error (.read e)

def chunkRow (keys : List Column) (views : List View) (index : Nat) : Except TableFault Row :=
  match keys.mapM fun c => readCell c index with
  | .error e => .error e
  | .ok key => (views.mapM fun v => readCell v.column index).map (⟨key, ·⟩)

/-- The rows of a chunk from top to bottom, each checked before the next is read. -/
def chunkRows (p : Plan) (c : Chunk) : Except TableFault (List Row) :=
  match p.chunkColumns c with
  | .error e => .error e
  | .ok (keys, views) =>
      (List.range c.rows).mapM fun index =>
        match chunkRow keys views index with
        | .error e => .error e
        | .ok r => p.prepare r

end Plan
end Rollup
