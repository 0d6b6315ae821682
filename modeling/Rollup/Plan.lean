import Rollup.Aggregate.Basic
import Rollup.Column.Storage

/-
Nodes of a query plan that group rows and aggregate columns, and the plans they make once
every aggregate is known to exist.
-/

namespace Rollup

/-- One aggregate call as written.  A call over partial results reads the finished results
of an earlier stage from its column. -/
structure Call where
  function : String
  argument : ColumnType
  column : Nat := 0
  alias? : Option String := none
  ofPartials : Bool := false

namespace Call

/-- The same call over the results that an earlier stage left in a column. -/
def asMerge (c : Call) (column : Nat) : Call := { c with column := column, ofPartials := true }

def outputName (c : Call) : String :=
  c.alias?.getD (s!"{Aggregate.canonicalName c.function}(${c.column})")

end Call

structure GroupColumn where
  column : Nat
  type : ColumnType
  name? : Option String := none

def GroupColumn.outputName (g : GroupColumn) : String := g.name?.getD (s!"${g.column}")

structure Node where
  id : Int
  groupBy : List GroupColumn
  calls : List Call

/-- Nodes without a number share one name. -/
def Node.name (n : Node) : String :=
  if 0 ≤ n.id then s!"AGGREGATE (id={n.id})" else "AGGREGATE"

/-- A call with the aggregate it stands for. -/
structure Measure where
  call : Call
  aggregate : Aggregate

structure Plan where
  name : String
  groupBy : List GroupColumn
  measures : List Measure

namespace Plan

def measure (c : Call) : Except PlanFault Measure :=
  (Aggregate.classify c.function c.argument).map (⟨c, ·⟩)

/-- The call of a function on the first column. -/
def register (function : String) (type : ColumnType) : Except PlanFault Measure :=
  measure ⟨function, type, 0, none, false⟩

/-- Every call with its aggregate, or the fault of the first call that has none. -/
def measuresOf (calls : List Call) : Except PlanFault (List Measure) := calls.mapM measure

def checkTypes (columns : List GroupColumn) : Except PlanFault Unit :=
  match columns with
  | [] => .ok ()
  | g :: rest =>
      match g.type.check with
      | .error e => .error (.type e)
      | .ok () => checkTypes rest

def ofNode (n : Node) : Except PlanFault Plan :=
  match checkTypes n.groupBy with
  | .error e => .error e
  | .ok () => (measuresOf n.calls).map (⟨n.name, n.groupBy, ·⟩)

def aggregates (p : Plan) : List Aggregate := p.measures.map (·.aggregate)

def isGrouped (p : Plan) : Bool := !p.groupBy.isEmpty

/-- Types of the output columns: group columns first, then one for each call. -/
def outputTypes (p : Plan) : List ColumnType :=
  p.groupBy.map (·.type) ++ p.aggregates.map (·.output)

def outputNames (p : Plan) : List String :=
  p.groupBy.map (·.outputName) ++ p.measures.map (·.call.outputName)

/-- Names and physical types of the output columns, all of which may hold missing values. -/
def schema (p : Plan) : List StorageField :=
  p.outputNames.zipWith (fun name type => .mk name type.storage true) p.outputTypes

end Plan
end Rollup
