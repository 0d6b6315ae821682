import Rollup.Table.Group

/-
Tables of groups, fed by rows, by chunks and by other tables.

Every operation that takes rows in first checks all of them; only then are states changed,
so a refused operation leaves the table as it was.
-/

namespace Rollup

/-- How far a table has come.  Groups exist only while rows are taken in. -/
inductive Stage where
  | idle
  | accumulating (groups : List Group)
  | finished

def Stage.groups : Stage → List Group
  | .accumulating groups => groups
  | _ => []

structure Table where
  plan : Plan
  stage : Stage

namespace Table

def ofPlan (p : Plan) : Table := ⟨p, .idle⟩

def groups (t : Table) : List Group := t.stage.groups

def isFinished (t : Table) : Bool :=
  match t.stage with
  | .finished => true
  | _ => false

def accumulating (t : Table) : Except StateFault (List Group) → Except TableFault Table
  | .ok groups => .ok { t with stage := .accumulating groups }
  | .error e => .error (.state e)

def takePrepared (t : Table) (rows : List Row) : Except TableFault Table :=
  t.accumulating (t.plan.takeRows t.groups rows)

def updateRow (t : Table) (r : Row) : Except TableFault Table :=
  if t.isFinished then .error .updateFinished
  else
    match t.plan.prepare r with
    | .error e => .error e
    | .ok r => t.takePrepared [r]

/-- Takes in all of the rows or, if one of them is refused, none. -/
def updateRows (t : Table) (rows : List Row) : Except TableFault Table :=
  if t.isFinished then .error .updateFinished
  else
    match rows.mapM t.plan.prepare with
    | .error e => .error e
    | .ok rows => t.takePrepared rows

/-- Takes in a row that holds all columns of the input. -/
def updateInputRow (t : Table) (input : List Cell) : Except TableFault Table :=
  match t.plan.rowOf input with
  | .error e => .error e
  | .ok r => t.updateRow r

/-- Takes in all rows of a chunk or, if one of them is refused, none. -/
def updateChunk (t : Table) (c : Chunk) : Except TableFault Table :=
  if t.isFinished then .error .updateFinished
  else
    match t.plan.chunkRows c with
    | .error e => .error e
    | .ok rows => t.takePrepared rows

/-- Whether the groups of one plan mean the same under another. -/
def sameAggregation (p q : Plan) : Bool :=
  p.aggregates = q.aggregates && p.outputTypes = q.outputTypes

/-- Takes in the groups of another table of the same aggregation. -/
def merge (t other : Table) : Except TableFault Table :=
  if other.isFinished then .error .finishedPartial
  else if !sameAggregation t.plan other.plan then .error (.differentPartial other.plan.name)
  else if t.isFinished then .error .mergeFinished
  else t.accumulating (t.plan.takeGroups t.groups other.groups)

end Table
end Rollup
