import Rollup.Table.Basic

/-
Results of a table, as rows or as a chunk of stored columns.
-/

namespace Rollup
namespace Table

/-- The groups to report: without group columns there is always one. -/
def finalGroups (t : Table) : List Group :=
  match t.groups with
  | [] => if t.plan.groupBy.isEmpty then [⟨[], t.plan.start⟩] else []
  | groups => groups

def finishStates : List Measure → List State → Except StateFault (List Cell)
  | m :: ms, s :: ss =>
      match m.aggregate.finish s with
      | .error e => .error e
      | .ok c => (finishStates ms ss).map (c :: ·)
  | _, _ => .ok []

def finishGroup (p : Plan) (g : Group) : Except TableFault (List Cell) :=
  match finishStates p.measures g.states with
  | .ok cells => .ok (g.key ++ cells)
  | .error e => .error (.state e)

def rows (t : Table) : Except TableFault (List (List Cell)) :=
  t.finalGroups.mapM (finishGroup t.plan)

def keyColumns (groupBy : List GroupColumn) (keys : List (List Cell)) :
    Except TableFault (List Column) :=
  match groupBy with
  | [] => .ok []
  | g :: rest =>
      match Column.ofCells g.type (keys.map fun key => key.headD none) with
      | .error e => .error (.build e)
      | .ok c => (keyColumns rest (keys.map (·.tail))).map (c :: ·)

def resultColumn (a : Aggregate) (states : List State) : Except TableFault Column :=
  match a.column states with
  | .ok c => .ok c
  | .error (.state e) => .error (.state e)
  | .error (.build e) => .error (.build e)

/-- The states of one call, group by group.  A group has a state for every call. -/
def statesOf (a : Aggregate) (states : List (List State)) : List State :=
  states.map fun ss => ss.headD a.start

def resultColumns (measures : List Measure) (states : List (List State)) :
    Except TableFault (List Column) :=
  match measures with
  | [] => .ok []
  | m :: rest =>
      match resultColumn m.aggregate (statesOf m.aggregate states) with
      | .error e => .error e
      | .ok c => (resultColumns rest (states.map (·.tail))).map (c :: ·)

def chunk (t : Table) : Except TableFault Chunk :=
  let groups := t.finalGroups
  match keyColumns t.plan.groupBy (groups.map (·.key)) with
  | .error e => .error e
  | .ok keys =>
      (resultColumns t.plan.measures (groups.map (·.states))).map
        fun results => ⟨groups.length, keys ++ results⟩

def finished (t : Table) : Table := { t with stage := .finished }

/-- One row for each group.  The table is finished afterwards, whatever the outcome. -/
def finish (t : Table) : Except TableFault (List (List Cell)) × Table :=
  if t.isFinished then (.error .alreadyFinished, t) else (t.rows, t.finished)

/-- The same results as a chunk with the columns that the plan's schema names. -/
def finishChunk (t : Table) : Except TableFault Chunk × Table :=
  if t.isFinished then (.error .alreadyFinished, t) else (t.chunk, t.finished)

end Table
end Rollup
