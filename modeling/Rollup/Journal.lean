import Rollup.Table.Result
import Rollup.Text.Terminal

/-
Events that the operations write to a log.

An event never changes what an operation does: the events of an operation are functions
of the same arguments, beside the operation itself.
-/

namespace Rollup

inductive Level where
  | error
  | warn
  | info
  | debug
  | trace
deriving DecidableEq

def Level.letter : Level → Char
  | .error => 'E'
  | .warn => 'W'
  | .info => 'I'
  | .debug => 'D'
  | .trace => 'T'

def Level.ofName? (name : String) : Option Level :=
  if name == "error" then some .error
  else if name == "warn" then some .warn
  else if name == "info" then some .info
  else if name == "debug" then some .debug
  else if name == "trace" then some .trace
  else none

structure Event where
  level : Level
  message : String

/-- The head of a log line with every digit of date, time and thread written `d`. -/
def Event.shape (e : Event) : String :=
  String.ofList (e.level.letter :: "dddddddd dd:dd:dd.dddddd d".toList)

/-- The message as a log line shows it, where it can give a terminal no commands. -/
def Event.text (e : Event) : String := Text.withoutCommands e.message

namespace Journal

/-! ## Planning -/

def classified (function : String) (type : ColumnType) (a : Aggregate) : Event :=
  ⟨.debug, s!"classified {function}(" ++ type.render ++ s!") as {a.kind} -> " ++ a.output.render⟩

/-- A refused classification leaves no trace. -/
def classification (function : String) (type : ColumnType) : List Event :=
  match Aggregate.classify function type with
  | .ok a => [classified function type a]
  | .error _ => []

/-- The calls classified before the first refusal. -/
def classifications : List Call → List Event
  | [] => []
  | c :: rest =>
      match Aggregate.classify c.function c.argument with
      | .ok a => classified c.function c.argument a :: classifications rest
      | .error _ => []

def measures (calls : List Call) : List Event :=
  classifications calls ++
    match Plan.measuresOf calls with
    | .ok ms => [⟨.debug, s!"built aggregate kernel set with {ms.length} entries"⟩]
    | .error _ => []

def planning (n : Node) : List Event :=
  match Plan.checkTypes n.groupBy with
  | .error _ => []
  | .ok () =>
      measures n.calls ++
        match Plan.ofNode n with
        | .ok p =>
            [⟨.debug, s!"{p.name}: {p.groupBy.length} group-by columns, " ++
              s!"{p.measures.length} aggregate functions"⟩]
        | .error _ => []

/-! ## Results -/

/-- A decimal sum that its result type cannot hold is reported and not only left out. -/
def finishing (a : Aggregate) (s : State) : List Event :=
  match a, s with
  | .extreme _ _, _ => []
  | a, .decimal (some sum) =>
      match a.output with
      | .decimal p scale =>
          match Aggregate.fitDecimal? p scale sum with
          | some _ => []
          | none => [⟨.warn, s!"decimal sum exceeds DECIMAL({p}, {scale}), producing NULL"⟩]
      | _ => []
  | _, _ => []

/-- States are finished one after the other until one cannot be. -/
def finishingUntilFault (a : Aggregate) : List State → List Event
  | [] => []
  | s :: rest =>
      match a.finish s with
      | .ok _ => finishing a s ++ finishingUntilFault a rest
      | .error _ => []

/-! ## Tables -/

def updatingChunk (t : Table) (c : Chunk) : List Event :=
  if t.isFinished then []
  else [⟨.trace, s!"{t.plan.name}: update chunk rows={c.rows}"⟩]

def merging (t other : Table) : List Event :=
  if other.isFinished || !Table.sameAggregation t.plan other.plan || t.isFinished then []
  else
    [⟨.trace, s!"{t.plan.name}: merging {other.groups.length} partial groups into " ++
      s!"{t.groups.length}"⟩]

def finalizing (t : Table) : Event :=
  ⟨.debug, s!"{t.plan.name}: finalizing {t.finalGroups.length} groups"⟩

def finishingGroup : List Measure → List State → List Event
  | m :: ms, s :: ss => finishing m.aggregate s ++ finishingGroup ms ss
  | _, _ => []

/-- Rows are finished one after the other. -/
def finishingRows (t : Table) : List Event :=
  if t.isFinished then []
  else finalizing t :: t.finalGroups.flatMap fun g => finishingGroup t.plan.measures g.states

/-- A call's results are all finished before its column is stored, and no further call is
begun after a column that cannot be. -/
def finishingColumns (ms : List Measure) (states : List (List State)) : List Event :=
  match ms with
  | [] => []
  | m :: rest =>
      let own := Table.statesOf m.aggregate states
      finishingUntilFault m.aggregate own ++
        match Table.resultColumn m.aggregate own with
        | .ok _ => finishingColumns rest (states.map (·.tail))
        | .error _ => []

def finishingChunk (t : Table) : List Event :=
  if t.isFinished then []
  else
    finalizing t ::
      match Table.keyColumns t.plan.groupBy (t.finalGroups.map (·.key)) with
      | .ok _ => finishingColumns t.plan.measures (t.finalGroups.map (·.states))
      | .error _ => []

end Journal
end Rollup
