import Mathlib.Data.List.Forall2
import Rollup.Table.Key
import Rollup.Table.Result

/-
A table as it is kept in memory: keys and states in parallel lists, an index from keys to
places, and a phase.

Every operation changes the ledger in place, so its outcome is a result together with what
the ledger is afterwards.  That holds for a failure too, which may come when some states
have been changed already.
-/

namespace Rollup

inductive Phase where
  | idle
  | accumulating
  | finished
deriving DecidableEq

structure Ledger where
  plan : Plan
  phase : Phase
  index : Std.HashMap GroupKey Nat
  keys : List GroupKey
  states : List (List State)

/-- Items for the group of one key: a cell or a state for each call. -/
structure Entry (ι : Type) where
  key : GroupKey
  items : List ι

def Row.entry (r : Row) : Entry Cell := ⟨⟨r.key⟩, r.values⟩

def Group.entry (g : Group) : Entry State := ⟨⟨g.key⟩, g.states⟩

namespace Ledger

def ofPlan (p : Plan) : Ledger := ⟨p, .idle, ∅, [], []⟩

/-! ## Taking in -/

/-- A new group, which comes last and has fresh states. -/
def add (l : Ledger) (key : GroupKey) : Ledger :=
  { l with
    index := l.index.insert key l.keys.length
    keys := l.keys ++ [key]
    states := l.states ++ [l.plan.start] }

/-- The place of the group with the given key, which is made if it is not there yet. -/
def place (l : Ledger) (key : GroupKey) : Nat × Ledger :=
  match l.index[key]? with
  | some i => (i, l)
  | none => (l.keys.length, l.add key)

def setStates (l : Ledger) (i : Nat) (states : List State) : Ledger :=
  { l with states := l.states.set i states }

/-- What a state does with one item: the cell of a row, or the state of another run. -/
abbrev Step (ι : Type) := Measure → State → ι → Except StateFault State

def takeCell : Step Cell := fun m s c =>
  if m.call.ofPartials then m.aggregate.absorb s c else m.aggregate.update s c

def takeState : Step State := fun m s other => m.aggregate.merge s other

/-- Changes the states of a group one after another, up to the first failure. -/
def advance {ι : Type} (step : Step ι) :
    List Measure → List State → List ι → Except StateFault Unit × List State
  | m :: ms, s :: ss, x :: xs =>
      match step m s x with
      | .error e => (.error e, s :: ss)
      | .ok t =>
          let rest := advance step ms ss xs
          (rest.1, t :: rest.2)
  | _, ss, _ => (.ok (), ss)

def takeEntry {ι : Type} (step : Step ι) (l : Ledger) (e : Entry ι) :
    Except StateFault Unit × Ledger :=
  let found := l.place e.key
  let result := advance step l.plan.measures (found.2.states.getD found.1 []) e.items
  (result.1, found.2.setStates found.1 result.2)

def takeEntries {ι : Type} (step : Step ι) (l : Ledger) :
    List (Entry ι) → Except StateFault Unit × Ledger
  | [] => (.ok (), l)
  | e :: rest =>
      match l.takeEntry step e with
      | (.error fault, l) => (.error fault, l)
      | (.ok (), l) => l.takeEntries step rest

/-- Groups exist from now on. -/
def accumulating (l : Ledger) : Ledger := { l with phase := .accumulating }

def accumulate {ι : Type} (step : Step ι) (l : Ledger) (entries : List (Entry ι)) :
    Except TableFault Unit × Ledger :=
  let result := l.accumulating.takeEntries step entries
  (result.1.mapError .state, result.2)

/-! ## Operations -/

/-- Takes in rows that have been checked, if they all passed. -/
def update (l : Ledger) (checked : Except TableFault (List Row)) :
    Except TableFault Unit × Ledger :=
  if l.phase = .finished then (.error .updateFinished, l)
  else
    match checked with
    | .error e => (.error e, l)
    | .ok rows => l.accumulate takeCell (rows.map Row.entry)

def updateRow (l : Ledger) (r : Row) : Except TableFault Unit × Ledger :=
  l.update ((l.plan.prepare r).map fun r => [r])

def updateRows (l : Ledger) (rows : List Row) : Except TableFault Unit × Ledger :=
  l.update (rows.mapM l.plan.prepare)

/-- Takes in a row that holds all columns of the input. -/
def updateInputRow (l : Ledger) (input : List Cell) : Except TableFault Unit × Ledger :=
  match l.plan.rowOf input with
  | .error e => (.error e, l)
  | .ok r => l.updateRow r

def updateChunk (l : Ledger) (c : Chunk) : Except TableFault Unit × Ledger :=
  l.update (l.plan.chunkRows c)

def groups (l : Ledger) : List Group :=
  (l.keys.zip l.states).map fun pair => ⟨pair.1.cells, pair.2⟩

/-- Takes in the groups of another ledger of the same aggregation. -/
def merge (l other : Ledger) : Except TableFault Unit × Ledger :=
  if other.phase = .finished then (.error .finishedPartial, l)
  else if !Table.sameAggregation l.plan other.plan then
    (.error (.differentPartial other.plan.name), l)
  else if l.phase = .finished then (.error .mergeFinished, l)
  else l.accumulate takeState (other.groups.map Group.entry)

/-! ## Results -/

/-- The table that is kept. -/
def table (l : Ledger) : Table where
  plan := l.plan
  stage :=
    match l.phase with
    | .idle => .idle
    | .accumulating => .accumulating l.groups
    | .finished => .finished

/-- What is left when the groups have been handed out. -/
def emptied (l : Ledger) : Ledger :=
  { l with phase := .finished, index := ∅, keys := [], states := [] }

/-- One row for each group.  The ledger is finished afterwards, whatever the outcome. -/
def finish (l : Ledger) : Except TableFault (List (List Cell)) × Ledger :=
  if l.phase = .finished then (.error .alreadyFinished, l) else (l.table.rows, l.emptied)

def finishChunk (l : Ledger) : Except TableFault Chunk × Ledger :=
  if l.phase = .finished then (.error .alreadyFinished, l) else (l.table.chunk, l.emptied)

end Ledger
end Rollup
