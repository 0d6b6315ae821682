import Rollup.Aggregate.State
import Rollup.Column.Basic

/-
One aggregate with its running state, and the columns that states finish into.
-/

namespace Rollup

namespace Aggregate

/-- The type that values for an aggregate have: that of its argument, or that of the partial
results where those of an earlier stage come in. -/
def expects (a : Aggregate) (ofPartials : Bool) : ColumnType :=
  if ofPartials then a.intermediate else a.input

@[simp] theorem expects_true (a : Aggregate) : a.expects true = a.output :=
  a.intermediate_eq_output

end Aggregate

structure ArgumentFault where
  aggregate : Aggregate
  fault : ValueFault

def ArgumentFault.message (e : ArgumentFault) : String :=
  e.aggregate.name ++ ": " ++ e.fault.message

namespace Aggregate

def normalize (a : Aggregate) (ofPartials : Bool) (c : Cell) : Except ArgumentFault Cell :=
  match (a.expects ofPartials).normalizeCell c with
  | .ok w => .ok w
  | .error e => .error ⟨a, e⟩

end Aggregate

/-! ## Accumulators -/

structure Accumulator where
  aggregate : Aggregate
  state : State

inductive AccumulatorFault where
  | state (fault : StateFault)
  | different (own other : Aggregate)

def AccumulatorFault.message : AccumulatorFault → String
  | .state fault => fault.message
  | .different own other =>
      "cannot merge " ++ own.name ++ " accumulator over " ++ own.input.render ++ " with " ++
        other.name ++ " accumulator over " ++ other.input.render

namespace Accumulator

def start (a : Aggregate) : Accumulator := ⟨a, a.start⟩

def holding (acc : Accumulator) : Except StateFault State → Except AccumulatorFault Accumulator
  | .ok s => .ok { acc with state := s }
  | .error e => .error (.state e)

def update (acc : Accumulator) (c : Cell) : Except AccumulatorFault Accumulator :=
  acc.holding (acc.aggregate.update acc.state c)

def absorb (acc : Accumulator) (c : Cell) : Except AccumulatorFault Accumulator :=
  acc.holding (acc.aggregate.absorb acc.state c)

/-- Takes in another run of the same aggregate. -/
def merge (acc other : Accumulator) : Except AccumulatorFault Accumulator :=
  if acc.aggregate = other.aggregate then
    acc.holding (acc.aggregate.merge acc.state other.state)
  else .error (.different acc.aggregate other.aggregate)

def finish (acc : Accumulator) : Except StateFault Cell := acc.aggregate.finish acc.state

end Accumulator

/-! ## Columns of results -/

inductive ResultFault where
  | state (fault : StateFault)
  | build (fault : BuildFault)

def ResultFault.message : ResultFault → String
  | .state fault => fault.message
  | .build fault => fault.message

namespace Aggregate

/-- The column of the results of `states`; all are finished before any is stored. -/
def column (a : Aggregate) (states : List State) : Except ResultFault Column :=
  match states.mapM a.finish with
  | .error e => .error (.state e)
  | .ok cells =>
      match Column.ofCells a.output cells with
      | .error e => .error (.build e)
      | .ok c => .ok c

end Aggregate
end Rollup
