import Rollup.Proofs.Plan
import Rollup.Proofs.Table.Intake
import Rollup.Proofs.Table.Report

/-
The results of one table over the rows of a run, in terms of the node and of what it was fed.
-/

namespace Rollup

namespace Node

variable (n : Node) (rows : List Row)

/-- Without group columns there is one group, rows or not. -/
def resultKeys : List (List Cell) := if n.groupBy.isEmpty then [[]] else firstKeys rows

/-- A result row for one key: the key, then for every call what its aggregate answers for
the cells that the rows with this key bring for the call. -/
def Reports (key row : List Cell) : Prop :=
  ∃ cells, row = key ++ cells ∧ cells.length = n.calls.length ∧
    ∀ (i : Nat) (call : Call) (c : Cell), n.calls[i]? = some call → cells[i]? = some c →
      ∃ a, Aggregate.classify call.function call.argument = .ok a ∧
        Aggregate.Answers a (a.addends (columnOf (rowsWith key rows) i)) c

end Node

namespace Orders

/-- Orders by customer: how many pieces in all, and the highest price. -/
def node : Node where
  id := 1
  groupBy := [⟨0, .string, none⟩]
  calls := [{ function := "sum", argument := .integer .int, column := 1 },
    { function := " MAX", argument := .decimal 5 2, column := 2 }]

def customer (name : String) : Cell := some (.string name)

def pieces (n : Int) : Cell := some (.integer (.wrap n))

def price (cents : Int) : Cell := some (.decimal ⟨.wrap cents, 5, 2⟩)

def first : Feed := .row ⟨[customer "ada"], [pieces 3, price 500]⟩

def second : Feed := .row ⟨[none], [pieces 4, none]⟩

/-- A row, two rows of which one has no customer, an input, and a chunk whose columns are
narrower than the declared types. -/
def feeds : List Feed :=
  [.row ⟨[customer "ada"], [pieces 3, price 500]⟩,
    .rows [⟨[none], [pieces 4, none]⟩, ⟨[customer "ada"], [none, price 750]⟩],
    .input [customer "bob", pieces 1, price 20],
    .chunk ⟨1, [⟨.utf8, [some "bob"]⟩, ⟨.int .small, [some (.wrap 2)]⟩,
      ⟨.decimal128 4 1, [some (.wrap 7)]⟩]⟩]

end Orders

end Rollup
