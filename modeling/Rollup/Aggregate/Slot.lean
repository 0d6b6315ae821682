import Rollup.Aggregate.State

/-
Running states as they are kept in memory.

A sum and the mark that something was added to it are two fields, which are written one
after the other.  An operation is a program over one slot, and what it has written stays
written if it fails later on.
-/

namespace Rollup

/-- A sum, and whether a value was ever added to it. -/
structure Running (α : Type) where
  sum : α
  marked : Bool

inductive Slot where
  | integer (running : Running (Signed 64))
  | double (running : Running Double)
  | decimal (running : Running (Signed 256))
  | extreme (value : Option Value)

/-- What an operation offers to a slot: a value of the argument, a result of an earlier
stage, or the state of another run. -/
inductive Offer (σ : Type) where
  | value (c : Cell)
  | partialResult (c : Cell)
  | state (other : σ)

namespace Slot

def hasValue : Slot → Bool
  | .integer r => r.marked
  | .double r => r.marked
  | .decimal r => r.marked
  | .extreme value => value.isSome

/-- The state that is kept.  A sum without its mark counts for nothing. -/
def state : Slot → State
  | .integer r => .integer (if r.marked then some r.sum else none)
  | .double r => .double (if r.marked then some r.sum else none)
  | .decimal r => .decimal (if r.marked then some r.sum else none)
  | .extreme value => .extreme value

/-- A program that may fail, over one slot that keeps what was written to it. -/
abbrev Program := ExceptT StateFault (StateM Slot) Unit

/-- The outcome of a program, and the slot afterwards. -/
def Program.outcome (x : Program) (s : Slot) : Except StateFault Unit × Slot := x.run.run s

/-! ## Sums -/

/-- Writes a sum and then its mark. -/
def write {α : Type} (put : Running α → Slot) (r : Running α) (sum : α) (marked : Bool) :
    Program := do
  set (put { r with sum := sum })
  set (put { sum := sum, marked := marked })

/-- Writes only if the word has room for the sum. -/
def addDecimal (r : Running (Signed 256)) (v : Signed 256) (marked : Bool) : Program :=
  match r.sum.add? v with
  | none => throw .decimalSum
  | some total => write .decimal r total marked

/-- Writes only if the text is a number. -/
def addText (r : Running Double) (text : String) : Program :=
  match Binary.ofText? text with
  | none => pure ()
  | some x => write .double r (r.sum.add x) true

def updateNormal (a : Aggregate) (v : Value) : Program := do
  match a, ← get, v with
  | .sumInteger _, .integer r, .integer i => write .integer r (r.sum.addWrap i) true
  | .sumFloat, .double r, .float x => write .double r (r.sum.add x.toDouble) true
  | .sumDouble, .double r, .double x => write .double r (r.sum.add x) true
  | .sumString, .double r, .string text => addText r text
  | .sumDecimal _ _, .decimal r, .decimal d => addDecimal r (Aggregate.wide d.unscaled) true
  | a, _, v => throw (.input a v)

def absorbNormal (a : Aggregate) (v : Value) : Program := do
  match a, ← get, v with
  | .sumInteger _, .integer r, .integer i => write .integer r (r.sum.addWrap i) true
  | .sumFloat, .double r, .double x => write .double r (r.sum.add x) true
  | .sumDouble, .double r, .double x => write .double r (r.sum.add x) true
  | .sumString, .double r, .double x => write .double r (r.sum.add x) true
  | .sumDecimal _ _, .decimal r, .decimal d => addDecimal r (Aggregate.wide d.unscaled) true
  | a, _, v => throw (.partialInput a v)

def mergeSum (a : Aggregate) (other : Slot) : Program := do
  match ← get, other with
  | .integer r, .integer o => write .integer r (r.sum.addWrap o.sum) (r.marked || o.marked)
  | .double r, .double o => write .double r (r.sum.add o.sum) (r.marked || o.marked)
  | .decimal r, .decimal o => addDecimal r o.sum (r.marked || o.marked)
  | _, other => throw (.foreign a other.state)

/-- Takes in a value, once it has the type that is expected. -/
def takeNormal (type : ColumnType) (v : Value) (take : Value → Program) : Program :=
  match type.normalize v with
  | .error e => throw (.value e)
  | .ok w => take w

/-! ## Extremes -/

def keepExtreme (side : Extreme) (held : Option Value) (v : Value) : Program :=
  match held with
  | none => set (Slot.extreme (some v))
  | some current =>
      match v.compare? current with
      | none => throw (.incomparable v current)
      | some o =>
          if o == Aggregate.Extreme.replaces side then set (Slot.extreme (some v)) else pure ()

def updateExtreme (side : Extreme) (type : ColumnType) (v : Value) : Program := do
  match ← get with
  | .extreme held => takeNormal type v (keepExtreme side held)
  | _ => throw (.notExtreme (.extreme side type))

end Slot

namespace Aggregate

/-- A sum starts at zero, without its mark. -/
def startSlot : Aggregate → Slot
  | .sumInteger _ => .integer ⟨.zero, false⟩
  | .sumFloat | .sumDouble | .sumString => .double ⟨.zero, false⟩
  | .sumDecimal _ _ => .decimal ⟨.zero, false⟩
  | .extreme _ _ => .extreme none

/-- What is done with an offer. -/
def program (a : Aggregate) : Offer Slot → Slot.Program
  | .value none | .partialResult none => pure ()
  | .value (some v) =>
      match a with
      | .extreme side type => Slot.updateExtreme side type v
      | a => Slot.takeNormal a.input v (Slot.updateNormal a)
  | .partialResult (some v) =>
      match a with
      | .extreme side type => Slot.updateExtreme side type v
      | a => Slot.takeNormal a.intermediate v (Slot.absorbNormal a)
  | .state other =>
      match a with
      | .extreme side type =>
          match other with
          | .extreme none => pure ()
          | .extreme (some v) => Slot.updateExtreme side type v
          | other => throw (.foreign (.extreme side type) other.state)
      | a => Slot.mergeSum a other

end Aggregate
end Rollup
