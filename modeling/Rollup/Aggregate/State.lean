import Rollup.Aggregate.Basic
import Rollup.Binary.Reading
import Rollup.Value.Normal
import Rollup.Value.Text

/-
Running states of aggregates.

A state is made for one aggregate but does not name it, so a caller can bring together a
state and a foreign aggregate; whatever does not fit is a fault and leaves no new state.
Missing values change nothing.
-/

namespace Rollup

/-- A sum without a value stands for nothing added yet. -/
inductive State where
  | integer (sum : Option (Signed 64))
  | double (sum : Option Double)
  | decimal (sum : Option (Signed 256))
  | extreme (value : Option Value)

namespace State

def hasValue : State → Bool
  | .integer sum => sum.isSome
  | .double sum => sum.isSome
  | .decimal sum => sum.isSome
  | .extreme value => value.isSome

def diagnoseSum (name sum : String) (hasValue : Bool) : String :=
  name ++ "(" ++ name ++ "State \x7b sum: " ++ sum ++ ", has_value: " ++
    (if hasValue then "true" else "false") ++ " \x7d)"

def diagnose : State → String
  | .integer sum => diagnoseSum "SumInt" s!"{(sum.getD .zero).toInt}" sum.isSome
  | .double sum => diagnoseSum "SumFloat" ((sum.getD .zero).render .diagnostic) sum.isSome
  | .decimal sum => diagnoseSum "SumDecimal" s!"{(sum.getD .zero).toInt}" sum.isSome
  | .extreme none => "Extreme(ExtremeState \x7b value: None \x7d)"
  | .extreme (some v) => "Extreme(ExtremeState \x7b value: Some(" ++ v.diagnose ++ ") \x7d)"

end State

inductive StateFault where
  | value (fault : ValueFault)
  | input (a : Aggregate) (got : Value)
  | partialInput (a : Aggregate) (got : Value)
  | foreign (a : Aggregate) (state : State)
  | notExtreme (a : Aggregate)
  | incomparable (left right : Value)
  | decimalSum
  | outputNotDecimal

def StateFault.message : StateFault → String
  | .value fault => fault.message
  | .input a got => "sum input type mismatch: kind " ++ a.kind ++ " got " ++ got.typeName
  | .partialInput a got =>
      "sum merge input type mismatch: kind " ++ a.kind ++ " got " ++ got.typeName
  | .foreign a state =>
      "aggregate state mismatch: kind " ++ a.kind ++ " cannot use state " ++ state.diagnose
  | .notExtreme a => "aggregate state mismatch: kind " ++ a.kind ++ " expects an extreme state"
  | .incomparable left right =>
      "scalar comparison type mismatch: " ++ left.typeName ++ " vs " ++ right.typeName
  | .decimalSum => "decimal sum overflow"
  | .outputNotDecimal => "sum decimal output type mismatch"

namespace Aggregate

def start : Aggregate → State
  | .sumInteger _ => .integer none
  | .sumFloat | .sumDouble | .sumString => .double none
  | .sumDecimal _ _ => .decimal none
  | .extreme _ _ => .extreme none

/-! ## Sums -/

/-- Integer sums keep the low 64 bits. -/
def addInteger (sum : Option (Signed 64)) (i : Signed 64) : State :=
  .integer (some ((sum.getD .zero).addWrap i))

def addDouble (sum : Option Double) (x : Double) : State :=
  .double (some ((sum.getD .zero).add x))

def addDecimal (sum : Option (Signed 256)) (v : Signed 256) : Except StateFault State :=
  match (sum.getD .zero).add? v with
  | some total => .ok (.decimal (some total))
  | none => .error .decimalSum

def wide (v : Signed 128) : Signed 256 := v.widen 256 (by decide)

/-! ## Extremes -/

/-- The answer to comparing a value with the one held that makes it take its place. -/
def Extreme.replaces : Extreme → Ordering
  | .min => .lt
  | .max => .gt

/-- Of equal values the first stays. -/
def keepExtreme (side : Extreme) (held : Option Value) (v : Value) : Except StateFault State :=
  match held with
  | none => .ok (.extreme (some v))
  | some current =>
      match v.compare? current with
      | none => .error (.incomparable v current)
      | some o => .ok (.extreme (some (if o == Extreme.replaces side then v else current)))

def updateExtreme (side : Extreme) (type : ColumnType) (s : State) (v : Value) :
    Except StateFault State :=
  match s with
  | .extreme held =>
      match type.normalize v with
      | .error e => .error (.value e)
      | .ok w => keepExtreme side held w
  | _ => .error (.notExtreme (.extreme side type))

/-! ## Operations -/

/-- Takes in a value that has the argument's type.  A string that is no number is passed
over. -/
def updateNormal (a : Aggregate) (s : State) (v : Value) : Except StateFault State :=
  match a, s, v with
  | .sumInteger _, .integer sum, .integer i => .ok (addInteger sum i)
  | .sumFloat, .double sum, .float x => .ok (addDouble sum x.toDouble)
  | .sumDouble, .double sum, .double x => .ok (addDouble sum x)
  | .sumString, .double sum, .string text =>
      match Binary.ofText? text with
      | some x => .ok (addDouble sum x)
      | none => .ok (.double sum)
  | .sumDecimal _ _, .decimal sum, .decimal d => addDecimal sum (wide d.unscaled)
  | a, _, v => .error (.input a v)

/-- Takes in one argument value. -/
def updateValue (a : Aggregate) (s : State) (v : Value) : Except StateFault State :=
  match a with
  | .extreme side type => updateExtreme side type s v
  | a =>
      match a.input.normalize v with
      | .error e => .error (.value e)
      | .ok w => updateNormal a s w

def absorbNormal (a : Aggregate) (s : State) (v : Value) : Except StateFault State :=
  match a, s, v with
  | .sumInteger _, .integer sum, .integer i => .ok (addInteger sum i)
  | .sumFloat, .double sum, .double x => .ok (addDouble sum x)
  | .sumDouble, .double sum, .double x => .ok (addDouble sum x)
  | .sumString, .double sum, .double x => .ok (addDouble sum x)
  | .sumDecimal _ _, .decimal sum, .decimal d => addDecimal sum (wide d.unscaled)
  | a, _, v => .error (.partialInput a v)

/-- Takes in a partial result of an earlier stage. -/
def absorbValue (a : Aggregate) (s : State) (v : Value) : Except StateFault State :=
  match a with
  | .extreme side type => updateExtreme side type s v
  | a =>
      match a.intermediate.normalize v with
      | .error e => .error (.value e)
      | .ok w => absorbNormal a s w

def update (a : Aggregate) (s : State) : Cell → Except StateFault State
  | none => .ok s
  | some v => a.updateValue s v

def absorb (a : Aggregate) (s : State) : Cell → Except StateFault State
  | none => .ok s
  | some v => a.absorbValue s v

/-- Two sums of which either may be missing; the sum of two missing ones is missing. -/
def combine {α : Type} (zero : α) (add : α → α → α) : Option α → Option α → Option α
  | none, none => none
  | x, y => some (add (x.getD zero) (y.getD zero))

def mergeSum (a : Aggregate) (s other : State) : Except StateFault State :=
  match s, other with
  | .integer x, .integer y => .ok (.integer (combine .zero .addWrap x y))
  | .double x, .double y => .ok (.double (combine .zero .add x y))
  | .decimal x, .decimal y =>
      match (x.getD .zero).add? (y.getD .zero) with
      | some total => .ok (.decimal (if x.isSome || y.isSome then some total else none))
      | none => .error .decimalSum
  | _, other => .error (.foreign a other)

/-- Takes in the state of another run of the same aggregate. -/
def merge (a : Aggregate) (s other : State) : Except StateFault State :=
  match a with
  | .extreme side type =>
      match other with
      | .extreme none => .ok s
      | .extreme (some v) => updateExtreme side type s v
      | other => .error (.foreign a other)
  | a => mergeSum a s other

/-- The sum as a decimal of the given type, if its digits are few enough. -/
def fitDecimal? (precision : Nat) (scale : Int) (sum : Signed 256) : Option Decimal :=
  if sum.toInt.natAbs < Text.tenPow precision then
    (Signed.ofInt? sum.toInt).map fun v => ⟨v, precision, scale⟩
  else none

/-- The result of a state.  A decimal sum too large for the result type is missing. -/
def finish (a : Aggregate) (s : State) : Except StateFault Cell :=
  match a, s with
  | .extreme _ _, .extreme value => .ok value
  | .extreme side type, s => .error (.foreign (.extreme side type) s)
  | _, .integer sum => .ok (sum.map .integer)
  | _, .double sum => .ok (sum.map .double)
  | _, .decimal none => .ok none
  | a, .decimal (some sum) =>
      match a.output with
      | .decimal p s => .ok ((fitDecimal? p s sum).map .decimal)
      | _ => .error .outputNotDecimal
  | a, s => .error (.foreign a s)

end Aggregate
end Rollup
