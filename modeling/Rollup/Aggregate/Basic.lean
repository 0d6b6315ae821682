import Rollup.Column.Type
import Rollup.Text.Blank

/-
The aggregate functions and their classification.

A function name and the declared type of the argument decide at once whether an aggregate
exists and which types go with it.
-/

namespace Rollup

inductive Extreme where
  | min
  | max
deriving DecidableEq

def Extreme.name : Extreme → String
  | .min => "min"
  | .max => "max"

inductive Aggregate where
  | sumInteger (width : IntWidth)
  | sumFloat
  | sumDouble
  | sumString
  | sumDecimal (precision : Nat) (scale : Int)
  | extreme (side : Extreme) (type : ColumnType)
deriving DecidableEq

/-- The types of an aggregate's arguments, of its results, and of the partial results that
one stage hands to the next. -/
structure Signature where
  input : ColumnType
  output : ColumnType
  intermediate : ColumnType

namespace Signature

/-- Sums are handed on as results. -/
def sum (input output : ColumnType) : Signature where
  input := input
  output := output
  intermediate := output

/-- Extremes are handed on as arguments. -/
def extreme (type : ColumnType) : Signature where
  input := type
  output := type
  intermediate := type

end Signature

namespace Aggregate

def name : Aggregate → String
  | .extreme side _ => side.name
  | _ => "sum"

/-- The way of computing; both binary formats are summed alike. -/
def kind : Aggregate → String
  | .sumInteger _ => "SumInt"
  | .sumFloat | .sumDouble => "SumFloat"
  | .sumString => "SumString"
  | .sumDecimal _ _ => "SumDecimal"
  | .extreme .min _ => "Min"
  | .extreme .max _ => "Max"

/-- A sum of decimals has ten more digits than they have, if a decimal can have as many. -/
def signature : Aggregate → Signature
  | .sumInteger width => .sum (.integer width) (.integer .big)
  | .sumFloat => .sum .float .double
  | .sumDouble => .sum .double .double
  | .sumString => .sum .string .double
  | .sumDecimal p s => .sum (.decimal p s) (.decimal (min (p + 10) 38) s)
  | .extreme _ type => .extreme type

def input (a : Aggregate) : ColumnType := a.signature.input

def output (a : Aggregate) : ColumnType := a.signature.output

def intermediate (a : Aggregate) : ColumnType := a.signature.intermediate

@[simp] theorem intermediate_eq_output (a : Aggregate) : a.intermediate = a.output := by
  cases a <;> rfl

/-! ## Classification -/

def sumOf? : ColumnType → Option Aggregate
  | .integer width => some (.sumInteger width)
  | .float => some .sumFloat
  | .double => some .sumDouble
  | .string => some .sumString
  | .decimal p s => some (.sumDecimal p s)
  | _ => none

end Aggregate

/-- What is wrong with a call. -/
inductive ErrorKind where
  | unsupportedAggregateType
  | unsupportedComparison
  | unsupportedFunction
  | internal
deriving DecidableEq

inductive PlanFault where
  | type (fault : TypeFault)
  | function (name : String)
  | sum (type : ColumnType)
  | extreme (side : Extreme) (type : ColumnType)
  | comparison

namespace PlanFault

def message : PlanFault → String
  | .type fault => fault.message
  | .function f => "unsupported native hive aggregate function: " ++ f
  | .sum t =>
      "Native hive sum aggregate function does not support type: " ++ t.render ++
        ". Please set option 'table.exec.hive.native-agg-function.enabled' to false."
  | .extreme side t =>
      "Hive native " ++ side.name ++ " aggregate function does not support type: '" ++
        t.root ++ "' now. Please re-check the data type."
  | .comparison =>
      "Cannot support comparison of map<> type or complex type containing map<>."

def kind : PlanFault → ErrorKind
  | .type _ => .internal
  | .function _ => .unsupportedFunction
  | .sum _ | .extreme _ _ => .unsupportedAggregateType
  | .comparison => .unsupportedComparison

/-- Whether the plan asks for something that does not exist, as opposed to a type that no
plan should contain. -/
def isRejection (e : PlanFault) : Bool := e.kind ≠ .internal

end PlanFault

namespace Aggregate

/-- Maps have no order, and neither has anything that contains one. -/
def classifyExtreme (side : Extreme) (type : ColumnType) : Except PlanFault Aggregate :=
  if type.containsMap then .error .comparison
  else if type.isComplex then .error (.extreme side type)
  else .ok (.extreme side type)

def classifySum (type : ColumnType) : Except PlanFault Aggregate :=
  match sumOf? type with
  | some a => .ok a
  | none => .error (.sum type)

def canonicalName (name : String) : String := Text.lowercase (Text.trim name)

/-- Names are matched without regard to case and to blanks around them. -/
def classify (name : String) (type : ColumnType) : Except PlanFault Aggregate :=
  match type.check with
  | .error e => .error (.type e)
  | .ok () =>
      let function := canonicalName name
      if function == "sum" then classifySum type
      else if function == "min" then classifyExtreme .min type
      else if function == "max" then classifyExtreme .max type
      else .error (.function function)

end Aggregate
end Rollup
