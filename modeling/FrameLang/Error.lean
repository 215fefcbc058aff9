/-
What can go wrong, and how it is said.

An error is a cause.  Its wording is in `Error.message` and nowhere else.
-/
import FrameLang.Calendar.Written
import FrameLang.Double.Decimal
import FrameLang.Expr.Written
import FrameLang.Syntax.Error

namespace FrameLang

/-- What was attempted on values that do not allow it. -/
inductive Operation
  | unary (op : UnaryOp)
  | binary (op : BinaryOp)
  /-- Finding the order of two sort keys. -/
  | compare
deriving DecidableEq

def Operation.symbol : Operation → String
  | unary op => op.symbol
  | binary op => op.symbol
  | compare => "compare"

/-- Why a conversion between values failed. -/
inductive ConversionError
  /-- A text that is no whole number, or a whole number out of the range wanted. -/
  | long (e : Long.ReadError)
  | double (e : Double.ReadError)
  | date (e : DateReadError)
  | dateTimeText
  | dateParts
  | dateTimeParts
  /-- A stretch of text that ends before it begins. -/
  | reversed (first last : Nat)
deriving DecidableEq

def ConversionError.message : ConversionError → String
  | long e => e.message
  | double e => e.message
  | date e => e.message
  | dateTimeText => "not an ISO date-time"
  | dateParts => "invalid date"
  | dateTimeParts => "invalid date-time"
  | reversed first last =>
    String.join ["begin index ", toString first, " is after end index ", toString last]

/-- What is wrong with the types of an expression. -/
inductive TypeProblem
  | branches
  | operands
  | undefinedVariable
  | condition
  | unknownFunction
  | argumentCount
  | argumentTypes
  | recursion
  | unknownDataSet
  | unknownProperty
deriving DecidableEq

def TypeProblem.description : TypeProblem → String
  | branches => "Incompatible types in branches of if-else"
  | operands => "Incompatible operand types in expression"
  | undefinedVariable => "Undefined variable"
  | condition => "Condition type is not boolean"
  | unknownFunction => "Unknown function"
  | argumentCount => "Invalid number of parameters"
  | argumentTypes => "Invalid parameter types"
  | recursion => "Recursive function calls are not supported"
  | unknownDataSet => "Unknown data set"
  | unknownProperty => "Unknown property"

structure TypeIssue where
  problem : TypeProblem
  /-- The smallest expression that has the problem. -/
  expression : Expr

/-- Why a data frame refuses a column, a row or a request. -/
inductive FrameError
  | columnExists (column frame : String)
  | columnAfterRows (column frame : String)
  | unsupportedType (type : ValueType)
  | undeterminedType (column source : String)
  | rowWidth (given : Nat) (frame : String) (expected : Nat)
  | misfit (value column : String) (type : ValueType)
  | noColumn (column frame : String)
  | noSortColumn (frame column : String)
deriving DecidableEq

def FrameError.message : FrameError → String
  | columnExists column frame =>
    String.join ["Column '", column, "' already exists in data frame '", frame, "'"]
  | columnAfterRows column frame =>
    String.join ["Cannot add column '", column, "' to data frame '", frame,
      "' which already has rows"]
  | unsupportedType type => String.join ["Columns of type ", type.name, " are not supported"]
  | undeterminedType column source =>
    String.join ["Cannot determine the type of computed column '", column, "' from '", source, "'"]
  | rowWidth given frame expected =>
    String.join ["Row has ", toString given, " values but data frame '", frame, "' has ",
      toString expected, " stored columns"]
  | misfit value column type =>
    String.join ["Value ", value, " does not fit column '", column, "' of type ", type.name]
  | noColumn column frame =>
    String.join ["Column '", column, "' does not exist in data frame '", frame, "'"]
  | noSortColumn frame column =>
    String.join ["Cannot sort data frame '", frame, "' by unknown column '", column, "'"]

/-- Failures of evaluation that no value is to blame for. -/
inductive EvaluationError
  | unknownDataSet (name : String)
  | pathOutsideProjection (path : String)
  | noDataSet
  /-- A host function's own failure. -/
  | host (text : String)
deriving DecidableEq

def EvaluationError.message : EvaluationError → String
  | unknownDataSet name => String.join ["Unknown data set '", name, "'"]
  | pathOutsideProjection path =>
    String.join ["Property path '", path, "' outside of a projection"]
  | noDataSet => "Projection does not reference a data set"
  | host text => text

inductive Error
  | unsupported (operation : Operation) (operand : String)
  | incompatible (operation : Operation) (left right : String)
  | divisionByZero
  | undefinedVariable (name : String)
  | unknownFunction (name : String)
  | argumentCount (function usage : String)
  | argumentType (function : String) (expected actual : ValueType)
  | typeMismatch (expected actual : ValueType)
  /-- A position that does not exist, as a long: a number beyond the longs wraps around. -/
  | outOfBounds (index : Long) (size : Nat)
  | conversion (function input : String) (cause : ConversionError)
  | illTyped (issue : TypeIssue)
  | malformed (cause : SyntaxError)
  | configuration (cause : FrameError)
  | evaluation (cause : EvaluationError)

def Error.message : Error → String
  | unsupported operation operand =>
    String.join ["Undefined operation ", operation.symbol, " on ", operand]
  | incompatible operation left right =>
    String.join ["Incompatible types in ", operation.symbol, ": ", left, " and ", right]
  | divisionByZero => "Division by zero"
  | undefinedVariable name => String.join ["Undefined variable: ", name]
  | unknownFunction name => String.join ["Unknown function: ", name]
  | argumentCount function usage =>
    String.join ["Invalid number of parameters in a call to '", function, "'. ", usage]
  | argumentType function expected actual =>
    String.join ["Invalid parameter type in a call to '", function, "': expected ", expected.name,
      ", got ", actual.name]
  | typeMismatch expected actual =>
    String.join ["Type mismatch: expected ", expected.name, ", got ", actual.name]
  | outOfBounds index size =>
    String.join ["Index ", index.toText, " is out of bounds for size ", toString size]
  | conversion function input cause =>
    String.join ["Cannot convert '", input, "' in '", function, "': ", cause.message]
  | illTyped issue => String.join [issue.problem.description, ": ", issue.expression.toText]
  | malformed cause => String.join ["Parse error: ", cause.message]
  | configuration cause => String.join ["Configuration error: ", cause.message]
  | evaluation cause => String.join ["Evaluation error: ", cause.message]

end FrameLang
