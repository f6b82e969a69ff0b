import Addon.Script.Tree
import Addon.Value.Fault

/-!
# Refusals

Why an expression has no static value. Some faults of operations on values are taken for refusals,
because the expression is to blame; others pass through as they are.
-/

namespace Addon.Static

open Script

/-- Why an expression is refused. -/
inductive Refusal where
  | unsupportedConstant
  | unknownName (name : String)
  | unpackedNoDict
  | keyNoText
  | fieldNoPart
  | signNoNumber
  | unaryOp (op : UnaryOp)
  | sumOperands
  | productOperands
  | operands (op : BinaryOp)
  | divisionByZero
  | binaryOp (op : BinaryOp)
  | chainedComparison
  | incomparable (f : Fault)
  | compareOp (op : CompareOp)
  | badSubscript (f : Fault)
  | noConversion
  | argumentCount (name : String)
  | badArgument (name : String) (f : Fault)
  | rangeArguments
  | unsupportedCall (name : String)
  | unsupported (form : String)
deriving DecidableEq, Repr

def Refusal.message : Refusal → String
  | .unsupportedConstant => "Unsupported constant value in static expression."
  | .unknownName name => s!"Unknown name '{name}' in static expression."
  | .unpackedNoDict => "Only dicts can be unpacked in static expressions."
  | .keyNoText => "Dict keys in static expressions must be strings."
  | .fieldNoPart => "Unsupported f-string component in static expression."
  | .signNoNumber => "Unary sign expects an int or float operand."
  | .unaryOp op => s!"Unsupported unary operator in static expression: {op.formName}"
  | .sumOperands => "Unsupported '+' operands in static expression."
  | .productOperands => "Unsupported '*' operands in static expression."
  | .operands op => s!"Operator {op.formName} expects int/float operands."
  | .divisionByZero => "Division by zero in static expression."
  | .binaryOp op => s!"Unsupported binary operator in static expression: {op.formName}"
  | .chainedComparison => "Chained comparisons are not supported in static expressions."
  | .incomparable f => s!"Incomparable operands in static expression: {f.message}"
  | .compareOp op => s!"Unsupported comparison operator in static expression: {op.formName}"
  | .badSubscript f => s!"Invalid subscript in static expression: {f.message}"
  | .noConversion => "Only builtin conversions can be called in static expressions."
  | .argumentCount name => s!"{name}(...) expects exactly one argument."
  | .badArgument name f => s!"Invalid {name}(...) argument: {f.message}"
  | .rangeArguments => "range(...) expects 1 to 3 int arguments."
  | .unsupportedCall name => s!"Unsupported builtin call '{name}(...)' in static expression."
  | .unsupported form => s!"Unsupported static expression: {form}"

/-- Why an evaluation has no result. -/
inductive EvalError where
  /-- The expression is refused. -/
  | refused (r : Refusal)
  /-- An operation failed in a way that nobody expects. -/
  | fault (f : Fault)
deriving DecidableEq, Repr

/-- An evaluation. -/
abbrev Eval (α : Type) := Except EvalError α

/-- Refuses an expression. -/
def refuse {α : Type} (r : Refusal) : Eval α :=
  .error (.refused r)

/-- The result of an operation on values. Faults of the kinds in `caught` become refusals. -/
def guarded {α : Type} (caught : List FaultKind) (blame : Fault → Refusal) :
    Except Fault α → Eval α
  | .ok a => .ok a
  | .error f => if caught.contains f.kind then refuse (blame f) else .error (.fault f)

/-- The result of an operation on values whose faults are not expected. -/
def unguarded {α : Type} (r : Except Fault α) : Eval α :=
  guarded [] (fun _ => .unsupportedConstant) r

end Addon.Static
