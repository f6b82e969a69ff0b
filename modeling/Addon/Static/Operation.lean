import Addon.Static.Refusal
import Addon.Value.Compare
import Addon.Value.Convert
import Addon.Value.Format
import Addon.Value.Subscript

/-!
# Operations of static expressions

What operators and calls do with values that are known already. Arithmetic is for integers and
doubles, booleans are neither. Lists, dicts and texts can be added, and lists and texts repeated.
-/

namespace Addon.Static

open Script

/-- Both values take part in arithmetic. -/
def operands? (v w : Value) : Option (Number.Operand × Number.Operand) := do
  return (← v.operand?, ← w.operand?)

/-- The sum of two values. -/
def sum (v w : Value) : Eval Value :=
  match v, w with
  | .list items, .list others => .ok (.list (items ++ others))
  | .dict fields, .dict others => .ok (.dict (Fields.merge fields others))
  | .str s, .str t => .ok (.str (s ++ t))
  | _, _ => match operands? v w with
    | some (a, b) => unguarded (a.add b)
    | none => refuse .sumOperands

/-- The product of two values. -/
def product (v w : Value) : Eval Value :=
  match operands? v w with
  | some (a, b) => unguarded (a.mul b)
  | none => match v, w with
    | .list items, .int n => do
      let items ← unguarded (Value.repeated .outOfMemory items n)
      return .list items
    | .str text, .int n => do
      let cs ← unguarded (Value.repeated .overflow text.toList n)
      return .str (String.ofList cs)
    | _, _ => refuse .productOperands

/-- Arithmetic in which a division by zero is a refusal. -/
def arithmetic (op : BinaryOp) (a b : Number.Operand) : Eval Value :=
  let checked := guarded [.zeroDivision] fun _ => .divisionByZero
  match op with
  | .sub => checked (a.sub b)
  | .div => checked (a.div b)
  | .floorDiv => checked (a.floorDiv b)
  | .mod => checked (a.mod b)
  | .pow => checked (a.pow b)
  | _ => refuse (.binaryOp op)

/-- A binary operator. -/
def binary (op : BinaryOp) (v w : Value) : Eval Value :=
  match op, v, w with
  | .add, _, _ => sum v w
  | .mult, _, _ => product v w
  | .bitOr, .dict fields, .dict others => .ok (.dict (Fields.merge fields others))
  | _, _, _ => match operands? v w with
    | some (a, b) => arithmetic op a b
    | none => refuse (.operands op)

/-- A unary operator. -/
def unary (op : UnaryOp) (v : Value) : Eval Value :=
  match op with
  | .not => .ok (.bool !v.isTruthy)
  | .plus => match v.operand? with
    | some _ => .ok v
    | none => refuse .signNoNumber
  | .minus => match v.operand? with
    | some a => .ok a.neg
    | none => refuse .signNoNumber
  | .invert => refuse (.unaryOp op)

/-- A comparison. -/
def compare (op : CompareOp) (v w : Value) : Eval Value :=
  let checked (r : Except Fault Bool) : Eval Value := do
    let b ← guarded [.type] .incomparable r
    return .bool b
  match op with
  | .eq => .ok (.bool (v.equal w))
  | .notEq => .ok (.bool !(v.equal w))
  | .lt => checked (Value.related .lt v w)
  | .ltE => checked (Value.related .le v w)
  | .gt => checked (Value.related .gt v w)
  | .gtE => checked (Value.related .ge v w)
  | .in => checked (v.isIn w)
  | .notIn => checked ((v.isIn w).map (!·))
  | .is | .isNot => refuse (.compareOp op)

/-- A part of a container. -/
def subscript (container index : Value) : Eval Value :=
  guarded [.key, .index, .type] .badSubscript (Value.subscript container index)

/-- The conversions that can be called. -/
inductive Conversion where
  | str | int | float | bool | len
deriving DecidableEq, Repr

def conversion? : String → Option Conversion
  | "str" => some .str
  | "int" => some .int
  | "float" => some .float
  | "bool" => some .bool
  | "len" => some .len
  | _ => none

/-- A conversion of a value. -/
def Conversion.apply (c : Conversion) (v : Value) : Except Fault Value :=
  match c with
  | .str => v.text.map .str
  | .int => v.asInt.map .int
  | .float => match v with
    | .nan _ => .ok v
    | _ => v.asFloat.map .float
  | .bool => .ok (.bool v.isTruthy)
  | .len => v.length.map fun n => .int n

/-- A row of integers. -/
def range (args : List Value) : Eval Value :=
  match args.map Value.toInt? with
  | [some stop] => unguarded (Value.range 0 stop 1)
  | [some start, some stop] => unguarded (Value.range start stop 1)
  | [some start, some stop, some step] => unguarded (Value.range start stop step)
  | _ => refuse .rangeArguments

/-- A call of a name. -/
def call (name : String) (args : List Value) : Eval Value :=
  match conversion? name with
  | some c => match args with
    | [v] => guarded [.type, .value] (.badArgument name) (c.apply v)
    | _ => refuse (.argumentCount name)
  | none => if name = "range" then range args else refuse (.unsupportedCall name)

/-- The text of a replacement field. With a format the conversion does not matter. -/
def fieldText (v : Value) (conversion : Option Script.Conversion) (spec : Option String) :
    Eval String :=
  match spec, conversion with
  | some spec, _ => unguarded (v.format spec)
  | none, some .repr => unguarded v.shown
  | none, _ => unguarded v.text

/-- The value of a constant. Ellipses, bytes and imaginary numbers have none. -/
def literal : Literal → Eval Value
  | .none => .ok .null
  | .bool b => .ok (.bool b)
  | .int n => .ok (.int n)
  | .float x => .ok (.float x)
  | .str text _ => .ok (.str text)
  | .ellipsis | .imaginary _ | .bytes _ => refuse .unsupportedConstant

end Addon.Static
