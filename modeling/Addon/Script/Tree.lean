/-!
# Script trees

The tree of a parsed script. Every expression carries its extent, the half-open region of the
source it was read from: lines count from one and columns are UTF-8 byte offsets from zero.
Statements carry theirs as well, while the small parts of a tree (keywords, comprehension
clauses, patterns) do not.

Parentheses leave no trace in a tree except in the extents: the extent of `(a)` is that of `a`, and
that of `(a) + b` starts at the parenthesis.
-/

namespace Addon.Script

/-- A place in a source text: a line, counted from one, and a byte offset into that line. -/
structure Position where
  line : Nat
  column : Nat
deriving DecidableEq, Repr, Inhabited

/-- A half-open region of a source text. -/
structure Extent where
  start : Position
  stop : Position
deriving DecidableEq, Repr, Inhabited

/-- The constants that can be written down. A string remembers whether it was marked with `u`. -/
inductive Literal where
  | none
  | bool (b : Bool)
  | ellipsis
  | int (n : Nat)
  | float (x : Float)
  | imaginary (x : Float)
  | str (text : String) (marked : Bool)
  | bytes (data : List UInt8)
deriving DecidableEq

inductive BoolOp where
  | and
  | or
deriving DecidableEq, Repr

inductive BinaryOp where
  | add | sub | mult | matMult | div | mod | pow | lShift | rShift | bitOr | bitXor | bitAnd
  | floorDiv
deriving DecidableEq, Repr

inductive UnaryOp where
  | invert | not | plus | minus
deriving DecidableEq, Repr

inductive CompareOp where
  | eq | notEq | lt | ltE | gt | gtE | is | isNot | in | notIn
deriving DecidableEq, Repr

/-- How a replacement field turns its value into text before formatting. -/
inductive Conversion where
  | str | repr | ascii
deriving DecidableEq, Repr

mutual

inductive Expr where
  | boolOp (extent : Extent) (op : BoolOp) (values : List Expr)
  | named (extent : Extent) (target value : Expr)
  | binary (extent : Extent) (left : Expr) (op : BinaryOp) (right : Expr)
  | unary (extent : Extent) (op : UnaryOp) (operand : Expr)
  | lambda (extent : Extent) (params : Parameters) (body : Expr)
  | ifExp (extent : Extent) (test body orElse : Expr)
  | dict (extent : Extent) (items : List DictItem)
  | set (extent : Extent) (items : List Expr)
  | listComp (extent : Extent) (item : Expr) (clauses : List Comprehension)
  | setComp (extent : Extent) (item : Expr) (clauses : List Comprehension)
  | dictComp (extent : Extent) (key value : Expr) (clauses : List Comprehension)
  | generator (extent : Extent) (item : Expr) (clauses : List Comprehension)
  | await (extent : Extent) (value : Expr)
  | yield (extent : Extent) (value : Option Expr)
  | yieldFrom (extent : Extent) (value : Expr)
  | compare (extent : Extent) (left : Expr) (rest : List Comparison)
  | call (extent : Extent) (callee : Expr) (args : List Expr) (keywords : List Keyword)
  | formatted (extent : Extent) (value : Expr) (conversion : Option Conversion) (spec : Option Expr)
  | joined (extent : Extent) (parts : List Expr)
  | constant (extent : Extent) (value : Literal)
  | attribute (extent : Extent) (value : Expr) (attr : String)
  | subscript (extent : Extent) (value index : Expr)
  | starred (extent : Extent) (value : Expr)
  | name (extent : Extent) (id : String)
  | list (extent : Extent) (items : List Expr)
  | tuple (extent : Extent) (items : List Expr)
  | slice (extent : Extent) (lower upper step : Option Expr)

/-- An entry of a dict display: `key: value`, or `**value` when there is no key. -/
structure DictItem where
  key : Option Expr
  value : Expr

/-- One further link of a comparison chain. -/
structure Comparison where
  op : CompareOp
  right : Expr

/-- A keyword argument, or `**value` when there is no name. -/
structure Keyword where
  name : Option String
  value : Expr

/-- One `for target in iter if …` clause. -/
structure Comprehension where
  target : Expr
  iter : Expr
  conditions : List Expr
  isAsync : Bool

/-- A parameter of a function with the extent of its name and annotation. -/
structure Param where
  extent : Extent
  name : String
  annotation : Option Expr

/-- A parameter that only a keyword can fill, with its default. -/
structure KeywordParam where
  param : Param
  default : Option Expr

/-- The parameters of a function. `defaults` belong to the last of `positionalOnly ++ ordinary`. -/
structure Parameters where
  positionalOnly : List Param
  ordinary : List Param
  defaults : List Expr
  variadic : Option Param
  keywordOnly : List KeywordParam
  keywords : Option Param

end

/-- The patterns of a `case` block. -/
inductive Pattern where
  | value (e : Expr)
  | singleton (value : Literal)
  | sequence (items : List Pattern)
  | mapping (keys : List Expr) (items : List Pattern) (rest : Option String)
  | ofClass (callee : Expr) (items : List Pattern) (names : List String) (named : List Pattern)
  | star (name : Option String)
  | capture (item : Option Pattern) (name : Option String)
  | alternatives (items : List Pattern)

/-- A name in an import, with the name it is bound to when one is given. -/
structure Alias where
  name : String
  asName : Option String
deriving DecidableEq, Repr

structure WithItem where
  value : Expr
  target : Option Expr

mutual

inductive Stmt where
  | functionDef (extent : Extent) (isAsync : Bool) (name : String) (params : Parameters)
      (body : List Stmt) (decorators : List Expr) (returns : Option Expr)
  | classDef (extent : Extent) (name : String) (bases : List Expr) (keywords : List Keyword)
      (body : List Stmt) (decorators : List Expr)
  | return (extent : Extent) (value : Option Expr)
  | delete (extent : Extent) (targets : List Expr)
  | assign (extent : Extent) (targets : List Expr) (value : Expr)
  | augAssign (extent : Extent) (target : Expr) (op : BinaryOp) (value : Expr)
  | annAssign (extent : Extent) (target annotation : Expr) (value : Option Expr) (simple : Bool)
  | for (extent : Extent) (isAsync : Bool) (target iter : Expr) (body orElse : List Stmt)
  | while (extent : Extent) (test : Expr) (body orElse : List Stmt)
  | if (extent : Extent) (test : Expr) (body orElse : List Stmt)
  | with (extent : Extent) (isAsync : Bool) (items : List WithItem) (body : List Stmt)
  | match (extent : Extent) (subject : Expr) (cases : List MatchCase)
  | raise (extent : Extent) (value cause : Option Expr)
  | try (extent : Extent) (isGroup : Bool) (body : List Stmt) (handlers : List Handler)
      (orElse atEnd : List Stmt)
  | assert (extent : Extent) (test : Expr) (message : Option Expr)
  | importNames (extent : Extent) (names : List Alias)
  | importFrom (extent : Extent) (module : Option String) (names : List Alias) (level : Nat)
  | global (extent : Extent) (names : List String)
  | nonlocal (extent : Extent) (names : List String)
  | expr (extent : Extent) (value : Expr)
  | pass (extent : Extent)
  | break (extent : Extent)
  | continue (extent : Extent)

/-- An `except` block; `try` says whether its blocks are `except*`. -/
structure Handler where
  type : Option Expr
  name : Option String
  body : List Stmt

structure MatchCase where
  pattern : Pattern
  guard : Option Expr
  body : List Stmt

end

/-- A parsed script. -/
structure Module where
  body : List Stmt

/-- The region an expression was read from. -/
def Expr.extent : Expr → Extent
  | .boolOp x .. | .named x .. | .binary x .. | .unary x .. | .lambda x .. | .ifExp x ..
  | .dict x .. | .set x .. | .listComp x .. | .setComp x .. | .dictComp x .. | .generator x ..
  | .await x .. | .yield x .. | .yieldFrom x .. | .compare x .. | .call x .. | .formatted x ..
  | .joined x .. | .constant x .. | .attribute x .. | .subscript x .. | .starred x .. | .name x ..
  | .list x .. | .tuple x .. | .slice x .. => x

/-- The region a statement was read from. -/
def Stmt.extent : Stmt → Extent
  | .functionDef x .. | .classDef x .. | .return x .. | .delete x .. | .assign x ..
  | .augAssign x .. | .annAssign x .. | .for x .. | .while x .. | .if x .. | .with x ..
  | .match x .. | .raise x .. | .try x .. | .assert x .. | .importNames x .. | .importFrom x ..
  | .global x .. | .nonlocal x .. | .expr x .. | .pass x | .break x | .continue x => x

/-- The grammar's word for the form of an expression. -/
def Expr.formName : Expr → String
  | .boolOp .. => "BoolOp"
  | .named .. => "NamedExpr"
  | .binary .. => "BinOp"
  | .unary .. => "UnaryOp"
  | .lambda .. => "Lambda"
  | .ifExp .. => "IfExp"
  | .dict .. => "Dict"
  | .set .. => "Set"
  | .listComp .. => "ListComp"
  | .setComp .. => "SetComp"
  | .dictComp .. => "DictComp"
  | .generator .. => "GeneratorExp"
  | .await .. => "Await"
  | .yield .. => "Yield"
  | .yieldFrom .. => "YieldFrom"
  | .compare .. => "Compare"
  | .call .. => "Call"
  | .formatted .. => "FormattedValue"
  | .joined .. => "JoinedStr"
  | .constant .. => "Constant"
  | .attribute .. => "Attribute"
  | .subscript .. => "Subscript"
  | .starred .. => "Starred"
  | .name .. => "Name"
  | .list .. => "List"
  | .tuple .. => "Tuple"
  | .slice .. => "Slice"

/-- The grammar's word for a binary operator. -/
def BinaryOp.formName : BinaryOp → String
  | .add => "Add"
  | .sub => "Sub"
  | .mult => "Mult"
  | .matMult => "MatMult"
  | .div => "Div"
  | .mod => "Mod"
  | .pow => "Pow"
  | .lShift => "LShift"
  | .rShift => "RShift"
  | .bitOr => "BitOr"
  | .bitXor => "BitXor"
  | .bitAnd => "BitAnd"
  | .floorDiv => "FloorDiv"

/-- The grammar's word for a unary operator. -/
def UnaryOp.formName : UnaryOp → String
  | .invert => "Invert"
  | .not => "Not"
  | .plus => "UAdd"
  | .minus => "USub"

/-- The grammar's word for a comparison operator. -/
def CompareOp.formName : CompareOp → String
  | .eq => "Eq"
  | .notEq => "NotEq"
  | .lt => "Lt"
  | .ltE => "LtE"
  | .gt => "Gt"
  | .gtE => "GtE"
  | .is => "Is"
  | .isNot => "IsNot"
  | .in => "In"
  | .notIn => "NotIn"

end Addon.Script
