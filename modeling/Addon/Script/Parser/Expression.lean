import Addon.Script.Parser.Strings
import Addon.Script.Parser.Target

/-!
# Expressions

The grammar of expressions, from conditionals and lambdas down to atoms. An operator of a lower
level binds less tightly; binary operators group to the left, except for powers.
-/

namespace Addon.Script.Parser

/-! ## What can come next -/

/-- An expression can start with such a token. -/
def startsExpression : TokenKind → Bool
  | .name .. | .number _ | .quoted _ => true
  | .reserved w => ["False", "None", "True", "not", "lambda", "await"].contains w
  | .op o => ["(", "[", "\x7b", "-", "+", "~", "..."].contains o
  | _ => false

/-- An expression comes next. -/
def atExpression : Parser Bool := do
  return startsExpression (← peek)

/-- An expression or a starred one comes next. -/
def atStarExpression : Parser Bool := do
  let kind ← peek
  return startsExpression kind || kind = .op "*"

/-- An identifier and a walrus come next. -/
def atNamed : Parser Bool := do
  match ← peek with
  | .name .. => return decide ((← peekSecond) = .op ":=")
  | _ => return false

/-- A comprehension clause comes next. -/
def atClause : Parser Bool := do
  let kind ← peek
  return kind = .reserved "for" || kind = .reserved "async"

/-- The operator that comes next. -/
def peekOp : Parser String := do
  match ← peek with
  | .op o => return o
  | _ => return ""

/-! ## Operators -/

/-- Operands with left-grouping operators between them. -/
def leftGrouped (rules : Rules) (opOf : String → Option BinaryOp) (operand : Parser Expr) :
    Parser Expr := do
  let start ← here
  let first ← operand
  iterate (fun left => do
    match opOf (← peekOp) with
    | some op =>
      let _ ← take
      let right ← operand
      return some (.binary (← since start) left op right)
    | none => return none) rules.bound first

/-- Operands with a word between them, which are collected into one node. -/
def connected (rules : Rules) (wordText : String) (op : BoolOp) (operand : Parser Expr) :
    Parser Expr := do
  let start ← here
  let first ← operand
  let others ← many rules (accept (.reserved wordText)) operand
  if others.isEmpty then return first
  else return .boolOp (← since start) op (first :: others)

/-- The comparison operator that comes next is taken. -/
def compareOp? : Parser (Option CompareOp) := do
  match ← peek with
  | .op "==" => taking .eq
  | .op "!=" => taking .notEq
  | .op "<" => taking .lt
  | .op "<=" => taking .ltE
  | .op ">" => taking .gt
  | .op ">=" => taking .gtE
  | .reserved "in" => taking .in
  | .reserved "is" =>
    let _ ← take
    if ← accept (.reserved "not") then return some .isNot else return some .is
  | .reserved "not" =>
    if (← peekSecond) = .reserved "in" then
      let _ ← take
      taking .notIn
    else return none
  | _ => return none
where
  taking (op : CompareOp) : Parser (Option CompareOp) := do
    let _ ← take
    return some op

/-! ## Operands and lists -/

/-- Products, sums, shifts and bit operations over factors: also what may stand behind a star. -/
def bitwiseOr (rules : Rules) : Parser Expr :=
  let term := leftGrouped rules (fun
    | "*" => some .mult
    | "/" => some .div
    | "//" => some .floorDiv
    | "%" => some .mod
    | "@" => some .matMult
    | _ => none) (rules.parse .factor)
  let sum := leftGrouped rules (fun
    | "+" => some .add
    | "-" => some .sub
    | _ => none) term
  let shift := leftGrouped rules (fun
    | "<<" => some .lShift
    | ">>" => some .rShift
    | _ => none) sum
  let bitwiseAnd := leftGrouped rules (fun o => if o = "&" then some .bitAnd else none) shift
  let bitwiseXor := leftGrouped rules (fun o => if o = "^" then some .bitXor else none) bitwiseAnd
  leftGrouped rules (fun o => if o = "|" then some .bitOr else none) bitwiseXor

/-- A disjunction of conjunctions of negations. -/
def disjunction (rules : Rules) : Parser Expr :=
  connected rules "or" .or (connected rules "and" .and (rules.parse .inversion))

/-- A value bound to a name inside an expression, or a plain expression. -/
def named (rules : Rules) : Parser Expr := do
  if ← atNamed then
    let start ← here
    let id ← identifier
    let target := Expr.name (← since start) id
    expect (.op ":=")
    let value ← rules.parse .expression
    return .named (← since start) target value
  else rules.parse .expression

/-- One or more expressions with commas between them; a comma makes a tuple. -/
def tupleOf (rules : Rules) (more : Parser Bool) (item : Parser Expr) : Parser Expr := do
  let start ← here
  let first ← item
  let (items, trailing) ← commaTail rules more item first
  if items.length = 1 && !trailing then return first
  else return .tuple (← since start) items

/-- What `item` reads, or something starred. -/
def starOr (rules : Rules) (item : Parser Expr) : Parser Expr := do
  let start ← here
  if ← accept (.op "*") then
    let value ← bitwiseOr rules
    return .starred (← since start) value
  else item

/-- Expressions with commas between them, which may be starred. -/
def starExpressions (rules : Rules) : Parser Expr :=
  tupleOf rules atStarExpression (starOr rules (rules.parse .expression))

/-- Expressions with commas between them. -/
def expressions (rules : Rules) : Parser Expr :=
  tupleOf rules atExpression (rules.parse .expression)

/-- An item of a display. -/
def displayItem (rules : Rules) : Parser Expr :=
  starOr rules (named rules)

/-! ## Parameters -/

/-- What has been read of a list of parameters. Lists come last first. -/
structure ParameterState where
  positionalOnly : List Param := []
  ordinary : List Param := []
  defaults : List Expr := []
  variadic : Option Param := none
  keywordOnly : List KeywordParam := []
  keywords : Option Param := none
  /-- Behind a star only keywords can fill parameters. -/
  starred : Bool := false
  /-- A lone star asks for a parameter behind it. -/
  owing : Bool := false

/-- The finished parameters. -/
def ParameterState.finish (s : ParameterState) : Parameters :=
  { positionalOnly := s.positionalOnly.reverse
    ordinary := s.ordinary.reverse
    defaults := s.defaults.reverse
    variadic := s.variadic
    keywordOnly := s.keywordOnly.reverse
    keywords := s.keywords }

/-- An annotation behind a colon. Behind a starred parameter it may be starred. -/
def annotation (rules : Rules) (mayStar : Bool) : Parser (Option Expr) := do
  if ← accept (.op ":") then
    let start ← here
    if mayStar then
      if ← accept (.op "*") then
        let value ← bitwiseOr rules
        return some (.starred (← since start) value)
    return some (← rules.parse .expression)
  else return none

/-- The name of a parameter, with an annotation unless it is one of a lambda. -/
def param (rules : Rules) (isLambda mayStar : Bool) : Parser Param := do
  let start ← here
  let name ← identifier
  let note ← if isLambda then pure none else annotation rules mayStar
  return ⟨← since start, name, note⟩

/-- A default behind an equals sign. -/
def defaultValue (rules : Rules) : Parser (Option Expr) := do
  if ← accept (.op "=") then return some (← rules.parse .expression) else return none

/-- One item of a list of parameters: a slash, a star with or without a name, a double star, or a
parameter. Once a positional parameter has a default, all that follow need one. -/
def parameterItem (rules : Rules) (isLambda : Bool) (s : ParameterState) :
    Parser ParameterState := do
  guard s.keywords.isNone
  match ← peek with
  | .op "/" =>
    let _ ← take
    guard (!s.starred && s.positionalOnly.isEmpty && !s.ordinary.isEmpty)
    return { s with positionalOnly := s.ordinary, ordinary := [] }
  | .op "*" =>
    let _ ← take
    guard (!s.starred)
    match ← peek with
    | .name .. =>
      let p ← param rules isLambda true
      return { s with variadic := some p, starred := true }
    | _ => return { s with starred := true, owing := true }
  | .op "**" =>
    let _ ← take
    guard (!s.owing)
    let p ← param rules isLambda false
    return { s with keywords := some p }
  | _ =>
    let p ← param rules isLambda false
    let value ← defaultValue rules
    if s.starred then return { s with keywordOnly := ⟨p, value⟩ :: s.keywordOnly, owing := false }
    else match value with
      | some e => return { s with ordinary := p :: s.ordinary, defaults := e :: s.defaults }
      | none =>
        guard s.defaults.isEmpty
        return { s with ordinary := p :: s.ordinary }

/-- A list of parameters up to a closing token, which is not taken. -/
def parameters (rules : Rules) (isLambda : Bool) (close : TokenKind) : Parser Parameters := do
  let item := parameterItem rules isLambda
  let (s, _) ← iterate (fun (s, more) => do
    if !more || (← nextIs close) then return none
    else
      let s ← item s
      return some (s, ← accept (.op ","))) rules.bound (({} : ParameterState), true)
  guard (!s.owing)
  guard (← nextIs close)
  return s.finish

/-! ## Atoms -/

/-- A target, possibly starred. -/
def starTarget (rules : Rules) : Parser Expr := do
  let start ← here
  let starred ← accept (.op "*")
  let value ← rules.parse .primary
  guard value.isPlainTarget
  if starred then return .starred (← since start) value else return value

/-- The targets in front of `in`. -/
def starTargets (rules : Rules) : Parser Expr :=
  tupleOf rules atStarExpression (starTarget rules)

/-- One `for … in … if …` clause. -/
def clause (rules : Rules) : Parser Comprehension := do
  let isAsync ← accept (.reserved "async")
  expect (.reserved "for")
  let target ← starTargets rules
  expect (.reserved "in")
  let iter ← disjunction rules
  let conditions ← many rules (accept (.reserved "if")) (disjunction rules)
  return ⟨target, iter, conditions, isAsync⟩

/-- All clauses of a comprehension. -/
def clauses (rules : Rules) : Parser (List Comprehension) :=
  many rules atClause (clause rules)

/-- A `yield` expression. -/
def yieldExpr (rules : Rules) : Parser Expr := do
  let start ← here
  expect (.reserved "yield")
  if ← accept (.reserved "from") then
    let source ← rules.parse .expression
    return .yieldFrom (← since start) source
  else if ← atStarExpression then
    let e ← starExpressions rules
    return .yield (← since start) (some e)
  else return .yield (← since start) none

/-- What stands in parentheses: a tuple, a generator, or an expression on its own. -/
def parenthesized (rules : Rules) : Parser Expr := do
  let start ← here
  expect (.op "(")
  if ← accept (.op ")") then return .tuple (← since start) []
  else if ← nextIs (.reserved "yield") then
    let e ← yieldExpr rules
    expect (.op ")")
    return e
  else
    let first ← displayItem rules
    if ← atClause then
      guard (!first.isStarred)
      let cs ← clauses rules
      expect (.op ")")
      return .generator (← since start) first cs
    else
      let (items, trailing) ← commaTail rules atStarExpression (displayItem rules) first
      expect (.op ")")
      if items.length = 1 && !trailing then
        guard (!first.isStarred)
        return first
      else return .tuple (← since start) items

/-- A list display or comprehension. -/
def bracketed (rules : Rules) : Parser Expr := do
  let start ← here
  expect (.op "[")
  if ← accept (.op "]") then return .list (← since start) []
  else
    let first ← displayItem rules
    if ← atClause then
      guard (!first.isStarred)
      let cs ← clauses rules
      expect (.op "]")
      return .listComp (← since start) first cs
    else
      let (items, _) ← commaTail rules atStarExpression (displayItem rules) first
      expect (.op "]")
      return .list (← since start) items

/-- An entry of a dict display. -/
def dictItem (rules : Rules) : Parser DictItem := do
  if ← accept (.op "**") then return ⟨none, ← bitwiseOr rules⟩
  else
    let key ← rules.parse .expression
    expect (.op ":")
    return ⟨some key, ← rules.parse .expression⟩

/-- An entry of a dict display comes next. -/
def atDictItem : Parser Bool := do
  let kind ← peek
  return startsExpression kind || kind = .op "**"

/-- The rest of a dict display whose first entry is known. -/
def dictTail (rules : Rules) (start : Position) (first : DictItem) :
    Parser Expr := do
  let (items, _) ← commaTail rules atDictItem (dictItem rules) first
  expect (.op "\x7d")
  return .dict (← since start) items

/-- What stands in braces: a dict or a set, written out or as a comprehension. -/
def braced (rules : Rules) : Parser Expr := do
  let start ← here
  expect (.op "\x7b")
  if ← accept (.op "\x7d") then return .dict (← since start) []
  else if ← nextIs (.op "**") then
    dictTail rules start (← dictItem rules)
  else
    let isNamed ← atNamed
    let first ← displayItem rules
    if !isNamed && !first.isStarred && (← accept (.op ":")) then
      let value ← rules.parse .expression
      if ← atClause then
        let cs ← clauses rules
        expect (.op "\x7d")
        return .dictComp (← since start) first value cs
      else dictTail rules start ⟨some first, value⟩
    else if ← atClause then
      guard (!first.isStarred)
      let cs ← clauses rules
      expect (.op "\x7d")
      return .setComp (← since start) first cs
    else
      let (items, _) ← commaTail rules atStarExpression (displayItem rules) first
      expect (.op "\x7d")
      return .set (← since start) items

/-! ## Calls and subscripts -/

/-- What has been read of the arguments of a call. Lists come last first. -/
structure ArgumentState where
  args : List Expr := []
  keywords : List Keyword := []
  /-- Zero before the first keyword, one behind it, two behind the first unpacked mapping. -/
  phase : Nat := 0

/-- A keyword argument comes next. -/
def atKeyword : Parser Bool := do
  match ← peek with
  | .name .. => return decide ((← peekSecond) = .op "=")
  | _ => return false

/-- One argument. Behind a keyword no positional argument may come, and behind an unpacked mapping
no unpacked sequence. -/
def argument (rules : Rules) (s : ArgumentState) : Parser ArgumentState := do
  let start ← here
  if ← atKeyword then
    let id ← identifier
    expect (.op "=")
    let value ← rules.parse .expression
    return { s with keywords := ⟨some id, value⟩ :: s.keywords, phase := max s.phase 1 }
  else if ← accept (.op "**") then
    let value ← rules.parse .expression
    return { s with keywords := ⟨none, value⟩ :: s.keywords, phase := 2 }
  else if ← accept (.op "*") then
    guard (s.phase < 2)
    let value ← rules.parse .expression
    return { s with args := .starred (← since start) value :: s.args }
  else
    guard (s.phase = 0)
    let value ← named rules
    return { s with args := value :: s.args }

/-- The arguments of a call, up to the closing parenthesis, which is not taken. -/
def arguments (rules : Rules) (s : ArgumentState) (more : Bool) : Parser ArgumentState := do
  let (s, _) ← iterate (fun (s, more) => do
    if !more || (← nextIs (.op ")")) then return none
    else
      let s ← argument rules s
      return some (s, ← accept (.op ","))) rules.bound (s, more)
  return s

/-- A call of a known callee. A generator may stand alone without parentheses of its own. -/
def callOf (rules : Rules) (start : Position) (callee : Expr) : Parser Expr := do
  let inner ← here
  expect (.op "(")
  if ← nextIs (.op ")") then
    let _ ← take
    return .call (← since start) callee [] []
  else
    let s ← argument rules {}
    if (← atClause) && s.keywords.isEmpty && !(s.args.any Expr.isStarred) then
      let cs ← clauses rules
      expect (.op ")")
      match s.args with
      | [item] =>
        let g := Expr.generator (← since inner) item cs
        return .call (← since start) callee [g] []
      | _ => failure
    else
      let more ← accept (.op ",")
      let s ← arguments rules s more
      expect (.op ")")
      return .call (← since start) callee s.args.reverse s.keywords.reverse

/-- One bound of a slice, unless it is left out. -/
def sliceBound (rules : Rules) : Parser (Option Expr) := do
  if ← atExpression then return some (← rules.parse .expression) else return none

/-- The part of a slice behind its lower bound. -/
def sliceTail (rules : Rules) (start : Position) (lower : Option Expr) : Parser Expr := do
  expect (.op ":")
  let upper ← sliceBound rules
  let step ← if ← accept (.op ":") then sliceBound rules else pure none
  return .slice (← since start) lower upper step

/-- An index: a slice, a starred expression, or an expression. -/
def index (rules : Rules) : Parser Expr := do
  let start ← here
  if ← nextIs (.op ":") then sliceTail rules start none
  else if ← accept (.op "*") then
    let value ← rules.parse .expression
    return .starred (← since start) value
  else if ← atNamed then named rules
  else
    let e ← rules.parse .expression
    if ← nextIs (.op ":") then sliceTail rules start (some e) else return e

/-- An index comes next. -/
def atIndex : Parser Bool := do
  let kind ← peek
  return startsExpression kind || kind = .op "*" || kind = .op ":"

/-- All indices of a subscript; several of them, or a starred one, make a tuple. -/
def indices (rules : Rules) : Parser Expr := do
  let start ← here
  let first ← index rules
  let (items, trailing) ← commaTail rules atIndex (index rules) first
  if items.length = 1 && !trailing && !first.isStarred then return first
  else return .tuple (← since start) items

/-! ## Levels -/

/-- An atom: a name, a constant, or something in brackets. -/
def atom (rules : Rules) : Parser Expr := do
  let start ← here
  match ← peek with
  | .name id _ =>
    let _ ← take
    return .name (← since start) id
  | .number value => constant start value
  | .quoted _ => strings rules
  | .reserved "None" => constant start .none
  | .reserved "True" => constant start (.bool true)
  | .reserved "False" => constant start (.bool false)
  | .op "..." => constant start .ellipsis
  | .op "(" => parenthesized rules
  | .op "[" => bracketed rules
  | .op "\x7b" => braced rules
  | _ => failure
where
  constant (start : Position) (value : Literal) : Parser Expr := do
    let _ ← take
    return .constant (← since start) value

/-- An atom with attributes, calls and subscripts behind it. -/
def primary (rules : Rules) : Parser Expr := do
  let start ← here
  let first ← atom rules
  iterate (fun e => do
    match ← peek with
    | .op "." =>
      let _ ← take
      let attr ← identifier
      return some (.attribute (← since start) e attr)
    | .op "(" => return some (← callOf rules start e)
    | .op "[" =>
      let _ ← take
      let i ← indices rules
      expect (.op "]")
      return some (.subscript (← since start) e i)
    | _ => return none) rules.bound first

/-- A power, whose exponent may have a sign. -/
def power (rules : Rules) : Parser Expr := do
  let start ← here
  let base ←
    if ← accept (.reserved "await") then do
      let value ← primary rules
      pure (Expr.await (← since start) value)
    else primary rules
  if ← accept (.op "**") then
    let exponent ← rules.parse .factor
    return .binary (← since start) base .pow exponent
  else return base

/-- A signed operand, or a power. -/
def factor (rules : Rules) : Parser Expr := do
  let start ← here
  match ← peek with
  | .op "+" => signed start .plus
  | .op "-" => signed start .minus
  | .op "~" => signed start .invert
  | _ => power rules
where
  signed (start : Position) (op : UnaryOp) : Parser Expr := do
    let _ ← take
    let operand ← rules.parse .factor
    return .unary (← since start) op operand

/-- Operands with comparisons between them. -/
def comparison (rules : Rules) : Parser Expr := do
  let start ← here
  let left ← bitwiseOr rules
  let links ← iterate (fun seen => do
    match ← compareOp? with
    | some op => return some (Comparison.mk op (← bitwiseOr rules) :: seen)
    | none => return none) rules.bound []
  if links.isEmpty then return left
  else return .compare (← since start) left links.reverse

/-- A negation, or a comparison. -/
def inversion (rules : Rules) : Parser Expr := do
  let start ← here
  if ← accept (.reserved "not") then
    let operand ← rules.parse .inversion
    return .unary (← since start) .not operand
  else comparison rules

/-- A lambda. -/
def lambda (rules : Rules) : Parser Expr := do
  let start ← here
  expect (.reserved "lambda")
  let ps ← parameters rules true (.op ":")
  expect (.op ":")
  let body ← rules.parse .expression
  return .lambda (← since start) ps body

/-- A conditional, a disjunction or a lambda. -/
def expression (rules : Rules) : Parser Expr := do
  let start ← here
  if ← nextIs (.reserved "lambda") then lambda rules
  else
    let body ← disjunction rules
    if ← accept (.reserved "if") then
      let test ← disjunction rules
      expect (.reserved "else")
      let orElse ← rules.parse .expression
      return .ifExp (← since start) test body orElse
    else return body

end Addon.Script.Parser
