import Addon.Script.Parser.Pattern

/-!
# Statements

The grammar of statements. A simple statement stands on a logical line, several of them divided by
semicolons; a compound statement has blocks, each either indented on lines of its own or a line of
simple statements behind the colon.
-/

namespace Addon.Script.Parser

/-! ## Simple statements -/

/-- The value of an assignment. -/
def assignedValue (rules : Rules) : Parser Expr := do
  if ← nextIs (.reserved "yield") then yieldExpr rules else starExpressions rules

/-- The operator of an augmented assignment. -/
def augmentedOp? : String → Option BinaryOp
  | "+=" => some .add
  | "-=" => some .sub
  | "*=" => some .mult
  | "@=" => some .matMult
  | "/=" => some .div
  | "%=" => some .mod
  | "&=" => some .bitAnd
  | "|=" => some .bitOr
  | "^=" => some .bitXor
  | "<<=" => some .lShift
  | ">>=" => some .rShift
  | "**=" => some .pow
  | "//=" => some .floorDiv
  | _ => none

/-- An annotated assignment behind its target. -/
def annotated (rules : Rules) (start : Position) (target : Expr) (simple : Bool) : Parser Stmt := do
  expect (.op ":")
  let note ← rules.parse .expression
  let value ← if ← accept (.op "=") then do pure (some (← assignedValue rules)) else pure none
  return .annAssign (← since start) target note value simple

/-- The targets of an assignment from the second one on, and its value. -/
def assignment (rules : Rules) (start : Position) (first : Expr) : Parser Stmt := do
  let (targets, value) ← iterate (fun (targets, value) => do
    if ← accept (.op "=") then
      guard (Expr.isTarget value)
      return some (value :: targets, ← assignedValue rules)
    else return none) rules.bound (([] : List Expr), first)
  return .assign (← since start) targets.reverse value

/-- An expression, or an assignment of one of the three kinds. -/
def expressionStatement (rules : Rules) : Parser Stmt := do
  let start ← here
  match ← peek, ← peekSecond with
  | .name id _, .op ":" =>
    let _ ← take
    annotated rules start (.name (← since start) id) true
  | .reserved "yield", _ =>
    let e ← yieldExpr rules
    return .expr (← since start) e
  | _, _ =>
    let e ← starExpressions rules
    match ← peekOp with
    | "=" => assignment rules start e
    | ":" =>
      guard e.isSingleTarget
      annotated rules start e false
    | o =>
      match augmentedOp? o with
      | some op =>
        guard e.isSingleTarget
        let _ ← take
        let value ← assignedValue rules
        return .augAssign (← since start) e op value
      | none => return .expr (← since start) e

/-- A name with dots. -/
def modulePath (rules : Rules) : Parser String := do
  let first ← identifier
  let others ← many rules (accept (.op ".")) identifier
  return ".".intercalate (first :: others)

/-- The name an import is bound to, when one is given. -/
def asName : Parser (Option String) := do
  if ← accept (.reserved "as") then return some (← identifier) else return none

/-- An imported module. -/
def importedModule (rules : Rules) : Parser Alias := do
  let name ← modulePath rules
  return ⟨name, ← asName⟩

/-- A name imported from a module. -/
def importedName : Parser Alias := do
  let name ← identifier
  return ⟨name, ← asName⟩

/-- An identifier comes next. -/
def atIdentifier : Parser Bool := do
  match ← peek with
  | .name .. => return true
  | _ => return false

/-- The dots in front of a module; a row of three is one token. -/
def relativeLevel (rules : Rules) : Parser Nat :=
  iterate (fun level => do
    if ← accept (.op ".") then return some (level + 1)
    else if ← accept (.op "...") then return some (level + 3)
    else return none) rules.bound 0

/-- The names imported from a module: all of them, or a list, which may have a comma at its end only
in parentheses. -/
def importedNames (rules : Rules) : Parser (List Alias) := do
  if ← accept (.op "*") then return [⟨"*", none⟩]
  else
    let inParens ← accept (.op "(")
    let first ← importedName
    let (names, trailing) ← commaTail rules atIdentifier importedName first
    if inParens then expect (.op ")") else guard (!trailing)
    return names

/-- An import from a module. -/
def importFrom (rules : Rules) (start : Position) : Parser Stmt := do
  let level ← relativeLevel rules
  let path ← if ← atIdentifier then do pure (some (← modulePath rules)) else pure none
  guard (path.isSome || 0 < level)
  expect (.reserved "import")
  let names ← importedNames rules
  return .importFrom (← since start) path names level

/-- An item of a list without a comma at its end. -/
def commaSeparated {α : Type} (rules : Rules) (item : Parser α) : Parser (List α) := do
  let first ← item
  let others ← many rules (accept (.op ",")) item
  return first :: others

/-- A simple statement. -/
def simpleStatement (rules : Rules) : Parser Stmt := do
  let start ← here
  match ← peek with
  | .reserved "return" =>
    let _ ← take
    let value ← if ← atStarExpression then do pure (some (← starExpressions rules)) else pure none
    return .return (← since start) value
  | .reserved "import" =>
    let _ ← take
    let names ← commaSeparated rules (importedModule rules)
    return .importNames (← since start) names
  | .reserved "from" =>
    let _ ← take
    importFrom rules start
  | .reserved "raise" =>
    let _ ← take
    if ← atExpression then
      let value ← rules.parse .expression
      let cause ← if ← accept (.reserved "from") then do pure (some (← rules.parse .expression))
        else pure none
      return .raise (← since start) (some value) cause
    else return .raise (← since start) none none
  | .reserved "pass" =>
    let _ ← take
    return .pass (← since start)
  | .reserved "del" =>
    let _ ← take
    let first ← rules.parse .primary
    let (targets, _) ← commaTail rules atExpression (rules.parse .primary) first
    guard (areDeletable targets)
    return .delete (← since start) targets
  | .reserved "assert" =>
    let _ ← take
    let test ← rules.parse .expression
    let message ← if ← accept (.op ",") then do pure (some (← rules.parse .expression))
      else pure none
    return .assert (← since start) test message
  | .reserved "break" =>
    let _ ← take
    return .break (← since start)
  | .reserved "continue" =>
    let _ ← take
    return .continue (← since start)
  | .reserved "global" =>
    let _ ← take
    let names ← commaSeparated rules identifier
    return .global (← since start) names
  | .reserved "nonlocal" =>
    let _ ← take
    let names ← commaSeparated rules identifier
    return .nonlocal (← since start) names
  | _ => expressionStatement rules

/-- Simple statements on one line. -/
def simpleLine (rules : Rules) : Parser (List Stmt) := do
  let first ← simpleStatement rules
  let (seen, _) ← iterate (fun (seen, more) => do
    if !more then return none
    else if ← accept (.op ";") then
      if ← nextIs .newline then return some (seen, false)
      else return some ((← simpleStatement rules) :: seen, true)
    else return none) rules.bound ([first], true)
  expect .newline
  return seen.reverse

/-! ## Compound statements -/

/-- A colon and a block. -/
def body (rules : Rules) : Parser (List Stmt) := do
  expect (.op ":")
  rules.parse .block

/-- The block behind a word, or nothing when the word does not come next. -/
def bodyAfter (rules : Rules) (wordText : String) : Parser (List Stmt) := do
  if ← accept (.reserved wordText) then body rules else return []

/-- The branches of an `if` behind its first one, and its last block. -/
def elifBranches (rules : Rules) : Parser (List (Position × Expr × List Stmt)) :=
  many rules (nextIs (.reserved "elif")) do
    let start ← here
    let _ ← take
    let test ← named rules
    return (start, test, ← body rules)

/-- An `if` statement; a further branch is an `if` statement in the last block of the one before. -/
def ifStatement (rules : Rules) : Parser Stmt := do
  let start ← here
  expect (.reserved "if")
  let test ← named rules
  let block ← body rules
  let branches ← elifBranches rules
  let last ← bodyAfter rules "else"
  let stop := (← since start).stop
  let orElse := branches.foldr (fun (start, test, block) orElse =>
    [Stmt.if ⟨start, stop⟩ test block orElse]) last
  return .if ⟨start, stop⟩ test block orElse

/-- A `while` statement. -/
def whileStatement (rules : Rules) : Parser Stmt := do
  let start ← here
  expect (.reserved "while")
  let test ← named rules
  let block ← body rules
  let orElse ← bodyAfter rules "else"
  return .while (← since start) test block orElse

/-- A `for` statement. -/
def forStatement (rules : Rules) (start : Position) (isAsync : Bool) : Parser Stmt := do
  expect (.reserved "for")
  let target ← starTargets rules
  expect (.reserved "in")
  let iter ← starExpressions rules
  let block ← body rules
  let orElse ← bodyAfter rules "else"
  return .for (← since start) isAsync target iter block orElse

/-- An item of a `with` statement. -/
def withItem (rules : Rules) : Parser WithItem := do
  let value ← rules.parse .expression
  if ← accept (.reserved "as") then return ⟨value, some (← starTarget rules)⟩
  else return ⟨value, none⟩

/-- The items of a `with` statement in parentheses, together with the colon behind them. -/
def withItemsInParens (rules : Rules) : Parser (List WithItem) := do
  expect (.op "(")
  let first ← withItem rules
  let (items, _) ← commaTail rules atExpression (withItem rules) first
  expect (.op ")")
  expect (.op ":")
  return items

/-- The items of a `with` statement, together with the colon behind them. -/
def withItems (rules : Rules) : Parser (List WithItem) := do
  let items ← commaSeparated rules (withItem rules)
  expect (.op ":")
  return items

/-- A `with` statement. Parentheses around all items are tried first. -/
def withStatement (rules : Rules) (start : Position) (isAsync : Bool) : Parser Stmt := do
  expect (.reserved "with")
  let items ← withItemsInParens rules <|> withItems rules
  let block ← rules.parse .block
  return .with (← since start) isAsync items block

/-- An `except` block. -/
def handler (rules : Rules) (isGroup : Bool) : Parser Handler := do
  expect (.reserved "except")
  if isGroup then expect (.op "*")
  if !isGroup && (← nextIs (.op ":")) then return ⟨none, none, ← body rules⟩
  else
    let type ← rules.parse .expression
    let name ← asName
    return ⟨some type, name, ← body rules⟩

/-- A `try` statement. It has handlers or a last block; only behind handlers there is an `else`. -/
def tryStatement (rules : Rules) : Parser Stmt := do
  let start ← here
  expect (.reserved "try")
  let block ← body rules
  let isGroup := decide ((← peekSecond) = .op "*")
  let handlers ← many rules (nextIs (.reserved "except")) (handler rules isGroup)
  let orElse ← if handlers.isEmpty then pure [] else bodyAfter rules "else"
  let hasLast ← nextIs (.reserved "finally")
  guard (hasLast || !handlers.isEmpty)
  let atEnd ← bodyAfter rules "finally"
  return .try (← since start) (isGroup && !handlers.isEmpty) block handlers orElse atEnd

/-- A function. -/
def functionDef (rules : Rules) (start : Position) (isAsync : Bool) (decorators : List Expr) :
    Parser Stmt := do
  expect (.reserved "def")
  let name ← identifier
  expect (.op "(")
  let ps ← parameters rules false (.op ")")
  expect (.op ")")
  let returns ← if ← accept (.op "->") then do pure (some (← rules.parse .expression))
    else pure none
  let block ← body rules
  return .functionDef (← since start) isAsync name ps block decorators returns

/-- A class. -/
def classDef (rules : Rules) (decorators : List Expr) : Parser Stmt := do
  let start ← here
  expect (.reserved "class")
  let name ← identifier
  let args ← if ← accept (.op "(") then do
      let args ← arguments rules {} true
      expect (.op ")")
      pure args
    else pure {}
  let block ← body rules
  return .classDef (← since start) name args.args.reverse args.keywords.reverse block decorators

/-- A decorator on its line. -/
def decorator (rules : Rules) : Parser Expr := do
  let _ ← take
  let e ← named rules
  expect .newline
  return e

/-- A statement that starts with `async`. -/
def asyncStatement (rules : Rules) (decorators : List Expr) : Parser Stmt := do
  let start ← here
  expect (.reserved "async")
  match ← peek with
  | .reserved "def" => functionDef rules start true decorators
  | .reserved "for" =>
    guard decorators.isEmpty
    forStatement rules start true
  | .reserved "with" =>
    guard decorators.isEmpty
    withStatement rules start true
  | _ => failure

/-- A function or class with decorators. -/
def decorated (rules : Rules) : Parser Stmt := do
  let decorators ← many rules (nextIs (.op "@")) (decorator rules)
  match ← peek with
  | .reserved "def" => functionDef rules (← here) false decorators
  | .reserved "class" => classDef rules decorators
  | _ => asyncStatement rules decorators

/-- The subject of a `match` statement. -/
def matchSubject (rules : Rules) : Parser Expr := do
  let start ← here
  let first ← displayItem rules
  let (items, trailing) ← commaTail rules atStarExpression (displayItem rules) first
  if items.length = 1 && !trailing then
    guard (!first.isStarred)
    return first
  else return .tuple (← since start) items

/-- A `case` block. -/
def caseBlock (rules : Rules) : Parser MatchCase := do
  expect (.softWord "case")
  let p ← casePattern rules
  let condition ← if ← accept (.reserved "if") then do pure (some (← named rules)) else pure none
  return ⟨p, condition, ← body rules⟩

/-- A `match` statement. -/
def matchStatement (rules : Rules) : Parser Stmt := do
  let start ← here
  expect (.softWord "match")
  let subject ← matchSubject rules
  expect (.op ":")
  expect .newline
  expect .indent
  let cases ← many rules (nextIs (.softWord "case")) (caseBlock rules)
  guard (!cases.isEmpty)
  expect .dedent
  return .match (← since start) subject cases

/-- A statement, or several simple ones on a line. The word `match` is a name unless a statement can
be read from it. -/
def statement (rules : Rules) : Parser (List Stmt) := do
  match ← peek with
  | .reserved "if" => single (ifStatement rules)
  | .reserved "while" => single (whileStatement rules)
  | .reserved "for" => single (do forStatement rules (← here) false)
  | .reserved "with" => single (do withStatement rules (← here) false)
  | .reserved "try" => single (tryStatement rules)
  | .reserved "def" => single (do functionDef rules (← here) false [])
  | .reserved "class" => single (classDef rules [])
  | .reserved "async" => single (asyncStatement rules [])
  | .op "@" => single (decorated rules)
  | .name "match" true => single (matchStatement rules) <|> simpleLine rules
  | _ => simpleLine rules
where
  single (p : Parser Stmt) : Parser (List Stmt) := do
    return [← p]

/-- Statements up to a closing token, which is not taken. -/
def statementsUpTo (rules : Rules) (close : TokenKind) : Parser (List Stmt) := do
  let groups ← many rules (do return !(← nextIs close)) (statement rules)
  return groups.flatten

/-- A block: indented statements, or simple statements behind the colon. -/
def block (rules : Rules) : Parser (List Stmt) := do
  if ← accept .newline then
    expect .indent
    let stmts ← statementsUpTo rules .dedent
    expect .dedent
    return stmts
  else simpleLine rules

end Addon.Script.Parser
