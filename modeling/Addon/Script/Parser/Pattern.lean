import Addon.Script.Parser.Expression

/-!
# Patterns

The grammar of `case` patterns. Patterns bind names without looking anything up, so a plain name
captures, a dotted name is a value, and the underscore matches anything and binds nothing.
-/

namespace Addon.Script.Parser

/-- A name that a pattern can bind. -/
def captureName : Parser String := do
  let id ← identifier
  guard (id ≠ "_")
  match ← peekOp with
  | "." | "(" | "=" => failure
  | _ => return id

/-- A number, possibly with a minus sign, with whether it is imaginary. -/
def signedNumber : Parser (Expr × Bool) := do
  let start ← here
  let minus ← accept (.op "-")
  let inner ← here
  match ← peek with
  | .number value =>
    let _ ← take
    let e := Expr.constant (← since inner) value
    let isImaginary := match value with
      | .imaginary _ => true
      | _ => false
    if minus then return (.unary (← since start) .minus e, isImaginary) else return (e, isImaginary)
  | _ => failure

/-- A number, or the sum or difference of a real and an imaginary one. -/
def numberPattern : Parser Expr := do
  let start ← here
  let (left, isImaginary) ← signedNumber
  match ← peekOp with
  | "+" => complex start left isImaginary .add
  | "-" => complex start left isImaginary .sub
  | _ => return left
where
  complex (start : Position) (left : Expr) (isImaginary : Bool) (op : BinaryOp) : Parser Expr := do
    guard (!isImaginary)
    let _ ← take
    match ← peek with
    | .number _ =>
      let (right, rightImaginary) ← signedNumber
      guard rightImaginary
      return .binary (← since start) left op right
    | _ => failure

/-- A name with attributes behind it, and whether there are any. -/
def dottedName (rules : Rules) : Parser (Expr × Bool) := do
  let start ← here
  let id ← identifier
  let first := Expr.name (← since start) id
  iterate (fun (e, _) => do
    if ← accept (.op ".") then
      let attr ← identifier
      return some (.attribute (← since start) e attr, true)
    else return none) rules.bound (first, false)

/-- A key of a mapping pattern. -/
def mappingKey (rules : Rules) : Parser Expr := do
  let start ← here
  match ← peek with
  | .number _ | .op "-" => numberPattern
  | .quoted _ => strings rules
  | .reserved "None" => constant start .none
  | .reserved "True" => constant start (.bool true)
  | .reserved "False" => constant start (.bool false)
  | _ =>
    let (e, isDotted) ← dottedName rules
    guard isDotted
    return e
where
  constant (start : Position) (value : Literal) : Parser Expr := do
    let _ ← take
    return .constant (← since start) value

/-- A pattern can start with such a token. -/
def startsPattern : TokenKind → Bool
  | .name .. | .number _ | .quoted _ => true
  | .reserved w => ["False", "None", "True"].contains w
  | .op o => ["(", "[", "\x7b", "-"].contains o
  | _ => false

/-- A pattern or a starred one comes next. -/
def atStarPattern : Parser Bool := do
  let kind ← peek
  return startsPattern kind || kind = .op "*"

/-- A pattern, or a starred name that matches the rest of a sequence. -/
def starPattern (rules : Rules) : Parser Pattern := do
  if ← accept (.op "*") then
    if ← accept (.softWord "_") then return .star none
    else return .star (some (← captureName))
  else rules.parse .pattern

/-- Patterns with commas between them up to a closing token, which is taken. The second result tells
whether a comma came last. -/
def patternsUpTo (rules : Rules) (close : TokenKind) : Parser (List Pattern × Bool) := do
  if ← accept close then return ([], false)
  else
    let first ← starPattern rules
    let result ← commaTail rules atStarPattern (starPattern rules) first
    expect close
    return result

/-- What has been read of a mapping pattern. Lists come last first. -/
structure MappingState where
  keys : List Expr := []
  items : List Pattern := []
  rest : Option String := none

/-- A mapping pattern behind its brace. -/
def mappingPattern (rules : Rules) : Parser Pattern := do
  let (s, _) ← iterate (fun (s, more) => do
    if !more || (← nextIs (.op "\x7d")) then return none
    else
      guard s.rest.isNone
      let s ← if ← accept (.op "**") then do
          pure { s with rest := some (← captureName) }
        else do
          let key ← mappingKey rules
          expect (.op ":")
          let item ← rules.parse .pattern
          pure { s with keys := key :: s.keys, items := item :: s.items }
      return some (s, ← accept (.op ","))) rules.bound (({} : MappingState), true)
  expect (.op "\x7d")
  return .mapping s.keys.reverse s.items.reverse s.rest

/-- What has been read of a class pattern. Lists come last first. -/
structure ClassState where
  items : List Pattern := []
  names : List String := []
  named : List Pattern := []

/-- A class pattern behind its opening parenthesis. Positional patterns come before named ones. -/
def classPattern (rules : Rules) (callee : Expr) : Parser Pattern := do
  let (s, _) ← iterate (fun (s, more) => do
    if !more || (← nextIs (.op ")")) then return none
    else
      let s ← if ← atKeyword then do
          let id ← identifier
          expect (.op "=")
          let item ← rules.parse .pattern
          pure { s with names := id :: s.names, named := item :: s.named }
        else do
          guard s.names.isEmpty
          let item ← rules.parse .pattern
          pure { s with items := item :: s.items }
      return some (s, ← accept (.op ","))) rules.bound (({} : ClassState), true)
  expect (.op ")")
  return .ofClass callee s.items.reverse s.names.reverse s.named.reverse

/-- A pattern that is complete in itself. -/
def closedPattern (rules : Rules) : Parser Pattern := do
  match ← peek with
  | .number _ | .op "-" => return .value (← numberPattern)
  | .quoted _ => return .value (← strings rules)
  | .reserved "None" => constant .none
  | .reserved "True" => constant (.bool true)
  | .reserved "False" => constant (.bool false)
  | .name "_" true =>
    let _ ← take
    return .capture none none
  | .name .. =>
    let (e, isDotted) ← dottedName rules
    match ← peekOp with
    | "(" =>
      let _ ← take
      classPattern rules e
    | "=" => failure
    | _ =>
      match e with
      | .name _ id => if isDotted then return .value e else return .capture none (some id)
      | _ => return .value e
  | .op "(" =>
    let _ ← take
    let start ← nextIs (.op "*")
    let (items, trailing) ← patternsUpTo rules (.op ")")
    match items with
    | [item] => if trailing then return .sequence [item] else if start then failure else return item
    | _ => return .sequence items
  | .op "[" =>
    let _ ← take
    let (items, _) ← patternsUpTo rules (.op "]")
    return .sequence items
  | .op "\x7b" =>
    let _ ← take
    mappingPattern rules
  | _ => failure
where
  constant (value : Literal) : Parser Pattern := do
    let _ ← take
    return .singleton value

/-- Alternatives, possibly bound to a name. -/
def pattern (rules : Rules) : Parser Pattern := do
  let first ← closedPattern rules
  let others ← many rules (accept (.op "|")) (closedPattern rules)
  let item := if others.isEmpty then first else Pattern.alternatives (first :: others)
  if ← accept (.reserved "as") then return .capture (some item) (some (← captureName))
  else return item

/-- The pattern of a `case` block: one pattern, or an open sequence of them. -/
def casePattern (rules : Rules) : Parser Pattern := do
  let starred ← nextIs (.op "*")
  let first ← starPattern rules
  let (items, trailing) ← commaTail rules atStarPattern (starPattern rules) first
  if items.length = 1 && !trailing then
    guard (!starred)
    return first
  else return .sequence items

end Addon.Script.Parser
