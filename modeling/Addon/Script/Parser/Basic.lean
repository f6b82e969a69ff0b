import Addon.Script.Token

/-!
# Parsers over tokens

A parser reads from the front of a list of tokens and may fail. It remembers where the last token
that is not layout ended, since that is where the tree read so far ends.

The grammar is recursive through a handful of rules. A parser for a piece of the grammar takes the
parsers of those rules as an argument, so that the pieces are plain definitions; the knot is tied
once, by recursion on a bound for the depth of the tree.
-/

namespace Addon.Script

/-- Where a parser stands: the tokens to come and the end of the last one taken. -/
structure Cursor where
  rest : List Token
  last : Position

/-- A parser of `α`. -/
abbrev Parser (α : Type) := StateT Cursor Option α

/-- The rules through which the grammar is recursive. -/
inductive Rule where
  | expression
  | inversion
  | factor
  | primary
  /-- The expression of a replacement field, with the extent of the string around it. -/
  | field (source : List Char) (extent : Extent)
  | block
  | pattern

/-- What a rule reads. -/
abbrev Rule.Result : Rule → Type
  | .block => List Stmt
  | .pattern => Pattern
  | .expression | .inversion | .factor | .primary | .field .. => Expr

/-- The parsers of the recursive rules, and a bound for the number of items in a row. -/
structure Rules where
  bound : Nat
  parse : (r : Rule) → Parser r.Result

namespace Parser

/-- The kind of the next token. -/
def peek : Parser TokenKind := fun c =>
  match c.rest with
  | t :: _ => some (t.kind, c)
  | [] => some (.finish, c)

/-- The kind of the token after the next one. -/
def peekSecond : Parser TokenKind := fun c =>
  match c.rest with
  | _ :: t :: _ => some (t.kind, c)
  | _ => some (.finish, c)

/-- Takes the next token. -/
def take : Parser Token := fun c =>
  match c.rest with
  | t :: rest => some (t, ⟨rest, if t.kind.isLayout then c.last else t.extent.stop⟩)
  | [] => none

/-- Where the next token starts. -/
def here : Parser Position := fun c =>
  match c.rest with
  | t :: _ => some (t.extent.start, c)
  | [] => some (c.last, c)

/-- The extent from a place to the end of the last token. -/
def since (start : Position) : Parser Extent := fun c =>
  some (⟨start, c.last⟩, c)

/-- The next token is of the given kind. -/
def nextIs (kind : TokenKind) : Parser Bool := do
  return decide ((← peek) = kind)

/-- Takes the next token if it is of the given kind. -/
def accept (kind : TokenKind) : Parser Bool := do
  if ← nextIs kind then
    let _ ← take
    return true
  else return false

/-- Takes a token of the given kind. -/
def expect (kind : TokenKind) : Parser Unit := do
  guard (← accept kind)

/-- Takes an identifier. -/
def identifier : Parser String := do
  match ← peek with
  | .name id _ =>
    let _ ← take
    return id
  | _ => failure

/-- Repeats a step until it has no result. -/
def iterate {α : Type} (step : α → Parser (Option α)) : Nat → α → Parser α
  | 0, _ => failure
  | bound + 1, a => do
    match ← step a with
    | some b => iterate step bound b
    | none => return a

/-- Reads items while `more` says that there is one. -/
def many {α : Type} (rules : Rules) (more : Parser Bool) (item : Parser α) : Parser (List α) := do
  let items ← iterate (fun seen => do
    if ← more then return some ((← item) :: seen) else return none) rules.bound []
  return items.reverse

/-- Reads items with commas between them, the first of which is known. A comma may come
last; the items go on behind a comma when `more` says so. The second result tells
whether a comma came last. -/
def commaTail {α : Type} (rules : Rules) (more : Parser Bool) (item : Parser α) (first : α) :
    Parser (List α × Bool) := do
  let (seen, trailing) ← iterate (fun (seen, trailing) => do
    if trailing then return none
    else if ← accept (.op ",") then
      if ← more then return some ((← item) :: seen, false)
      else return some (seen, true)
    else return none) rules.bound ([first], false)
  return (seen.reverse, trailing)

end Parser

end Addon.Script
