import Addon.Script.Lexer
import Addon.Script.Parser.Statement
import Addon.Text.Encoding

/-!
# Parsing scripts

Ties the rules of the grammar together and reads whole texts: a script, or a single expression. A
text with surrogates or a NUL character is refused before anything else; any other text that does
not follow the grammar is invalid, without further detail.
-/

namespace Addon.Script

/-- Why a text cannot be read. -/
inductive ParseError where
  | surrogates (e : Text.EncodeError)
  | nullCharacter
  | invalid
deriving DecidableEq, Repr

namespace Parser

/-- The expression of a replacement field. It is read as if it stood in parentheses, and everything
in it has the extent of the string that it stands in. -/
def field (rules : Rules) (source : List Char) (extent : Extent) : Parser Expr := fun c =>
  match tokenize ('(' :: source ++ [')', '\n']) with
  | none => none
  | some tokens =>
    let tokens := tokens.map fun t => { t with extent := extent }
    match starExpressions rules ⟨tokens, extent.stop⟩ with
    | some (e, _) => some (e, c)
    | none => none

/-- The parser of a recursive rule, for trees of bounded depth. -/
def rule : Nat → (r : Rule) → Parser r.Result
  | 0, _ => failure
  | depth + 1, r =>
    let rules : Rules := ⟨depth, rule depth⟩
    match r with
    | .expression => expression rules
    | .inversion => inversion rules
    | .factor => factor rules
    | .primary => primary rules
    | .field source extent => field rules source extent
    | .block => block rules
    | .pattern => pattern rules

/-- The rules for a text of the given length. No tree is deeper than this bound. -/
def rulesFor (length : Nat) : Rules :=
  let depth := 16 * length + 64
  ⟨depth, rule depth⟩

/-- All statements of a script. -/
def script (rules : Rules) : Parser Module := do
  let stmts ← statementsUpTo rules .finish
  return ⟨stmts⟩

/-- A single expression with nothing but line ends behind it. -/
def loneExpression (rules : Rules) : Parser Expr := do
  let e ← expressions rules
  let _ ← many rules (accept .newline) (pure ())
  guard (← nextIs .finish)
  return e

/-- Runs a parser on a text. -/
def run {α : Type} (p : Rules → Parser α) (cs : List Char) : Except ParseError α :=
  if cs.contains '\x00' then .error .nullCharacter
  else match tokenize cs with
    | none => .error .invalid
    | some tokens =>
      match p (rulesFor cs.length) ⟨tokens, ⟨1, 0⟩⟩ with
      | some (a, _) => .ok a
      | none => .error .invalid

end Parser

/-- A text that ends with a line end. -/
def withFinalNewline (cs : List Char) : List Char :=
  if cs.getLast? = some '\n' then cs else cs ++ ['\n']

/-- The characters of a text that can be read. -/
def readable (source : String) : Except ParseError (List Char) :=
  match Text.checkEncodable source.toList with
  | .ok () => .ok source.toList
  | .error e => .error (.surrogates e)

/-- Reads a script. -/
def parseModule (source : String) : Except ParseError Module := do
  Parser.run Parser.script (withFinalNewline (Text.unifyLineEnds (← readable source)))

/-- Reads a single expression. -/
def parseExpression (source : String) : Except ParseError Expr := do
  Parser.run Parser.loneExpression (Text.unifyLineEnds (← readable source))

end Addon.Script
