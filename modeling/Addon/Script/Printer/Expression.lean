import Addon.Number.Text
import Addon.Script.Printer.Quotes
import Addon.Script.Tree

/-!
# Printing expressions

The text of an expression. Each place where an expression can stand has a level, and an expression
that binds less tightly than its place asks for stands in parentheses. A printed tree reads back as
the same tree, extents apart.

Two trees have no text: those with an integer too long to write, and those where a replacement field
would need a backslash.
-/

namespace Addon.Script.Printer

/-- Why a tree has no text. -/
inductive PrintError where
  | backslashInField
  | tooManyDigits
deriving DecidableEq, Repr

/-! ## Levels -/

/-- How tightly an expression binds; higher is tighter. -/
abbrev Level := Nat

namespace Level

def namedExpr : Level := 1
def tuple : Level := 2
def yield : Level := 3
def test : Level := 4
def or : Level := 5
def and : Level := 6
def not : Level := 7
def comparison : Level := 8
def bitOr : Level := 9
def bitXor : Level := 10
def bitAnd : Level := 11
def shift : Level := 12
def arithmetic : Level := 13
def term : Level := 14
def factor : Level := 15
def power : Level := 16
def await : Level := 17
def atom : Level := 18

/-- The next tighter level, if there is one. -/
def next (l : Level) : Level :=
  min (l + 1) atom

end Level

/-- Puts parentheses around a text whose place asks for more than its own level. -/
def parenthesize (own asked : Level) (text : String) : String :=
  if own < asked then "(" ++ text ++ ")" else text

/-! ## Operators -/

def boolOpText : BoolOp → String
  | .and => "and"
  | .or => "or"

def boolOpLevel : BoolOp → Level
  | .and => Level.and
  | .or => Level.or

def binaryOpText : BinaryOp → String
  | .add => "+"
  | .sub => "-"
  | .mult => "*"
  | .matMult => "@"
  | .div => "/"
  | .mod => "%"
  | .pow => "**"
  | .lShift => "<<"
  | .rShift => ">>"
  | .bitOr => "|"
  | .bitXor => "^"
  | .bitAnd => "&"
  | .floorDiv => "//"

def binaryOpLevel : BinaryOp → Level
  | .add | .sub => Level.arithmetic
  | .mult | .matMult | .div | .mod | .floorDiv => Level.term
  | .pow => Level.power
  | .lShift | .rShift => Level.shift
  | .bitOr => Level.bitOr
  | .bitXor => Level.bitXor
  | .bitAnd => Level.bitAnd

/-- The levels of the operands; powers group to the right, all else to the left. -/
def operandLevels (op : BinaryOp) : Level × Level :=
  let own := binaryOpLevel op
  if op = .pow then (own.next, own) else (own, own.next)

def unaryOpText : UnaryOp → String
  | .invert => "~"
  | .not => "not "
  | .plus => "+"
  | .minus => "-"

def unaryOpLevel : UnaryOp → Level
  | .not => Level.not
  | .invert | .plus | .minus => Level.factor

def compareOpText : CompareOp → String
  | .eq => "=="
  | .notEq => "!="
  | .lt => "<"
  | .ltE => "<="
  | .gt => ">"
  | .gtE => ">="
  | .is => "is"
  | .isNot => "is not"
  | .in => "in"
  | .notIn => "not in"

def conversionText : Conversion → String
  | .str => "!s"
  | .repr => "!r"
  | .ascii => "!a"

/-! ## Constants -/

/-- A number that is not finite is written as one too large for a double. -/
def finiteText (text : String) : String :=
  if text.startsWith "inf" then "1e309" ++ (text.drop 3).toString else text

/-- A constant. With `plain` a string is written without backslashes if possible. -/
def literal (plain : Bool) : Literal → Except PrintError String
  | .none => return "None"
  | .bool b => return if b then "True" else "False"
  | .ellipsis => return "..."
  | .int n => match Number.intText? n with
    | some text => return text
    | none => throw .tooManyDigits
  | .float x => return finiteText (Number.floatText x)
  | .imaginary x => return finiteText (Number.imaginaryText x)
  | .str text marked =>
    let body := if plain then String.ofList (enclose allQuotes text.toList) else Text.quoted text
    return if marked then "u" ++ body else body
  | .bytes data => return Text.quotedBytes data

/-- A constant behind which an attribute needs a blank. -/
def isIntLike : Expr → Bool
  | .constant _ (.int _) | .constant _ (.bool _) => true
  | _ => false

/-! ## Joined strings -/

/-- Literal text of a joined string with its braces doubled. -/
def doubleBraces (cs : List Char) : List Char :=
  cs.flatMap fun c => if c = '\x7b' || c = '\x7d' then [c, c] else [c]

/-- Parts of a joined string, each with whether it is literal text, between quotes that fit all of
them. The possible quotes are narrowed down part by part. -/
def joinParts (quotes : List (List Char)) : List (List Char × Bool) → List Char × List (List Char)
  | [] => ([], quotes)
  | (cs, isText) :: rest =>
    let (body, fitting) := fitQuotes quotes isText cs
    let (others, chosen) := joinParts fitting rest
    (body ++ others, chosen)

/-- A joined string. -/
def joinedText (plain : Bool) (parts : List (List Char × Bool)) : String :=
  if plain then String.ofList ('f' :: enclose allQuotes (parts.flatMap (·.1)))
  else
    let (body, quotes) := joinParts allQuotes parts
    let quote := quotes.headD []
    String.ofList ('f' :: quote ++ body ++ quote)

/-! ## Expressions -/

/-- Items with commas between them; a single one has a comma behind it. -/
def tupleItems : List String → String
  | [item] => item ++ ","
  | items => ", ".intercalate items

/-- The parts of a parameter list: the parameters and, among them, the marks `/` and `*`. -/
def parameterMarks (positionalOnly others : List String) : List String :=
  if positionalOnly.isEmpty then others else positionalOnly ++ "/" :: others

/-- A replacement field up to its format, from the text of its value. -/
def fieldStart (conversion : Option Conversion) (text : String) : Except PrintError String := do
  if text.contains (fun c => c = '\\') then throw .backslashInField
  else
    let blank := if text.startsWith "\x7b" then " " else ""
    return "\x7b" ++ blank ++ text ++ (conversion.map conversionText).getD ""

/-- The texts of pairs of parts. The parts of a pair come one after the other, before those of the
next pair, and the first one without a text decides. -/
def pairTexts (join : String → String → String) (firsts seconds : List (Except PrintError String)) :
    Except PrintError (List String) :=
  (firsts.zip seconds).mapM fun (first, second) => do
    let a ← first
    let b ← second
    return join a b

mutual

/-- An expression at a place of the given level. -/
def expression (plain : Bool) (asked : Level) : Expr → Except PrintError String
  | .boolOp _ op values => do
    let own := boolOpLevel op
    let texts ← boolOperands plain own values
    return parenthesize own asked ((" " ++ boolOpText op ++ " ").intercalate texts)
  | .named _ target value => do
    let target ← expression plain Level.atom target
    let value ← expression plain Level.atom value
    return parenthesize Level.namedExpr asked (target ++ " := " ++ value)
  | .binary _ left op right => do
    let (leftLevel, rightLevel) := operandLevels op
    let left ← expression plain leftLevel left
    let right ← expression plain rightLevel right
    return parenthesize (binaryOpLevel op) asked (left ++ " " ++ binaryOpText op ++ " " ++ right)
  | .unary _ op operand => do
    let own := unaryOpLevel op
    let operand ← expression plain own operand
    return parenthesize own asked (unaryOpText op ++ operand)
  | .lambda _ ps body => do
    let ps ← parameters plain ps
    let body ← expression plain Level.test body
    let head := if ps.isEmpty then "lambda" else "lambda " ++ ps
    return parenthesize Level.test asked (head ++ ": " ++ body)
  | .ifExp _ test body orElse => do
    let body ← expression plain Level.test.next body
    let test ← expression plain Level.test.next test
    let orElse ← expression plain Level.test orElse
    return parenthesize Level.test asked (body ++ " if " ++ test ++ " else " ++ orElse)
  | .dict _ items => do
    let items ← dictItems plain items
    return "\x7b" ++ ", ".intercalate items ++ "\x7d"
  | .set _ items => do
    let items ← expressions plain Level.test items
    return "\x7b" ++ ", ".intercalate items ++ "\x7d"
  | .listComp _ item clauses => do
    let item ← expression plain Level.test item
    let clauses ← comprehensions plain clauses
    return "[" ++ item ++ clauses ++ "]"
  | .setComp _ item clauses => do
    let item ← expression plain Level.test item
    let clauses ← comprehensions plain clauses
    return "\x7b" ++ item ++ clauses ++ "\x7d"
  | .dictComp _ key value clauses => do
    let key ← expression plain Level.test key
    let value ← expression plain Level.test value
    let clauses ← comprehensions plain clauses
    return "\x7b" ++ key ++ ": " ++ value ++ clauses ++ "\x7d"
  | .generator _ item clauses => do
    let item ← expression plain Level.test item
    let clauses ← comprehensions plain clauses
    return "(" ++ item ++ clauses ++ ")"
  | .await _ value => do
    let value ← expression plain Level.atom value
    return parenthesize Level.await asked ("await " ++ value)
  | .yield _ none => return parenthesize Level.yield asked "yield"
  | .yield _ (some value) => do
    let value ← expression plain Level.atom value
    return parenthesize Level.yield asked ("yield " ++ value)
  | .yieldFrom _ value => do
    let value ← expression plain Level.atom value
    return parenthesize Level.yield asked ("yield from " ++ value)
  | .compare _ left rest => do
    let left ← expression plain Level.comparison.next left
    let rest ← comparisons plain rest
    return parenthesize Level.comparison asked (left ++ rest)
  | .call _ callee args kws => do
    let callee ← expression plain Level.atom callee
    let args ← expressions plain Level.test args
    let kws ← keywords plain kws
    return callee ++ "(" ++ ", ".intercalate (args ++ kws) ++ ")"
  | .formatted _ value conversion none => do
    let field ← fieldStart conversion (← expression true Level.test.next value)
    return joinedText plain [((field ++ "\x7d").toList, false)]
  | .formatted _ value conversion (some spec) => do
    let field ← fieldStart conversion (← expression true Level.test.next value)
    let spec ← formatSpec spec
    return joinedText plain [((field ++ ":" ++ spec ++ "\x7d").toList, false)]
  | .joined _ items => do
    let items ← joinedItems items
    return joinedText plain items
  | .constant _ value => literal plain value
  | .attribute _ value attr => do
    let text ← expression plain Level.atom value
    return text ++ (if isIntLike value then " ." else ".") ++ attr
  | .subscript _ value (.tuple _ (first :: rest)) => do
    -- A tuple other than the empty one needs no parentheses here.
    let value ← expression plain Level.atom value
    let first ← expression plain Level.test first
    let rest ← expressions plain Level.test rest
    return value ++ "[" ++ tupleItems (first :: rest) ++ "]"
  | .subscript _ value index => do
    let value ← expression plain Level.atom value
    let index ← expression plain Level.test index
    return value ++ "[" ++ index ++ "]"
  | .starred _ value => do
    let value ← expression plain Level.bitOr value
    return "*" ++ value
  | .name _ id => return id
  | .list _ items => do
    let items ← expressions plain Level.test items
    return "[" ++ ", ".intercalate items ++ "]"
  | .tuple _ items => do
    let texts ← expressions plain Level.test items
    if texts.isEmpty then return "()"
    else return parenthesize Level.tuple asked (tupleItems texts)
  | .slice _ lower upper step => do
    let lower ← optional plain "" lower
    let upper ← optional plain "" upper
    let step ← optional plain ":" step
    return lower ++ ":" ++ upper ++ step

/-- Expressions at places of one level. -/
def expressions (plain : Bool) (asked : Level) : List Expr → Except PrintError (List String)
  | [] => return []
  | e :: rest => do
    let text ← expression plain asked e
    let texts ← expressions plain asked rest
    return text :: texts

/-- What comes of each expression at places of one level. -/
def expressionTexts (plain : Bool) (asked : Level) : List Expr → List (Except PrintError String)
  | [] => []
  | e :: rest => expression plain asked e :: expressionTexts plain asked rest

/-- Operands of one boolean operator. Each place asks for more than the one before. -/
def boolOperands (plain : Bool) (level : Level) : List Expr → Except PrintError (List String)
  | [] => return []
  | e :: rest => do
    let text ← expression plain level.next e
    let texts ← boolOperands plain level.next rest
    return text :: texts

/-- An expression with some text in front, or nothing. -/
def optional (plain : Bool) (before : String) : Option Expr → Except PrintError String
  | none => return ""
  | some e => do
    let text ← expression plain Level.test e
    return before ++ text

/-- Entries of a dict. -/
def dictItems (plain : Bool) : List DictItem → Except PrintError (List String)
  | [] => return []
  | item :: rest => do
    let text ← dictItem plain item
    let texts ← dictItems plain rest
    return text :: texts

def dictItem (plain : Bool) : DictItem → Except PrintError String
  | ⟨none, value⟩ => do
    let value ← expression plain Level.bitOr value
    return "**" ++ value
  | ⟨some key, value⟩ => do
    let key ← expression plain Level.test key
    let value ← expression plain Level.test value
    return key ++ ": " ++ value

/-- The links of a comparison chain behind the first operand. -/
def comparisons (plain : Bool) : List Comparison → Except PrintError String
  | [] => return ""
  | link :: rest => do
    let text ← comparison plain link
    let texts ← comparisons plain rest
    return text ++ texts

def comparison (plain : Bool) : Comparison → Except PrintError String
  | ⟨op, right⟩ => do
    let right ← expression plain Level.comparison.next right
    return " " ++ compareOpText op ++ " " ++ right

/-- Keyword arguments. -/
def keywords (plain : Bool) : List Keyword → Except PrintError (List String)
  | [] => return []
  | k :: rest => do
    let text ← keyword plain k
    let texts ← keywords plain rest
    return text :: texts

def keyword (plain : Bool) : Keyword → Except PrintError String
  | ⟨name, value⟩ => do
    let value ← expression plain Level.test value
    return match name with
      | none => "**" ++ value
      | some name => name ++ "=" ++ value

/-- Clauses of a comprehension. -/
def comprehensions (plain : Bool) : List Comprehension → Except PrintError String
  | [] => return ""
  | clause :: rest => do
    let text ← comprehension plain clause
    let texts ← comprehensions plain rest
    return text ++ texts

def comprehension (plain : Bool) : Comprehension → Except PrintError String
  | ⟨target, iter, conditions, isAsync⟩ => do
    let target ← expression plain Level.tuple target
    let iter ← expression plain Level.test.next iter
    let conditions ← expressions plain Level.test.next conditions
    return (if isAsync then " async for " else " for ") ++ target ++ " in " ++ iter ++
      String.join (conditions.map (" if " ++ ·))

/-- A parameter. -/
def param (plain : Bool) : Param → Except PrintError String
  | ⟨_, name, note⟩ => do
    let note ← optional plain ": " note
    return name ++ note

/-- What comes of each parameter without its default. -/
def paramTexts (plain : Bool) : List Param → List (Except PrintError String)
  | [] => []
  | p :: rest => param plain p :: paramTexts plain rest

def keywordParam (plain : Bool) : KeywordParam → Except PrintError String
  | ⟨p, default⟩ => do
    let text ← param plain p
    let default ← optional plain "=" default
    return text ++ default

/-- Parameters that only keywords can fill. -/
def keywordParams (plain : Bool) : List KeywordParam → Except PrintError (List String)
  | [] => return []
  | p :: rest => do
    let text ← keywordParam plain p
    let texts ← keywordParams plain rest
    return text :: texts

/-- A parameter with stars in front. -/
def starredParam (plain : Bool) (stars : String) : Option Param → Except PrintError (List String)
  | none => return []
  | some p => do
    let text ← param plain p
    return [stars ++ text]

/-- A parameter list. -/
def parameters (plain : Bool) : Parameters → Except PrintError String
  | ⟨positionalOnly, ordinary, defaults, variadic, keywordOnly, keywordRest⟩ => do
    let positional := paramTexts plain positionalOnly ++ paramTexts plain ordinary
    let given := (expressionTexts plain Level.test defaults).map fun text => text.map ("=" ++ ·)
    let missing := List.replicate (positional.length - given.length) (.ok "")
    let all ← pairTexts (· ++ ·) positional (missing ++ given)
    let variadic ← starredParam plain "*" variadic
    let keywordOnly ← keywordParams plain keywordOnly
    let keywordRest ← starredParam plain "**" keywordRest
    let (only, others) := all.splitAt positionalOnly.length
    let stars := if variadic.isEmpty && !keywordOnly.isEmpty then ["*"] else variadic
    return ", ".intercalate (parameterMarks only others ++ stars ++ keywordOnly ++ keywordRest)

/-- The parts of a joined string with whether they are literal text. -/
def joinedItems : List Expr → Except PrintError (List (List Char × Bool))
  | [] => return []
  | e :: rest => do
    let item ← joinedItem e
    let items ← joinedItems rest
    return item :: items

/-- A part of a joined string. A field is printed without backslashes, which it cannot hold. -/
def joinedItem : Expr → Except PrintError (List Char × Bool)
  | .constant _ (.str text _) => return (doubleBraces text.toList, true)
  | .formatted _ value conversion none => do
    let field ← fieldStart conversion (← expression true Level.test.next value)
    return ((field ++ "\x7d").toList, false)
  | .formatted _ value conversion (some spec) => do
    let field ← fieldStart conversion (← expression true Level.test.next value)
    let spec ← formatSpec spec
    return ((field ++ ":" ++ spec ++ "\x7d").toList, false)
  | _ => return ([], true)

/-- The format of a replacement field. -/
def formatSpec : Expr → Except PrintError String
  | .joined _ items => do
    let items ← joinedItems items
    return String.ofList (items.flatMap (·.1))
  | _ => return ""

end

end Addon.Script.Printer
