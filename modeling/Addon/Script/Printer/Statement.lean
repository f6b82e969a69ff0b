import Addon.Script.Printer.Expression

/-!
# Printing statements

A statement is printed as rows. A row starts with its indentation and may hold line feeds
of its own inside a string. Functions and classes have an empty row in front, which a
script does not start with.
-/

namespace Addon.Script

namespace Printer

/-- A row at an indentation of so many steps. -/
def row (indent : Nat) (text : String) : String :=
  String.ofList (List.replicate (4 * indent) ' ') ++ text

/-! ## Patterns -/

mutual

/-- A pattern at a place of the given level. -/
def pattern (asked : Level) : Pattern → Except PrintError String
  | .value e => expression false Level.test e
  | .singleton value => literal false value
  | .sequence items => do
    let items ← patterns Level.test items
    return "[" ++ ", ".intercalate items ++ "]"
  | .mapping keys items rest => do
    let pairs ← pairTexts (fun key item => key ++ ": " ++
      item) (expressionTexts false Level.test keys)
      (patternTexts items)
    let rest := match rest with
      | some name => ["**" ++ name]
      | none => []
    return "\x7b" ++ ", ".intercalate (pairs ++ rest) ++ "\x7d"
  | .ofClass callee items names named => do
    let callee ← expression false Level.atom callee
    let items ← patterns Level.test items
    let named ← patterns Level.test named
    let pairs := List.zipWith (fun n p => n ++ "=" ++ p) names named
    return callee ++ "(" ++ ", ".intercalate (items ++ pairs) ++ ")"
  | .star name => return "*" ++ name.getD "_"
  | .capture _ none => return "_"
  | .capture none (some name) => return name
  | .capture (some item) (some name) => do
    let item ← pattern Level.bitOr item
    return parenthesize Level.test asked (item ++ " as " ++ name)
  | .alternatives items => do
    let items ← patterns Level.bitOr.next items
    return parenthesize Level.bitOr asked (" | ".intercalate items)

/-- What comes of each pattern on its own. -/
def patternTexts : List Pattern → List (Except PrintError String)
  | [] => []
  | p :: rest => pattern Level.test p :: patternTexts rest

/-- Patterns at places of one level. -/
def patterns (asked : Level) : List Pattern → Except PrintError (List String)
  | [] => return []
  | p :: rest => do
    let text ← pattern asked p
    let texts ← patterns asked rest
    return text :: texts

end

/-! ## Parts of statements -/

/-- An imported name. -/
def aliasText (a : Alias) : String :=
  match a.asName with
  | some name => a.name ++ " as " ++ name
  | none => a.name

def aliasesText (names : List Alias) : String :=
  ", ".intercalate (names.map aliasText)

/-- An expression on its own, such as the value of an assignment. -/
def value (e : Expr) : Except PrintError String :=
  expression false Level.test e

/-- An expression with text in front of it, or nothing. -/
def valueAfter (before : String) : Option Expr → Except PrintError String
  | none => return ""
  | some e => return before ++ (← value e)

/-- An item of a `with` statement. -/
def withItemText (item : WithItem) : Except PrintError String := do
  return (← value item.value) ++ (← valueAfter " as " item.target)

/-- The rows of decorators. -/
def decoratorRows (indent : Nat) (decorators : List Expr) : Except PrintError (List String) :=
  decorators.mapM fun d => return row indent ("@" ++ (← value d))

/-- The string at the start of a body that documents what the body belongs to. -/
def docString? : List Stmt → Option (String × Bool)
  | .expr _ (.constant _ (.str text marked)) :: _ => some (text, marked)
  | _ => none

/-- The row of a documenting string, which is always in triple quotes. -/
def docRow (indent : Nat) (text : String) (marked : Bool) : String :=
  row indent ((if marked then "u" else "") ++ String.ofList (enclose tripleQuotes text.toList))

/-- Replaces the first row by that of a documenting string, if there is one. -/
def withDocRow (indent : Nat) (body : List Stmt) (rows : List String) : List String :=
  match docString? body with
  | some (text, marked) => docRow indent text marked :: rows.drop 1
  | none => rows

/-! ## Statements -/

mutual

/-- The rows of a statement. -/
def statement (indent : Nat) : Stmt → Except PrintError (List String)
  | .functionDef _ isAsync name ps body decorators returns => do
    let decorators ← decoratorRows indent decorators
    let ps ← parameters false ps
    let returns ← valueAfter " -> " returns
    let word := if isAsync then "async def " else "def "
    let rows ← statements (indent + 1) body
    return "" :: decorators ++ row indent (word ++ name ++ "(" ++ ps ++ ")" ++ returns ++ ":") ::
      withDocRow (indent + 1) body rows
  | .classDef _ name bases kws body decorators => do
    let decorators ← decoratorRows indent decorators
    let bases ← expressions false Level.test bases
    let kws ← keywords false kws
    let args := bases ++ kws
    let head := if args.isEmpty then name else name ++ "(" ++ ", ".intercalate args ++ ")"
    let rows ← statements (indent + 1) body
    return "" :: decorators ++ row indent ("class " ++ head ++ ":") ::
      withDocRow (indent + 1) body rows
  | .return _ result => do
    return [row indent ("return" ++ (← valueAfter " " result))]
  | .delete _ targets => do
    return [row indent ("del " ++ ", ".intercalate (← expressions false Level.test targets))]
  | .assign _ targets e => do
    let targets ← expressions false Level.tuple targets
    return [row indent (" = ".intercalate (targets ++ [← value e]))]
  | .augAssign _ target op e => do
    let target ← value target
    return [row indent (target ++ " " ++ binaryOpText op ++ "= " ++ (← value e))]
  | .annAssign _ target note e simple => do
    let isName := match target with
      | .name .. => true
      | _ => false
    let target ← value target
    let target := if isName && !simple then "(" ++ target ++ ")" else target
    let note ← value note
    return [row indent (target ++ ": " ++ note ++ (← valueAfter " = " e))]
  | .for _ isAsync target iter body orElse => do
    let target ← expression false Level.tuple target
    let iter ← value iter
    let rows ← statements (indent + 1) body
    let last ← orElseRows indent orElse
    let word := if isAsync then "async for " else "for "
    return row indent (word ++ target ++ " in " ++ iter ++ ":") :: rows ++ last
  | .while _ test body orElse => do
    let test ← value test
    let rows ← statements (indent + 1) body
    let last ← orElseRows indent orElse
    return row indent ("while " ++ test ++ ":") :: rows ++ last
  | .if _ test body orElse => do
    let test ← value test
    let rows ← statements (indent + 1) body
    let last ← branchRows indent orElse
    return row indent ("if " ++ test ++ ":") :: rows ++ last
  | .with _ isAsync items body => do
    let items ← items.mapM withItemText
    let rows ← statements (indent + 1) body
    let word := if isAsync then "async with " else "with "
    return row indent (word ++ ", ".intercalate items ++ ":") :: rows
  | .match _ subject cases => do
    let subject ← value subject
    let rows ← matchCases (indent + 1) cases
    return row indent ("match " ++ subject ++ ":") :: rows
  | .raise _ none _ => return [row indent "raise"]
  | .raise _ (some e) cause => do
    return [row indent ("raise " ++ (← value e) ++ (← valueAfter " from " cause))]
  | .try _ isGroup body hs orElse atEnd => do
    let rows ← statements (indent + 1) body
    let hs ← handlers indent isGroup hs
    let last ← orElseRows indent orElse
    let final ← statements (indent + 1) atEnd
    let final := if final.isEmpty then [] else row indent "finally:" :: final
    return row indent "try:" :: rows ++ hs ++ last ++ final
  | .assert _ test message => do
    return [row indent ("assert " ++ (← value test) ++ (← valueAfter ", " message))]
  | .importNames _ names => return [row indent ("import " ++ aliasesText names)]
  | .importFrom _ path names level =>
    let dots := String.ofList (List.replicate level '.')
    return [row indent ("from " ++ dots ++ path.getD "" ++ " import " ++ aliasesText names)]
  | .global _ names => return [row indent ("global " ++ ", ".intercalate names)]
  | .nonlocal _ names => return [row indent ("nonlocal " ++ ", ".intercalate names)]
  | .expr _ e => return [row indent (← expression false Level.yield e)]
  | .pass _ => return [row indent "pass"]
  | .break _ => return [row indent "break"]
  | .continue _ => return [row indent "continue"]

/-- The rows of statements. -/
def statements (indent : Nat) : List Stmt → Except PrintError (List String)
  | [] => return []
  | s :: rest => do
    let rows ← statement indent s
    let others ← statements indent rest
    return rows ++ others

/-- The rows of an `else` block. -/
def orElseRows (indent : Nat) : List Stmt → Except PrintError (List String)
  | [] => return []
  | s :: rest => do
    let rows ← statement (indent + 1) s
    let others ← statements (indent + 1) rest
    return row indent "else:" :: rows ++ others

/-- The rows of the last block of an `if`; a lone `if` in it is a further branch. -/
def branchRows (indent : Nat) : List Stmt → Except PrintError (List String)
  | [] => return []
  | [.if _ test body orElse] => do
    let test ← value test
    let rows ← statements (indent + 1) body
    let last ← branchRows indent orElse
    return row indent ("elif " ++ test ++ ":") :: rows ++ last
  | s :: rest => do
    let rows ← statement (indent + 1) s
    let others ← statements (indent + 1) rest
    return row indent "else:" :: rows ++ others

/-- The rows of `except` blocks. -/
def handlers (indent : Nat) (isGroup : Bool) : List Handler → Except PrintError (List String)
  | [] => return []
  | h :: rest => do
    let rows ← handler indent isGroup h
    let others ← handlers indent isGroup rest
    return rows ++ others

def handler (indent : Nat) (isGroup : Bool) : Handler → Except PrintError (List String)
  | ⟨type, name, body⟩ => do
    let type ← valueAfter " " type
    let rows ← statements (indent + 1) body
    let word := if isGroup then "except*" else "except"
    let name := match name with
      | some name => " as " ++ name
      | none => ""
    return row indent (word ++ type ++ name ++ ":") :: rows

/-- The rows of `case` blocks. -/
def matchCases (indent : Nat) : List MatchCase → Except PrintError (List String)
  | [] => return []
  | c :: rest => do
    let rows ← matchCase indent c
    let others ← matchCases indent rest
    return rows ++ others

def matchCase (indent : Nat) : MatchCase → Except PrintError (List String)
  | ⟨p, condition, body⟩ => do
    let p ← pattern Level.test p
    let condition ← valueAfter " if " condition
    let rows ← statements (indent + 1) body
    return row indent ("case " ++ p ++ condition ++ ":") :: rows

end

/-- The rows of a script. -/
def scriptRows (m : Module) : Except PrintError (List String) := do
  let rows := withDocRow 0 m.body (← statements 0 m.body)
  return if rows.head? = some "" then rows.drop 1 else rows

end Printer

/-- The text of a script without a line feed at its end. -/
def Module.print (m : Module) : Except Printer.PrintError String := do
  return "\n".intercalate (← Printer.scriptRows m)

/-- The text of an expression that stands on its own. -/
def Expr.print (e : Expr) : Except Printer.PrintError String :=
  Printer.expression false Printer.Level.test e

end Addon.Script
