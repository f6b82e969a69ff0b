import Addon.Script.Parser
import Addon.Text.Trim
import Addon.Value

/-!
# Type tags

The tag of a parameter or result type. A tag given as text stands for itself. The tag of an
annotation is the last part of the name it refers to: text and numbers have tags of their own, the
other built-in types share the wildcard, and a name that is not built in is its own tag.
`Annotated[T, …]` counts as `T`, and text in an annotation as the annotation written in it.
-/

namespace Addon.TypeTag

open Script

/-- The wildcard. -/
def anyTag : String := "any"

/-- The tags of built-in types. -/
def builtinTag? : String → Option String
  | "str" => some "string"
  | "int" | "float" => some "number"
  | _ => none

/-- Names of built-in types without a tag of their own. -/
def wildNames : List String :=
  ["Any", "object", "bool", "bytes", "None", "list", "dict", "tuple", "set", "List",
    "Dict", "Tuple", "Set", "Optional", "Union", "Callable"]

/-- The name of a type that carries metadata. -/
def annotatedName : String := "Annotated"

/-- The name that an annotation refers to. `forward` reads annotations that are written as text. -/
def nameOf (forward : String → Except ParseError (Option String)) :
    Expr → Except ParseError (Option String)
  | .name _ id => .ok (some id)
  | .attribute _ _ attr => .ok (some attr)
  | .constant _ .none => .ok (some "None")
  | .constant _ (.str text _) => forward text
  | .subscript _ value (.tuple _ (first :: _)) => do
    if (← nameOf forward value) = some annotatedName then nameOf forward first else return none
  | .subscript _ value _ => do
    let _ ← nameOf forward value
    return none
  | _ => .ok none

/-- The name that an annotation written as text refers to. Text in text is followed to some depth. A
text that is itself only a text refers to nothing, and neither does one that cannot be read. -/
def forwardName : Nat → String → Except ParseError (Option String)
  | 0, _ => .ok none
  | depth + 1, text =>
    match parseExpression (String.ofList (Text.trim text.toList)) with
    | .error .invalid => .ok none
    | .error e => .error e
    | .ok (.constant _ (.str ..)) => .ok none
    | .ok e => nameOf (forwardName depth) e

/-- The tag of a name. -/
def ofName (name : String) : String :=
  if name = "" then anyTag
  else match builtinTag? name with
    | some tag => tag
    | none => if wildNames.contains name then anyTag else name

/-- The tag of an annotation. A text is longer than the texts in it, so its
length bounds the depth. -/
def ofExpr (e : Expr) : Except ParseError String := do
  match ← nameOf (fun text => forwardName (text.length + 1) text) e with
  | some name => return ofName name
  | none => return anyTag

/-- The tag of an annotation, if there is one. -/
def ofExpr? : Option Expr → Except ParseError String
  | some e => ofExpr e
  | none => .ok anyTag

/-- The tag that a value stands for. -/
def ofValue : Value → String
  | .str text => if text = "" then anyTag else text
  | _ => anyTag

end Addon.TypeTag
