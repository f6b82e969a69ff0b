import Addon.Annotated.Param
import Addon.Text.Dedent

/-!
# Methods

A method with a marker becomes a record. The marker takes an optional display text and options; what
is not given comes from the name, the documentation and the signature of the method.
-/

namespace Addon.Annotated

open Script Source

/-- The category of methods that name none. -/
def defaultCategory : String := "general"

/-- A function in a class. -/
structure Method where
  extent : Extent
  name : String
  params : Parameters
  body : List Stmt
  decorators : List Expr
  returns : Option Expr

namespace Method

/-- The method that a statement defines. -/
def ofStmt? : Stmt → Option Method
  | .functionDef extent _ name params body decorators returns =>
    some ⟨extent, name, params, body, decorators, returns⟩
  | _ => none

/-- The documentation of a method. -/
def documentation (m : Method) : String :=
  match m.body with
  | .expr _ (.constant _ (.str text _)) :: _ => String.ofList (Text.dedent text.toList)
  | _ => ""

end Method

/-- The decorators that are markers. -/
def markedDecorators (r : Reading) : List Expr → Attempt (List (Expr × Marker))
  | [] => .ok []
  | e :: rest => do
    let marker ← r.markerOf e
    let others ← markedDecorators r rest
    return match marker with
      | some marker => (e, marker) :: others
      | none => others

/-- An argument that is unpacked. -/
def isStarred : Expr → Bool
  | .starred .. => true
  | _ => false

/-- The arguments of a marker: a display text and options, either of which may be missing. -/
def splitArguments? : List Expr → Option (Option Expr × Option Expr)
  | [] => some (none, none)
  | [.dict x items] => some (none, some (.dict x items))
  | [e] => some (some e, none)
  | [e, .dict x items] => some (some e, some (.dict x items))
  | _ => none

/-- The display text that a marker gives. -/
def displayText (scope : Scope) (env : Static.Env) (method : String) (decorator : Expr)
    (argument : Option Expr) (options : Fields Value) : Attempt (Option String) := do
  let v ← match argument with
    | some e => Static.resolve scope env "displayText" e
    | none => pure ((options.get? "displayText").getD .null)
  match v with
  | .null => return none
  | .str text => return some text
  | _ => complainAt scope (.displayTextNoText method) decorator

/-- The display text and the options of a marker. -/
def markerArguments (scope : Scope) (env : Static.Env) (method : String) (marker : MethodMarker)
    (decorator : Expr) : Attempt (Option String × Fields Value) :=
  match decorator with
  | .call _ _ args keywords =>
    if args.any isStarred then complainAt scope (.starArguments method) decorator
    else match splitArguments? args with
      | none => complainAt scope (.optionArgument method) decorator
      | some (text, options) => do
        let given ← Static.resolveOptions scope env options
        let named ← Static.resolveKeywords scope env keywords
        let options := (marker.impliedOptions.merge given).merge named
        let text ← displayText scope env method decorator text options
        return (text, options)
  | _ => .ok (none, marker.impliedOptions)

/-- The slots for so many parameters. -/
def slots (count : Nat) : String :=
  ", ".intercalate ((List.range count).map fun (i : Nat) => "\x7b" ++ toString i ++ "\x7d")

/-- The display text of a method that gives none. -/
def defaultDisplayText (title : String) (count : Nat) : String :=
  if count = 0 then title else s!"{title} ({slots count})"

/-- The category of a method. -/
def category (scope : Scope) (method : String) (options : Fields Value) : Attempt String :=
  match options.get? "category" with
  | none => .ok defaultCategory
  | some v =>
    if v.isTruthy then
      match v with
      | .str text => .ok text
      | _ => complain scope (.categoryNoText method)
    else .ok defaultCategory

/-- The description of a method: the option, unless that is nothing, or else its documentation. -/
def description (m : Method) (options : Fields Value) : Value :=
  match options.get? "description" with
  | none | some .null => .str m.documentation
  | some v => v

/-- The tag of what a method returns: only expressions have one, unless it is given. -/
def returnType (m : Method) (kind : Ace.Kind) (options : Fields Value) :
    Attempt (Option String) := do
  match options.get? "returnType" with
  | some v => return some (TypeTag.ofValue v)
  | none =>
    if kind = .expression then return some (← .ofParse (TypeTag.ofExpr? m.returns))
    else return none

/-- The options of a method that have fields of their own. -/
def recordOptionKeys : List String :=
  ["category", "description", "listName", "displayText", "returnType"]

/-- Reads a method with its marker. Gives the spans to cut out as well. -/
def readMarked (scope : Scope) (r : Reading) (m : Method) (decorator : Expr)
    (marker : MethodMarker) :
    Attempt (Ace.Record × List Span) := do
  let span ← decoratorSpan scope r.index decorator
  let (given, options) ← markerArguments scope r.env m.name marker decorator
  if !isPositional m.params then complain scope (.openParameters m.name)
  else
    let (params, spans) ← readParams scope r (callerParams m.params m.decorators)
    let title := Text.titleCase m.name
    let text := match given with
      | some text => if text = "" then defaultDisplayText title params.length else text
      | none => defaultDisplayText title params.length
    let category ← category scope m.name options
    let returns ← returnType m marker.kind options
    return (
      { id := m.name
        kind := marker.kind
        category := category
        displayText := text
        listName := (options.get? "listName").getD (.str title)
        description := description m options
        params := params
        returnType := returns
        overrides := options.filter fun f => !recordOptionKeys.contains f.1 },
      span :: spans)

/-- Reads a method, if it has a marker. -/
def readMethod (scope : Scope) (r : Reading) (m : Method) :
    Attempt (Option (Ace.Record × List Span)) := do
  match ← markedDecorators r m.decorators with
  | [] => return none
  | [(decorator, .method marker)] => return some (← readMarked scope r m decorator marker)
  | [(decorator, _)] => complainAt scope (.unknownMarker m.name) decorator
  | _ => complain scope (.severalMarkers m.name)

end Addon.Annotated
