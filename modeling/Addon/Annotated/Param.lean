import Addon.Ace.Record
import Addon.Annotated.Marker
import Addon.Annotated.Spans
import Addon.Static.Options
import Addon.Text.Title
import Addon.TypeTag

/-!
# Parameters

The parameters of an exported method: the positional ones, without the first unless the method is
static. Their options come from a marker in the annotation and their initial values from the
defaults of the signature.
-/

namespace Addon.Annotated

open Script Source

/-- What is fixed while a script is read. -/
structure Reading where
  index : Index
  env : Static.Env
  names : MarkerNames

/-- The marker of an expression. -/
def Reading.markerOf (r : Reading) (e : Expr) : Attempt (Option Marker) :=
  .ofPrint (r.names.resolve e)

/-- The items of `Annotated[…]`, if there is metadata among them. -/
def annotatedItems? : Expr → Option (List Expr)
  | .subscript _ (.name _ id) (.tuple _ (base :: data :: rest)) =>
    if id = TypeTag.annotatedName then some (base :: data :: rest) else none
  | .subscript _ (.attribute _ _ attr) (.tuple _ (base :: data :: rest)) =>
    if attr = TypeTag.annotatedName then some (base :: data :: rest) else none
  | _ => none

/-- The places and the expressions of the parameter markers in a list, counted from a place on. -/
def paramMarkers (r : Reading) : Nat → List Expr → Attempt (List (Nat × Expr))
  | _, [] => .ok []
  | place, e :: rest => do
    let marker ← r.markerOf e
    let others ← paramMarkers r (place + 1) rest
    return if marker = some .param then (place, e) :: others else others

/-- What an annotation says: the type, the marker, and the spans that the marker takes up. -/
structure Note where
  type : Option Expr
  marker : Option Expr := none
  spans : List Span := []

/-- What the annotation of a parameter says. -/
def readNote (scope : Scope) (r : Reading) (param : Script.Param) : Attempt Note := do
  match param with
  | ⟨_, _, none⟩ => return { type := none }
  | ⟨_, name, some note⟩ =>
    if (← r.markerOf note) = some .param then
      return { type := none, marker := some note, spans := [← bareSpan r.index param note] }
    else match annotatedItems? note with
      | none => return { type := some note }
      | some items =>
        match ← paramMarkers r 1 items.tail with
        | [] => return { type := items.head? }
        | [(place, marker)] =>
          let spans ← metadataSpans r.index note items place
          return { type := items.head?, marker := some marker, spans := spans }
        | _ => complainAt scope (.severalParamMarkers name) note

/-- The options of the marker of a parameter. -/
def paramOptions (scope : Scope) (env : Static.Env) (param : String) :
    Option Expr → Attempt (Fields Value)
  | some (.call x callee args keywords) =>
    match args with
    | [] => do
      let named ← Static.resolveKeywords scope env keywords
      return named
    | [.dict y items] => do
      let options ← Static.resolveOptions scope env (some (.dict y items))
      let named ← Static.resolveKeywords scope env keywords
      return options.merge named
    | _ => complainAt scope (.paramOptionArgument param) (.call x callee args keywords)
  | _ => .ok []

/-- The choices of a parameter: a list of dicts with one key each. -/
def itemsOf? : List Value → Option (List (Fields Value))
  | [] => some []
  | .dict [field] :: rest => (itemsOf? rest).map ([field] :: ·)
  | _ => none

/-- The choices of a parameter, if it has any. -/
def paramItems (scope : Scope) (param : Script.Param) :
    Option Value → Attempt (Option (List (Fields Value)))
  | none | some .null => .ok none
  | some (.list values) =>
    match itemsOf? values with
    | some items => .ok (some items)
    | none => complain scope (.itemsNoSingleKeys param.name) (some (.ofExtent param.extent))
  | some _ => complain scope (.itemsNoSingleKeys param.name) (some (.ofExtent param.extent))

/-- The options of a parameter that have fields of their own. -/
def paramOptionKeys : List String :=
  ["id", "name", "desc", "type", "initialValue", "items"]

/-- The id of a parameter. -/
def paramId (scope : Scope) (param : Script.Param) (options : Fields Value) : Attempt String :=
  match options.get? "id" with
  | none => .ok param.name
  | some (.str id) =>
    if id = "" then complain scope (.paramIdNoText param.name) (some (.ofExtent param.extent))
    else .ok id
  | some _ => complain scope (.paramIdNoText param.name) (some (.ofExtent param.extent))

/-- The initial value of a parameter: its default, unless that is nothing, or else the option. -/
def initialValue (scope : Scope) (env : Static.Env) (default : Option Expr)
    (options : Fields Value) :
    Attempt (Option Value) := do
  match default with
  | none => return options.get? "initialValue"
  | some e =>
    match ← Static.resolve scope env "initialValue" e with
    | .null => return options.get? "initialValue"
    | v => return some v

/-- The tag of the type of a parameter. -/
def paramType (options : Fields Value) (type : Option Expr) : Attempt String :=
  match options.get? "type" with
  | some v => .ok (TypeTag.ofValue v)
  | none => .ofParse (TypeTag.ofExpr? type)

/-- Reads a parameter with its default. Gives the spans to cut out as well. -/
def readParam (scope : Scope) (r : Reading) (param : Script.Param) (default : Option Expr) :
    Attempt (Ace.Parameter × List Span) := do
  let note ← readNote scope r param
  let options ← paramOptions scope r.env param.name note.marker
  let id ← paramId scope param options
  let initial ← initialValue scope r.env default options
  let type ← paramType options note.type
  let items ← paramItems scope param (options.get? "items")
  return (
    { id := id
      name := (options.get? "name").getD (.str (Text.titleCase id))
      desc := (options.get? "desc").getD (.str "")
      type := type
      initialValue := initial
      items := items
      extra := options.filter fun f => !paramOptionKeys.contains f.1 },
    note.spans)

/-- Pairs the positional parameters of a function with their defaults, which
belong to the last ones. -/
def withDefaults (params : Parameters) : List (Script.Param × Option Expr) :=
  let positional := params.positionalOnly ++ params.ordinary
  let missing := positional.length - params.defaults.length
  positional.zip (List.replicate missing none ++ params.defaults.map some)

/-- A function has only positional parameters. -/
def isPositional (params : Parameters) : Bool :=
  params.variadic.isNone && params.keywords.isNone && params.keywordOnly.isEmpty

/-- A decorator that makes a method static. -/
def isStaticMark : Expr → Bool
  | .name _ id => id = "staticmethod"
  | _ => false

/-- The parameters of a method that a caller fills, with their defaults. -/
def callerParams (params : Parameters) (decorators : List Expr) :
    List (Script.Param × Option Expr) :=
  if decorators.any isStaticMark then withDefaults params else (withDefaults params).drop 1

/-- Reads parameters in order. -/
def readParams (scope : Scope) (r : Reading) :
    List (Script.Param × Option Expr) → Attempt (List Ace.Parameter × List Span)
  | [] => .ok ([], [])
  | (param, default) :: rest => do
    let (p, spans) ← readParam scope r param default
    let (others, more) ← readParams scope r rest
    return (p :: others, spans ++ more)

end Addon.Annotated
