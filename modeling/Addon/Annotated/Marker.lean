import Addon.Ace.Kind
import Addon.Script.Printer.Statement
import Addon.Value

/-!
# Markers

Markers are the decorators and annotations that say which methods an addon exports. A script may use
their plain names, names that it imports them under, and attributes of the module that defines them.
-/

namespace Addon.Annotated

open Script

/-- The markers of methods. -/
inductive MethodMarker where
  | action
  | condition
  /-- A condition that fires by itself. -/
  | trigger
  | expression
deriving DecidableEq, Repr

/-- What a decorator or annotation can mark. -/
inductive Marker where
  /-- A class whose marked methods are exported. -/
  | container
  /-- Options of a parameter. -/
  | param
  /-- An exported method. -/
  | method (m : MethodMarker)
  /-- Something in the markers' module that marks nothing. -/
  | other (name : String)
deriving DecidableEq, Repr

namespace MethodMarker

def kind : MethodMarker → Ace.Kind
  | .action => .action
  | .condition | .trigger => .condition
  | .expression => .expression

/-- The options that a marker brings along. -/
def impliedOptions : MethodMarker → Fields Value
  | .trigger => [("isTrigger", .bool true)]
  | _ => []

end MethodMarker

namespace Marker

/-- The marker of a plain name. -/
def ofName? : String → Option Marker
  | "AceClass" => some .container
  | "Param" => some .param
  | "Action" => some (.method .action)
  | "Condition" => some (.method .condition)
  | "Trigger" => some (.method .trigger)
  | "Expression" => some (.method .expression)
  | _ => none

/-- The marker of a name in the markers' module. -/
def ofAttribute (name : String) : Marker :=
  (ofName? name).getD (.other name)

end Marker

/-- The package of the markers. -/
def packageName : String := "acebuild"

/-- The name of the markers' module in its package. -/
def markersName : String := "markers"

/-- The markers' module. -/
def markersModule : String := packageName ++ "." ++ markersName

/-- What a script calls the markers and their module. -/
structure MarkerNames where
  markers : Fields Marker := []
  modules : List String := [markersModule]

namespace MarkerNames

/-- Takes up the names that an import of markers binds. -/
def addMarkers (names : MarkerNames) (imported : List Alias) : MarkerNames :=
  { names with markers := imported.foldl (fun acc a =>
      match Marker.ofName? a.name with
      | some marker => acc.insert (a.asName.getD a.name) marker
      | none => acc) names.markers }

/-- Takes up the names that an import from the package binds to the markers' module. -/
def addFromPackage (names : MarkerNames) (imported : List Alias) : MarkerNames :=
  { names with modules := names.modules ++ imported.filterMap fun a =>
      if a.name = markersName then some (a.asName.getD a.name) else none }

/-- Takes up the names that a plain import binds to the markers' module. -/
def addModules (names : MarkerNames) (imported : List Alias) : MarkerNames :=
  { names with modules := names.modules ++ imported.filterMap fun a =>
      if a.name = markersModule then a.asName else none }

/-- Takes up what a statement imports. -/
def addStmt (names : MarkerNames) : Stmt → MarkerNames
  | .importFrom _ (some source) imported _ =>
    if source = markersModule then names.addMarkers imported
    else if source = packageName then names.addFromPackage imported
    else names
  | .importNames _ imported => names.addModules imported
  | _ => names

/-- The names of a script. -/
def ofModule (m : Module) : MarkerNames :=
  m.body.foldl addStmt {}

/-- The marker that a name or attribute refers to. -/
def target (names : MarkerNames) : Expr → Except Printer.PrintError (Option Marker)
  | .name _ id => .ok ((names.markers.get? id).or (Marker.ofName? id))
  | .attribute _ value attr => do
    let path ← value.print
    return if names.modules.contains path then some (.ofAttribute attr) else none
  | _ => .ok none

/-- The marker that an expression is, called or not. -/
def resolve (names : MarkerNames) : Expr → Except Printer.PrintError (Option Marker)
  | .call _ callee _ _ => names.target callee
  | e => names.target e

end MarkerNames

end Addon.Annotated
