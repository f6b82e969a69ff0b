import Addon.File.Text
import Addon.Manifest
import Addon.Static.Environment

/-!
# Configurations

The configuration of an addon is a JSON document, or a script that assigns it. A script is evaluated
statically; of several assignments the last one counts, and it is evaluated with the constants that
the script ends with.
-/

namespace Addon.Config

open Script

/-- The names that a configuration can be assigned to. -/
def configNames : List String :=
  ["config", "Config"]

/-- The name and the expression of an assignment to one name. -/
def assigned? : Stmt → Option (String × Expr)
  | .assign _ [.name _ id] value => some (id, value)
  | .annAssign _ (.name _ id) _ (some value) _ => some (id, value)
  | _ => none

/-- The last expression that is assigned to a configuration. -/
def expression? (m : Module) : Option Expr :=
  (m.body.filterMap fun s => match assigned? s with
    | some (name, value) => if configNames.contains name then some value else none
    | none => none).getLast?

/-- The configuration that a script assigns. -/
def ofScript (source : String) : Attempt Value := do
  let m ← .ofParse (parseModule source)
  let env ← .ofValue (Static.environment m)
  match expression? m with
  | none => throw (.complaint (.plain .noConfig))
  | some e =>
    match Static.evalIn env e with
    | .ok v => return v.safe
    | .error (.refused r) => complainAt { source := some source.toList } (.configNotStatic r) e
    | .error (.fault f) => throw (.fault f)

/-- The configuration in a JSON document. -/
def ofJson (path : File.Path) (cs : List Char) : Attempt Value :=
  match Json.read cs with
  | .ok v => .ok v
  | .error (.missed what offset) =>
    .error (.complaint (.plain (.configNoJson path.toText (Json.missedMessage cs what offset))))
  | .error (.tooManyDigits count) => .error (.fault (.tooManyDigitsRead count))

/-- The manifest in the text of a configuration. -/
def manifest (path : File.Path) (cs : List Char) : Attempt Manifest := do
  let data ← if path.suffix = ".json" then ofJson path cs else ofScript (String.ofList cs)
  match data with
  | .dict fields => Manifest.ofFields fields
  | _ => throw (.complaint (.plain (.configNoMapping path.toText)))

/-- Reads the configuration of an addon. -/
def load (t : File.Tree) (path : File.Path) : Attempt Manifest := do
  manifest path (← t.readText path)

end Addon.Config
