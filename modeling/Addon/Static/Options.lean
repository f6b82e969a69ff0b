import Addon.Failure
import Addon.Static.Eval

/-!
# Static options

The arguments of markers: dict displays with literal keys and keyword arguments, all of whose values
can be evaluated statically. The values are made safe for documents.
-/

namespace Addon.Static

open Script

/-- The value of an argument. The key names the argument in the complaint. -/
def resolve (scope : Scope) (env : Env) (key : String) (e : Expr) : Attempt Value :=
  match evalIn env e with
  | .ok v => .ok v.safe
  | .error (.refused _) => complainAt scope (.notStatic key) e
  | .error (.fault f) => .error (.fault f)

/-- The values of the entries of a dict display. -/
def resolveEntries (scope : Scope) (env : Env) (options : Fields Value) :
    List DictItem → Attempt (Fields Value)
  | [] => .ok options
  | ⟨none, value⟩ :: _ => complainAt scope .optionUnpacking value
  | ⟨some (.constant _ (.str key _)), value⟩ :: rest => do
    let v ← resolve scope env key value
    resolveEntries scope env (options.insert key v) rest
  | ⟨some key, _⟩ :: _ => complainAt scope .optionKeyNoText key

/-- The values of a dict display. -/
def resolveOptions (scope : Scope) (env : Env) : Option Expr → Attempt (Fields Value)
  | none => .ok []
  | some (.dict _ items) => resolveEntries scope env [] items
  | some e => complainAt scope .optionsNoDict e

/-- The values of keyword arguments, put into a table. -/
def resolveKeywordsInto (scope : Scope) (env : Env) (options : Fields Value) :
    List Keyword → Attempt (Fields Value)
  | [] => .ok options
  | ⟨none, value⟩ :: _ => complainAt scope .keywordUnpacking value
  | ⟨some name, value⟩ :: rest => do
    let v ← resolve scope env name value
    resolveKeywordsInto scope env (options.insert name v) rest

/-- The values of keyword arguments. -/
def resolveKeywords (scope : Scope) (env : Env) (keywords : List Keyword) :
    Attempt (Fields Value) :=
  resolveKeywordsInto scope env [] keywords

end Addon.Static
