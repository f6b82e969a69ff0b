import Addon.Ace.Registry
import Addon.Misfit

/-!
# The catalogue

What an editor has to know about the exported methods apart from their texts, by category and kind.
-/

namespace Addon.Descriptor

open Ace

/-- What the catalogue says about a method. -/
abbrev Entry := Fields Value

/-- The entries of each category, by kind. -/
abbrev Catalogue := Fields (ByKind (List Entry))

/-- Keys of records that the catalogue leaves out or writes in its own way. -/
def droppedKeys : List String :=
  ["category", "forward", "handler", "listName", "displayText", "description", "params"]

/-- Keys of parameters that are texts, or have them. -/
def displayKeys : List String :=
  ["name", "desc", "items"]

/-- The key of a choice. -/
def itemKey (item : Fields Value) : Except Misfit Value :=
  match item with
  | (key, _) :: _ => .ok (.str key)
  | [] => .error .emptyItem

/-- What the catalogue says about a parameter. -/
def paramEntry (p : Parameter) : Except Misfit Entry := do
  let fs : Entry := p.fields.filter fun f => !displayKeys.contains f.1
  match p.items with
  | some items => return fs.insert "items" (.list (← items.mapM itemKey))
  | none => return fs

/-- The names that a method goes by. -/
def nameFields (r : Record) : Fields Value :=
  let fs := [("id", .str r.id), ("scriptName", .str r.id)]
  if r.kind = .expression then fs ++ [("expressionName", .str r.id)] else fs

/-- What the catalogue says about a method. -/
def entry (r : Record) : Except Misfit Entry := do
  let names := nameFields r
  let others := r.fields.filter fun f => !droppedKeys.contains f.1 && !names.contains f.1
  let params ← r.params.mapM paramEntry
  return names ++ others ++ [("params", .list (params.map .dict))]

/-- What the catalogue says about the methods of a category. -/
def bucketEntries (b : Bucket) : Except Misfit (ByKind (List Entry)) := do
  return ⟨← b.action.mapM entry, ← b.condition.mapM entry, ← b.expression.mapM entry⟩

/-- The catalogue of the records of categories. -/
def catalogueOf : Fields Bucket → Except Misfit Catalogue
  | [] => .ok []
  | (category, bucket) :: rest => do
    let entries ← bucketEntries bucket
    let others ← catalogueOf rest
    return (category, entries) :: others

/-- The catalogue of a registry. -/
def catalogue (r : Registry) : Except Misfit Catalogue :=
  catalogueOf r.categories

/-- The entries of a category as a value. -/
def bucketValue (entries : ByKind (List Entry)) : Value :=
  .dict ((entries.map fun es => Value.list (es.map .dict)).toFields)

/-- The catalogue as a value. -/
def Catalogue.toValue (c : Catalogue) : Value :=
  .dict (Fields.mapValues bucketValue c)

/-- The table of methods as a value. -/
def dispatchValue (dispatch : ByKind (Fields MethodRef)) : Value :=
  .dict (dispatch.map fun refs =>
    Value.dict (refs.mapValues fun ref =>
      .dict [("class", .str ref.container), ("method", .str ref.method)])).toFields

end Addon.Descriptor
