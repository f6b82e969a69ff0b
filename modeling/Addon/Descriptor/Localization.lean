import Addon.Ace.Registry
import Addon.Json.Writer
import Addon.Manifest
import Addon.Text.Title
import Addon.Lexicon

/-!
# Localization

The texts of an addon in one language: its name and description, the labels of categories and
properties, and the texts of the exported methods. Every text goes through the lexicon of
the language on its way here.
-/

namespace Addon.Descriptor

open Ace Lexicon

/-- The texts of a parameter. -/
structure ParamTexts where
  name : Value
  desc : Value
  items : Option (Fields Value)

/-- The texts of an action or a condition. -/
structure MethodTexts where
  listName : Value
  displayText : Value
  description : Value
  params : Fields ParamTexts

/-- The texts of an expression. -/
structure ExpressionTexts where
  name : Value
  description : Value
  params : Fields ParamTexts

/-- The texts of a property. -/
structure PropertyTexts where
  name : Value
  desc : Value
  items : Option (Fields Value) := none
  linkText : Option Value := none

/-- The texts of an addon in a language. -/
structure Localization where
  tag : String
  addonType : AddonType
  addonId : String
  name : Value
  description : Value
  helpUrl : Value
  categories : List (Value × Value)
  properties : Fields PropertyTexts
  actions : Fields MethodTexts
  conditions : Fields MethodTexts
  expressions : Fields ExpressionTexts

/-! ## Gathering the texts -/

/-- The texts of choices, by their keys. -/
def itemTexts (table : Table) (items : List (Fields Value)) : Fields Value :=
  Fields.ofList (items.flatten.map fun f => (f.1, localize table f.2))

def paramTexts (table : Table) (p : Parameter) : ParamTexts :=
  ⟨localize table p.name, localize table p.desc, p.items.map (itemTexts table)⟩

/-- The texts of parameters, by their ids. -/
def paramsTexts (table : Table) (params : List Parameter) : Fields ParamTexts :=
  Fields.ofList (params.map fun p => (p.id, paramTexts table p))

def methodTexts (table : Table) (r : Record) : MethodTexts :=
  ⟨localize table r.listName, localize table (.str r.displayText), localize table r.description,
    paramsTexts table r.params⟩

def expressionTexts (table : Table) (r : Record) : ExpressionTexts :=
  ⟨localize table (.str r.id), localize table r.description, paramsTexts table r.params⟩

/-- The label of a category that the manifest gives none. -/
def categoryTitle (category : String) : Value :=
  .str (Text.titleCase category)

/-- A label is given under a name. -/
def hasLabel (labels : List (Value × Value)) (category : String) : Bool :=
  labels.any fun l => l.1.equal (.str category)

/-- The labels of the categories of the manifest and then of the other categories in use. -/
def categoryLabels (table : Table) (m : Manifest) (r : Registry) : List (Value × Value) :=
  let given := m.categories.map fun l => (l.1, localize table l.2)
  let others := r.categories.keys.filter fun category => !hasLabel given category
  given ++ others.map fun category => (.str category, localize table (categoryTitle category))

/-- The fields of a value that has some. -/
def fieldsOf : Value → Except Misfit (Fields Value)
  | .dict fields => .ok fields
  | _ => .error .noFields

/-- The id of a property. -/
def propertyId (property : Fields Value) : Except Misfit String :=
  match property.get? "id" with
  | some (.str id) => .ok id
  | _ => .error .noText

/-- The choices that the options of a property list. -/
def propertyItems (options : Value) : Except Misfit (List (Fields Value)) := do
  let fields ← fieldsOf options
  let items ← (((fields.get? "items").getD .null).orElse (.list [])).sequence
  items.mapM fieldsOf

/-- The link text that a property or its options give. -/
def propertyLinkText (property : Fields Value) (options : Value) : Except Misfit Value := do
  let fields ← fieldsOf options
  return (property.get? "linkText").getD ((fields.get? "linkText").getD (.str ""))

/-- The texts of a property, with its id. -/
def propertyTexts (table : Table) (property : Fields Value) :
    Except Misfit (String × PropertyTexts) := do
  let id ← propertyId property
  let texts : PropertyTexts :=
    { name := localize table ((property.get? "name").getD (categoryTitle id))
      desc := localize table ((property.get? "desc").getD (.str "")) }
  let options := ((property.get? "options").getD .null).orElse (.dict [])
  match (property.get? "type").bind Value.toText? with
  | some "combo" =>
    let items ← propertyItems options
    return (id, { texts with items := some (itemTexts table items) })
  | some "link" =>
    let text ← propertyLinkText property options
    return (id, { texts with linkText := some (localize table text) })
  | _ => return (id, texts)

/-- The texts of the records of a kind, by their ids. -/
def recordTexts {α : Type} (texts : Record → α) (records : List Record) : Fields α :=
  Fields.ofList (records.map fun r => (r.id, texts r))

/-- The id of an addon in a language file. -/
def addonId (m : Manifest) : String :=
  String.ofList (Unicode.lower m.id.toList)

/-- The texts of an addon in a language. -/
def localization (m : Manifest) (r : Registry) (tag : String) (table : Table) :
    Except Misfit Localization := do
  let properties ← m.properties.mapM (propertyTexts table)
  return {
    tag := tag
    addonType := m.addonType
    addonId := addonId m
    name := localize table (.str m.name)
    description := localize table m.description
    helpUrl := localize table m.documentation
    categories := categoryLabels table m r
    properties := Fields.ofList properties
    actions := recordTexts (methodTexts table) (r.flattened .action)
    conditions := recordTexts (methodTexts table) (r.flattened .condition)
    expressions := recordTexts (expressionTexts table) (r.flattened .expression) }

/-- The texts of an addon in some languages, one document for each. -/
def localizations (m : Manifest) (r : Registry) (tableOf : String → Table)
    (done : Fields Localization) :
    List String → Except Misfit (Fields Localization)
  | [] => .ok done
  | tag :: rest => do
    let texts ← localization m r tag (tableOf tag)
    localizations m r tableOf (done.insert tag texts) rest

/-! ## Documents -/

/-- A field that is only there if it has a value. -/
def optionalField (name : String) : Option Value → Fields Value
  | some v => [(name, v)]
  | none => []

def ParamTexts.toValue (t : ParamTexts) : Value :=
  .dict ([("name", t.name), ("desc", t.desc)] ++ optionalField "items" (t.items.map .dict))

def paramsValue (params : Fields ParamTexts) : Value :=
  .dict (params.mapValues ParamTexts.toValue)

def MethodTexts.toValue (t : MethodTexts) : Value :=
  .dict [("list-name", t.listName), ("display-text", t.displayText), ("description", t.description),
    ("params", paramsValue t.params)]

def ExpressionTexts.toValue (t : ExpressionTexts) : Value :=
  .dict [("translated-name", t.name), ("description", t.description),
    ("params", paramsValue t.params)]

def PropertyTexts.toValue (t : PropertyTexts) : Value :=
  .dict ([("name", t.name), ("desc", t.desc)] ++ optionalField "items" (t.items.map .dict) ++
    optionalField "link-text" t.linkText)

/-- Labels as fields. -/
def labelFields : List (Value × Value) → Except Json.WriteError (List (String × Value))
  | [] => .ok []
  | (key, label) :: rest => do
    let name ← Json.keyText key
    let others ← labelFields rest
    return (name, label) :: others

/-- The language file with the texts. -/
def Localization.toValue (l : Localization) : Except Json.WriteError Value := do
  let labels ← labelFields l.categories
  let root : Value := .dict
    [("name", l.name), ("description", l.description), ("help-url", l.helpUrl),
      ("aceCategories", .dict labels),
      ("properties", .dict (l.properties.mapValues PropertyTexts.toValue)),
      ("actions", .dict (l.actions.mapValues MethodTexts.toValue)),
      ("conditions", .dict (l.conditions.mapValues MethodTexts.toValue)),
      ("expressions", .dict (l.expressions.mapValues ExpressionTexts.toValue))]
  return .dict
    [("languageTag", .str l.tag), ("fileDescription", .str s!"Strings for {l.addonId}."),
      ("text", .dict [(l.addonType.textRoot, .dict [(l.addonId, root)])])]

end Addon.Descriptor
