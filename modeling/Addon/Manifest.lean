import Addon.Failure
import Addon.Value.Compare
import Addon.Value.Text

/-!
# Manifests

What a configuration says about an addon. The type, the id, the name and the version are required;
much of the rest may be any value and is passed on as it is.
-/

namespace Addon

inductive AddonType where
  | plugin
  | behavior
  | effect
deriving DecidableEq, Repr

namespace AddonType

def name : AddonType → String
  | .plugin => "plugin"
  | .behavior => "behavior"
  | .effect => "effect"

/-- The section of a language file for addons of the type. -/
def textRoot : AddonType → String
  | .plugin => "plugins"
  | .behavior => "behaviors"
  | .effect => "effects"

def ofName? : String → Option AddonType
  | "plugin" => some .plugin
  | "behavior" => some .behavior
  | "effect" => some .effect
  | _ => none

end AddonType

/-- A further file that an addon needs. -/
structure FileDependency where
  filename : String
  type : Value
  fileType : Value

structure Manifest where
  addonType : AddonType
  id : String
  name : String
  version : String
  author : Value
  website : Value
  documentation : Value
  description : Value
  category : Value
  icon : Value
  addonUrl : Value
  githubUrl : Value
  /-- Each property has an id. -/
  properties : List (Fields Value)
  /-- Labels of categories. -/
  categories : List (Value × Value)
  fileDependencies : List FileDependency
  info : Value

namespace Value

/-- The values that a value is a sequence of: the items of a list, the characters of a
text, the keys of a dict. -/
def sequence : Value → Except Misfit (List Value)
  | .list items | .tuple items => .ok items
  | .str text => .ok (text.toList.map fun c => .str c.toString)
  | .dict fields => .ok (fields.map fun f => .str f.1)
  | .null | .bool _ | .int _ | .float _ | .nan _ | .complex .. => .error .noSequence

/-- The value, unless it counts as false. -/
def orElse (v other : Value) : Value :=
  if v.isTruthy then v else other

end Value

namespace Manifest

/-- The keys that a configuration needs. -/
def requiredKeys : List String :=
  ["addonType", "id", "name", "version"]

/-- The value under a key, or nothing. -/
def value (data : Fields Value) (key : String) : Value :=
  (data.get? key).getD .null

/-- A value under a key that may be missing. -/
def valueOr (data : Fields Value) (key : String) (default : Value) : Value :=
  (data.get? key).getD default

/-- The required keys that a configuration lacks. -/
def missingKeys (data : Fields Value) : List String :=
  requiredKeys.filter fun key => !(value data key).isTruthy

/-- The type of an addon. -/
def readType (v : Value) : Attempt AddonType := do
  if v.unhashable?.isSome then throw (.misfit .noKey)
  match v.toText?.bind AddonType.ofName? with
  | some type => return type
  | none => throw (.complaint (.plain (.unknownAddonType (← .ofValue v.text))))

/-- A further file. -/
def readDependency : Value → Attempt FileDependency
  | .dict fields =>
    match Fields.get? fields "filename" with
    | some (.str filename) => .ok
      ⟨filename, valueOr fields "type" (.str "copy-to-output"), value fields "fileType"⟩
    | _ => .error (.complaint (.plain .dependencyNoFilename))
  | _ => .error (.complaint (.plain .dependencyNoFilename))

/-- A property. -/
def readProperty : Value → Attempt (Fields Value)
  | .dict fields =>
    if Fields.contains fields "id" then .ok fields
    else .error (.complaint (.plain .propertyNoId))
  | _ => .error (.complaint (.plain .propertyNoId))

/-- Puts a label under a key. -/
def putLabel (labels : List (Value × Value)) (key label : Value) : List (Value × Value) :=
  match labels with
  | [] => [(key, label)]
  | (k, l) :: rest => if k.alike key then (k, label) :: rest else (k, l) :: putLabel rest key label

/-- Labels that are given as pairs. -/
def readPairs (labels : List (Value × Value)) :
    Nat → List Value → Except Misfit (List (Value × Value))
  | _, [] => .ok labels
  | place, v :: rest => do
    match ← v.sequence with
    | [key, label] =>
      if key.unhashable?.isSome then throw .noKey
      readPairs (putLabel labels key label) (place + 1) rest
    | items => throw (.pairLength place items.length)

/-- The labels of categories. -/
def readCategories (v : Value) : Except Misfit (List (Value × Value)) := do
  match v with
  | .dict fields => return fields.map fun f => (.str f.1, f.2)
  | v => readPairs [] 0 (← v.sequence)

/-- The end of the reading, once the type, the files and the properties are known. -/
def readRest (data : Fields Value) (type : AddonType) (dependencies : List FileDependency)
    (properties : List (Fields Value)) : Attempt Manifest := do
  let id ← .ofValue (value data "id").text
  let name ← .ofValue (value data "name").text
  let version ← .ofValue (value data "version").text
  let categories ← .ofMisfit (readCategories ((value data "aceCategories").orElse (.dict [])))
  return {
    addonType := type
    id := id
    name := name
    version := version
    author := valueOr data "author" (.str "")
    website := valueOr data "website" (.str "")
    documentation := valueOr data "documentation" (.str "")
    description := valueOr data "description" (.str "")
    category := valueOr data "category" (.str "general")
    icon := (value data "icon").orElse (.str "icon.svg")
    addonUrl := value data "addonUrl"
    githubUrl := value data "githubUrl"
    properties := properties
    categories := categories
    fileDependencies := dependencies
    info := (value data "info").orElse (.dict []) }

/-- The manifest of a configuration. -/
def ofFields (data : Fields Value) : Attempt Manifest := do
  let missing := missingKeys data
  if !missing.isEmpty then throw (.complaint (.plain (.missingKeys missing)))
  let type ← readType (value data "addonType")
  let files ← .ofMisfit ((value data "fileDependencies").orElse (.list [])).sequence
  let dependencies ← files.mapM readDependency
  let given ← .ofMisfit ((value data "properties").orElse (.list [])).sequence
  let properties ← given.mapM readProperty
  readRest data type dependencies properties

/-- The name of the archive of an addon. -/
def archiveName (m : Manifest) : String :=
  s!"{m.id}-{m.version}.c3addon"

end Manifest

end Addon
