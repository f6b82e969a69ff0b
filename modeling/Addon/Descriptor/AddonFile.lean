import Addon.Descriptor.Catalogue
import Addon.Manifest

/-!
# The addon file

The document that describes an addon as a whole: what the manifest says, the files the addon is made
of, the methods behind the exported records and the settings of the editor.
-/

namespace Addon.Descriptor

open Ace

/-- The name of the catalogue. -/
def catalogueFile : String := "aces.json"

/-- The name of the addon file. -/
def addonFile : String := "addon.json"

/-- The language file of a language. -/
def languageFile (tag : String) : String :=
  "lang/" ++ tag ++ ".json"

/-- A file that the addon runs with. -/
def runtimeFile (filename : String) : String :=
  "c3runtime/" ++ filename

/-- Files that an engine looks for, in the order of the addon file. -/
def placeholders : List String :=
  ["actions.py", "conditions.py", "expressions.py", "instance.py"]

/-- The file for the type of an addon's objects. -/
def typeFile : String := "type.py"

/-- The script that the annotated sources become. -/
def bundleFile (type : AddonType) : String :=
  runtimeFile (type.name ++ ".py")

/-- The fixed files that an addon of a type runs with. -/
def runtimeFiles (type : AddonType) : List String :=
  placeholders.map runtimeFile ++ [bundleFile type, runtimeFile typeFile]

/-- The editor scripts of an addon that names none. -/
def defaultEditorScripts : List String := ["editor.py"]

/-- The files that an addon is made of. -/
def fileList (m : Manifest) (tags editorScripts : List String) : List Value :=
  (runtimeFiles m.addonType ++ tags.map languageFile ++ [catalogueFile, addonFile]).map .str ++
    [m.icon] ++ editorScripts.map .str ++
    m.fileDependencies.map fun d => .str (runtimeFile d.filename)

/-- What the addon file says about a further file. -/
def dependencyValue (d : FileDependency) : Value :=
  let fields := [("filename", .str (runtimeFile d.filename)), ("type", d.type)]
  match d.fileType with
  | .null => .dict fields
  | type => .dict (fields ++ [("fileType", type)])

/-- The settings of the editor. -/
def editorConfig (m : Manifest) : Value :=
  .dict [("category", m.category), ("icon", m.icon), ("addonUrl", m.addonUrl),
    ("githubUrl", m.githubUrl), ("info", m.info), ("properties", .list (m.properties.map .dict)),
    ("fileDependencies", .list (m.fileDependencies.map dependencyValue))]

/-- The addon file. -/
def addonValue (m : Manifest) (dispatch : ByKind (Fields MethodRef))
    (tags editorScripts : List String) :
    Value :=
  .dict [("is-addon", .bool true), ("sdk-version", .int 2), ("type", .str m.addonType.name),
    ("name", .str m.name), ("id", .str m.id), ("version", .str m.version), ("author", m.author),
    ("website", m.website), ("documentation", m.documentation), ("description", m.description),
    ("editor-scripts", .list (editorScripts.map .str)),
    ("file-list", .list (fileList m tags editorScripts)),
    ("ace-dispatch", dispatchValue dispatch), ("editor-config", editorConfig m)]

end Addon.Descriptor
