import Addon.File.Path

/-!
# Settings

Where a build finds its sources and where it puts what it makes. Names are relative to the project.
Among the sources and the languages there may be some without a name; a build fails when it comes to
one of them.
-/

namespace Addon.Build

structure Settings where
  projectDir : File.Path
  sourceDir : String := "src"
  exportDir : String := "export"
  distDir : String := "dist"
  addonConfig : String := "addon_config.py"
  aceSources : List (Option String) := [some "instance.py"]
  editorScripts : List String := ["editor.py"]
  langDir : Option String := some "src/lang"
  languageTags : List (Option String) := [some "en-US"]
  minify : Bool := false
  package : Bool := true
deriving DecidableEq, Repr

namespace Settings

/-- The path of a name in the project. -/
def path (s : Settings) (relative : String) : File.Path :=
  s.projectDir.join relative

def sourcePath (s : Settings) : File.Path :=
  s.path s.sourceDir

def exportPath (s : Settings) : File.Path :=
  s.path s.exportDir

/-- The languages that have a name. -/
def tags (s : Settings) : List String :=
  s.languageTags.filterMap id

def distPath (s : Settings) : File.Path :=
  s.path s.distDir

/-- The directory of the lexicons, if there is one. -/
def langPath? (s : Settings) : Option File.Path :=
  match s.langDir with
  | some dir => if dir = "" then none else some (s.path dir)
  | none => none

end Settings

end Addon.Build
