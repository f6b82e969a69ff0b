import Addon.Annotated.Extract
import Addon.Build.Compiler
import Addon.Build.Package
import Addon.Build.Settings
import Addon.Config
import Addon.Descriptor.AddonFile
import Addon.Descriptor.Localization

/-!
# Builds

A build reads the configuration and the sources of an addon, extracts the records, compiles the
scripts, assembles the documents and writes the export. Nothing is written before all of that has
succeeded. Every build starts from an empty registry and without remembered lexicons.
-/

namespace Addon.Build

open File Descriptor

/-- How far a build has come. -/
inductive Stage where
  | idle
  | parsing
  | extracting
  | rewriting
  | compiling
  | assembling
  | writing
  | done
  | failed
deriving DecidableEq, Repr

def Stage.name : Stage → String
  | .idle => "idle"
  | .parsing => "parsing"
  | .extracting => "extracting"
  | .rewriting => "rewriting"
  | .compiling => "compiling"
  | .assembling => "assembling"
  | .writing => "writing"
  | .done => "done"
  | .failed => "failed"

/-- What builds work on and leave behind. -/
structure Session where
  tree : Tree
  cache : Lexicon.Cache := {}
  /-- The stages that were reached, in order. -/
  stages : List Stage := []
  warnings : List String := []
  /-- What compilers were asked for, in order. -/
  compiled : List CompileOptions := []

namespace Session

/-- The stage that was reached last. -/
def stage (s : Session) : Stage :=
  s.stages.getLast?.getD .idle

/-- Goes over to a stage. -/
def enter (s : Session) (stage : Stage) : Session :=
  { s with stages := s.stages ++ [stage] }

end Session

/-- A part of a build. -/
abbrev Step := EStateM Failure Session

namespace Step

/-- Goes over to a stage. -/
def enter (stage : Stage) : Step Unit :=
  modify fun s => s.enter stage

/-- Gives warnings. -/
def warn (texts : List String) : Step Unit :=
  modify fun s => { s with warnings := s.warnings ++ texts }

/-- Looks at the files. -/
def look {α : Type} (f : Tree → Attempt α) : Step α := fun s =>
  match f s.tree with
  | .ok a => .ok a s
  | .error e => .error e s

/-- The result of work that needs no files. -/
def ofAttempt {α : Type} (a : Attempt α) : Step α :=
  look fun _ => a

/-- Works on the files. -/
def work {α : Type} (w : Work α) : Step α := fun s =>
  match w s.tree with
  | .ok a t => .ok a { s with tree := t }
  | .error e t => .error e { s with tree := t }

/-- A file is at a path. -/
def isFile (p : Path) : Step Bool :=
  look fun t => .ofFile (t.isFile p)

/-- The text of a file. -/
def readText (p : Path) : Step String := do
  return String.ofList (← look fun t => t.readText p)

/-- Forgets the tables that were read. -/
def clearCache : Step Unit :=
  modify fun s => { s with cache := {} }

/-- The lexicon of a language. -/
def loadTable (directory : Option Path) (tag : String) : Step Lexicon.Table := fun s =>
  match Lexicon.load s.tree directory tag s.cache with
  | (.ok table, cache) => .ok table { s with cache := cache }
  | (.error e, cache) => .error e { s with cache := cache }

/-- Compiles a script. -/
def compile (compiler : Compiler) (options : CompileOptions) (source : String) : Step String := do
  modify fun s => { s with compiled := s.compiled ++ [options] }
  ofAttempt (compiler options source)

end Step

/-- Reads the sources of an addon. -/
def readSources (directory : Path) : List (Option String) → Step (List (String × String))
  | [] => return []
  | none :: _ => throw (.misfit .noText)
  | some name :: rest => do
    let text ← Step.readText (directory.join name)
    let others ← readSources directory rest
    return (name, text) :: others

/-- Extracts the records of sources in turn. -/
def extractSources (context : Annotated.Context) : List (String × String) → Step Annotated.Context
  | [] => return context
  | (name, text) :: rest => do
    let (context, x) := context.extract text name
    Step.warn x.warnings
    let _ ← Step.ofAttempt x.result
    extractSources context rest

/-- The warning about an editor script that is not there. -/
def missingScript (p : Path) : String :=
  s!"Editor script '{p.toText}' not found; writing an empty file."

/-- The warning about an icon that is not there. -/
def missingIcon (p : Path) : String :=
  s!"Addon icon '{p.toText}' not found; it is listed but not exported."

/-- The warning about a further file that is not there. -/
def missingDependency (p : Path) : String :=
  s!"File dependency '{p.toText}' not found; it is listed but not exported."

/-- Compiles the editor scripts. Those that are not there become empty. -/
def compileScripts (compiler : Compiler) (settings : Settings) (texts : Fields String) :
    List String → Step (Fields String)
  | [] => return texts
  | name :: rest => do
    let p := settings.sourcePath.join name
    let text ← if ← Step.isFile p then do
        let source ← Step.readText p
        Step.compile compiler ⟨name, settings.minify⟩ source
      else do
        Step.warn [missingScript p]
        pure ""
    compileScripts compiler settings (texts.insert name text) rest

/-- The texts of an addon in a language. -/
def localizeIn (m : Manifest) (registry : Ace.Registry) (directory : Option Path) (tag : String) :
    Step Localization := do
  let table ← Step.loadTable directory tag
  Step.ofAttempt (.ofMisfit (localization m registry tag table))

/-- The name that the lexicon of a language without a name is looked up by. -/
def namelessTag : String := "[]"

/-- The texts of an addon in some languages, one document for each. -/
def localize (m : Manifest) (registry : Ace.Registry) (directory : Option Path)
    (done : Fields Localization) : List (Option String) → Step (Fields Localization)
  | [] => return done
  | none :: _ => do
    let _ ← localizeIn m registry directory namelessTag
    throw (.misfit .noKey)
  | some tag :: rest => do
    let texts ← localizeIn m registry directory tag
    localize m registry directory (done.insert tag texts) rest

/-- Puts a text under a name unless there is one. -/
def addDefault (texts : Fields String) (name : String) : Fields String :=
  if texts.contains name then texts else texts.insert name ""

/-- The texts with empty ones for the files that an engine looks for. -/
def withPlaceholders (texts : Fields String) : Fields String :=
  ((placeholders ++ [typeFile]).map runtimeFile).foldl addDefault texts

/-- Takes a file into the export if it is there, and warns otherwise. -/
def addCopy (copies : Fields Path) (name : String) (p : Path) (warning : String) :
    Step (Fields Path) := do
  if ← Step.isFile p then return copies.insert name p
  else
    Step.warn [warning]
    return copies

/-- Takes the further files into the export. -/
def addDependencies (directory : Path) (copies : Fields Path) :
    List FileDependency → Step (Fields Path)
  | [] => return copies
  | d :: rest => do
    let p := directory.join d.filename
    let copies ← addCopy copies (runtimeFile d.filename) p (missingDependency p)
    addDependencies directory copies rest

/-- The name of the icon. -/
def iconName (m : Manifest) : Attempt String :=
  match m.icon with
  | .str name => .ok name
  | _ => .error (.misfit .noText)

/-- The files that go into the export as they are. -/
def collectCopies (m : Manifest) (directory : Path) : Step (Fields Path) := do
  let icon ← Step.ofAttempt (iconName m)
  let p := directory.join icon
  let copies ← addCopy [] icon p (missingIcon p)
  addDependencies directory copies m.fileDependencies

/-- The document of a localization. -/
def localizationDocument (l : Localization) : Document := do
  Document.ofValue (← l.toValue)

/-- The documents of an export. -/
def documentsOf (m : Manifest) (registry : Ace.Registry) (settings : Settings)
    (catalogue : Catalogue) (languages : Fields Localization) : Fields Document :=
  Fields.merge
    [(catalogueFile, Document.ofValue catalogue.toValue),
      (addonFile, Document.ofValue
        (addonValue m registry.dispatch settings.tags settings.editorScripts))]
    (languages.map fun l => (languageFile l.1, localizationDocument l.2))

/-- What a build has made. -/
structure Result where
  manifest : Manifest
  registry : Ace.Registry
  /-- The names of the documents, in order. -/
  documents : List String
  exportDir : Path
  written : List String
  package : Option Path

/-- Compiles the bundle of the sources and the editor scripts. -/
def compileAll (settings : Settings) (compiler : Compiler) (m : Manifest) (source : String) :
    Step (Fields String) := do
  let name := bundleFile m.addonType
  let text ← Step.compile compiler ⟨name, settings.minify⟩ source
  compileScripts compiler settings [(name, text)] settings.editorScripts

/-- Assembles the files of an export. -/
def assemble (settings : Settings) (m : Manifest) (registry : Ace.Registry)
    (texts : Fields String) :
    Step Artifacts := do
  let catalogue ← Step.ofAttempt (.ofMisfit (catalogue registry))
  let languages ← localize m registry settings.langPath? [] settings.languageTags
  let copies ← collectCopies m settings.sourcePath
  return ⟨documentsOf m registry settings catalogue languages, withPlaceholders texts, copies⟩

/-- Writes an export and packs it if asked to. -/
def writeAll (settings : Settings) (m : Manifest) (a : Artifacts) :
    Work (List String × Option Path) := do
  let written ← writeExport settings.exportPath a
  if settings.package then
    let path ← package settings.exportPath settings.distPath m
    return (written, some path)
  else return (written, none)

/-- The stages of a build in order. -/
def stages (settings : Settings) (compiler : Compiler) : Step Result := do
  Step.clearCache
  Step.enter .parsing
  let m ← Step.look fun t => Config.load t (settings.sourcePath.join settings.addonConfig)
  let sources ← readSources settings.sourcePath settings.aceSources
  Step.enter .extracting
  let context ← extractSources {} sources
  Step.enter .rewriting
  let source := bundle context.stripped
  Step.enter .compiling
  let texts ← compileAll settings compiler m source
  Step.enter .assembling
  let artifacts ← assemble settings m context.registry texts
  Step.enter .writing
  let (written, path) ← Step.work (writeAll settings m artifacts)
  Step.enter .done
  return ⟨m, context.registry, artifacts.documents.keys, settings.exportPath, written, path⟩

/-- Builds an addon. -/
def build (settings : Settings) (compiler : Compiler := passthrough) : Step Result := fun s =>
  match stages settings compiler s with
  | .ok result s => .ok result s
  | .error e s => .error e (s.enter .failed)

end Addon.Build
