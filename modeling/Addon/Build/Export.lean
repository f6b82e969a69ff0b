import Addon.Fields
import Addon.File.Text

/-!
# Exports

The files of an export are written to a directory beside the export and take its place only when all
of them are there. What was exported before is put aside until then, so that a failure does not
touch it. Directories that an earlier failure left behind are removed first.
-/

namespace Addon.Build

open File

/-- Work on files. What was done before a failure stays done. -/
abbrev Work := EStateM Failure Tree

namespace Work

/-- Changes the files. -/
def change (f : Tree → Except FileError Tree) : Work Unit := fun t =>
  match f t with
  | .ok t => .ok () t
  | .error e => .error (.file e) t

/-- Looks at the files. -/
def look {α : Type} (f : Tree → Attempt α) : Work α := fun t =>
  match f t with
  | .ok a => .ok a t
  | .error e => .error e t

/-- Something is at a path. -/
def isThere (p : Path) : Work Bool :=
  look fun t => .ofFile (t.isThere p)

end Work

/-- The text of a document, or why it has none. -/
abbrev Document := Except Json.WriteError String

/-- The document of a value. -/
def Document.ofValue (v : Value) : Document :=
  Json.render v

/-- The files of an export by their names in it. -/
structure Artifacts where
  documents : Fields Document := []
  texts : Fields String := []
  /-- Files that are copied from elsewhere. -/
  copies : Fields Path := []

namespace Artifacts

/-- The names of the files, in the order in which they are written. -/
def names (a : Artifacts) : List String :=
  a.documents.keys ++ a.texts.keys ++ a.copies.keys

end Artifacts

/-- Writes a text and makes the directories for it. If the text has no bytes,
the file is left empty. -/
def writeText (p : Path) (text : String) : Work Unit := do
  Work.change fun t => t.ensureDirectories p.parent
  match Text.checkEncodable text.toList with
  | .ok () => Work.change fun t => t.write p (.ofText text)
  | .error e =>
    Work.change fun t => t.write p (.data [])
    throw (.encode e)

def writeDocument (p : Path) (d : Document) : Work Unit := do
  let text ← Work.look fun _ => .ofWrite d
  writeText p (text ++ "\n")

/-- Copies a file and makes the directories for the copy. -/
def copyFile (p source : Path) : Work Unit := do
  Work.change fun t => t.ensureDirectories p.parent
  Work.change fun t => t.copy source p

/-- Writes the items of a table in order, each under its name. -/
def writeEach {α : Type} (write : Path → α → Work Unit) (directory : Path) : Fields α → Work Unit
  | [] => pure ()
  | (name, item) :: rest => do
    write (directory.join name) item
    writeEach write directory rest

/-- Where an export is put together. -/
def stagingPath (directory : Path) : Path :=
  directory.withName s!".{directory.name}.staging"
    (directory.isPart_affixed (by decide) (by decide))

/-- Where the export before is kept. -/
def backupPath (directory : Path) : Path :=
  directory.withName s!".{directory.name}.previous"
    (directory.isPart_affixed (by decide) (by decide))

/-- Removes a directory if it is there. -/
def removeIfThere (p : Path) : Work Unit := do
  if ← Work.isThere p then Work.change fun t => t.removeDirectory p

/-- Puts the staged files in the place of the export. -/
def swapIn (directory : Path) : Work Unit := do
  if ← Work.isThere directory then
    Work.change fun t => t.move directory (backupPath directory)
  Work.change fun t => t.move (stagingPath directory) directory
  removeIfThere (backupPath directory)

/-- Names in order. -/
def sortedNames (names : List String) : List String :=
  names.mergeSort fun a b => a ≤ b

/-- Writes an export. Gives the names of its files in order. -/
def writeExport (directory : Path) (a : Artifacts) : Work (List String) := do
  if directory.name = "" then throw (.file (.noName directory.toText))
  removeIfThere (stagingPath directory)
  removeIfThere (backupPath directory)
  writeEach writeDocument (stagingPath directory) a.documents
  writeEach writeText (stagingPath directory) a.texts
  writeEach copyFile (stagingPath directory) a.copies
  swapIn directory
  return sortedNames a.names

end Addon.Build
