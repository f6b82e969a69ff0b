import Addon.CommandLine.Run
import Addon.File.Archive
import Addon.File.Change

/-!
# The program

Takes the files of the project in, runs the command on them, and carries out what it changed. All
decisions are made by the command; only files of the project are seen.
-/

namespace Addon.Program

open File

/-- A bound for the number of directories that lie in each other. -/
def maxDepth : Nat := 2048

/-- The text of a place. -/
def placeText (place : Place) : String :=
  "/" ++ "/".intercalate place

/-- A tree with what lies in a directory. -/
def readBelow : Nat → Tree → Place → IO Tree
  | 0, t, _ => return t
  | depth + 1, t, place => do
    let directory ← IO.FS.realPath (placeText place)
    let mut t := t
    for entry in ← directory.readDir do
      let inner := place ++ [entry.fileName]
      if ← entry.path.isDir then
        t ← readBelow depth (t.set inner .directory) inner
      else
        let bytes ← IO.FS.readBinFile entry.path
        t := t.set inner (.file (.data bytes.toList))
    return t

/-- The files of a project. A directory that cannot be read has none. -/
def readProject (project : Path) : IO Tree :=
  try readBelow maxDepth (Tree.pave {} project.parts) project.parts
  catch _ => return {}

/-- The files that a command is about. -/
def readFor (argv : List String) (standing : Path) : IO Tree := do
  match CommandLine.parse argv with
  | .ok a => match a.settings standing with
    | .ok settings => readProject settings.projectDir
    | .error _ => return {}
  | .error _ => return {}

/-- The bytes of a file. -/
def contentBytes : Content → List UInt8
  | .data bytes => bytes
  | .archive members => Archive.encode members

/-- Carries out a change. -/
def carryOut : Change → IO Unit
  | .removeFile place => IO.FS.removeFile (placeText place)
  | .removeDirectory place => IO.FS.removeDir (placeText place)
  | .makeDirectory place => IO.FS.createDir (placeText place)
  | .writeFile place content =>
    IO.FS.writeBinFile (placeText place) ⟨(contentBytes content).toArray⟩

/-- Runs the command and gives its exit code. -/
def run (argv : List String) : IO UInt32 := do
  let standing := Path.ofText (← IO.currentDir).toString
  let tree ← readFor argv standing
  let (report, session) := CommandLine.run argv standing { tree := tree }
  for change in tree.changesTo session.tree do
    carryOut change
  for warning in session.warnings do
    IO.eprintln s!"warning: {warning}"
  IO.print report.stdout
  IO.eprint report.stderr
  match report.exit with
  | .ok code => return code.toUInt32
  | .error failure =>
    IO.eprintln failure.message
    return 1

end Addon.Program

/-- The entry point. -/
def main (argv : List String) : IO UInt32 :=
  Addon.Program.run argv
