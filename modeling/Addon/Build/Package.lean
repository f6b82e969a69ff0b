import Addon.Build.Export
import Addon.Manifest

/-!
# Packages

A package is an archive of all files of an export.
-/

namespace Addon.Build

open File

/-- The files of a directory as members of an archive, named by the ways to them. -/
def members (t : Tree) (directory : Path) : List (String × List UInt8) :=
  (t.filesBelow directory).map fun f => ("/".intercalate f.1, f.2.bytes)

/-- Packs an export into an archive. Gives the path of the archive. -/
def package (directory dist : Path) (m : Manifest) : Work Path := do
  if !(← Work.look fun t => .ofFile (t.isDirectory directory)) then
    throw (.file (.noExport directory.toText))
  Work.change fun t => t.ensureDirectories dist
  let path := dist.join m.archiveName
  Work.change fun t => t.write path (.archive [])
  Work.change fun t => t.write path (.archive (members t directory))
  return path

end Addon.Build
