import Addon.Failure
import Addon.Text.Lines

/-!
# Files as texts

Texts are read from files with all line ends unified, and written as they are.
-/

namespace Addon.File

/-- The bytes of a file. -/
def Content.bytes : Content → List UInt8
  | .data bytes => bytes
  | .archive members => members.flatMap (·.2)

/-- The text of a file. -/
def Tree.readText (t : Tree) (p : Path) : Attempt (List Char) := do
  let content ← .ofFile (t.read p)
  match Text.decode content.bytes with
  | .ok cs => return Text.unifyLineEnds cs
  | .error e => throw (.decode e)

end Addon.File
