import Addon.File.Tree

/-!
# Changes to files

What has to be done to get from one tree to another. What goes away comes first, from the inside
to the outside, and what is new after it, from the outside to the inside; so every step is
possible when its turn comes.
-/

namespace Addon.File

inductive Change where
  | removeFile (place : Place)
  | removeDirectory (place : Place)
  | makeDirectory (place : Place)
  | writeFile (place : Place) (content : Content)
deriving DecidableEq, Repr

namespace Change

/-- Takes an entry away. -/
def removal : Place × Entry → Change
  | (place, .directory) => .removeDirectory place
  | (place, .file _) => .removeFile place

/-- Brings an entry in. -/
def addition : Place × Entry → Change
  | (place, .directory) => .makeDirectory place
  | (place, .file content) => .writeFile place content

end Change

namespace Tree

/-- Entries with those in few directories first. -/
def byDepth (entries : List (Place × Entry)) : List (Place × Entry) :=
  entries.mergeSort fun a b => a.1.length ≤ b.1.length

/-- Some entry of the same kind is at the place of an entry. -/
def hasKind (t : Tree) (e : Place × Entry) : Bool :=
  match t.get? e.1 with
  | some entry => entry.isFile == e.2.isFile
  | none => false

/-- The changes that make one tree of another. -/
def changesTo (t u : Tree) : List Change :=
  let gone := t.entries.filter fun e => !u.hasKind e
  let fresh := u.entries.filter fun e => t.get? e.1 ≠ some e.2
  (byDepth gone).reverse.map Change.removal ++ (byDepth fresh).map Change.addition

end Tree

end Addon.File
