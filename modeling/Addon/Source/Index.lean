import Addon.Text.Lines
import Addon.Text.Slice

/-!
# Offsets and lines

Converts between the two ways to name a place in a source: a line with a byte column, as the parser
reports it, and a character offset, as text is cut. A column inside a character stands for the start
of that character, a column beyond a line for its end, and a line beyond the last one for the end of
the source.
-/

namespace Addon.Source

/-- The lines of a source with the offset at which each starts. -/
def placedLines : Nat → List (List Char) → List (Nat × List Char)
  | _, [] => []
  | start, line :: rest => (start, line) :: placedLines (start + line.length) rest

/-- A source with its lines. -/
structure Index where
  source : List Char
  lines : List (Nat × List Char)

namespace Index

/-- The index of a source. -/
def ofSource (source : List Char) : Index :=
  ⟨source, placedLines 0 (Text.lines source)⟩

end Index

/-- The number of bytes of a text. -/
def byteLength (cs : List Char) : Nat :=
  cs.foldr (fun c size => c.utf8Size + size) 0

/-- The number of characters that lie wholly within the first so many bytes of a text. -/
def charsWithin : Nat → List Char → Nat
  | _, [] => 0
  | bytes, c :: rest =>
    if c.utf8Size ≤ bytes then charsWithin (bytes - c.utf8Size) rest + 1 else 0

namespace Index

/-- The offset of a byte column in a line. A negative column counts from the end of the line. -/
def columnOffset (line : Nat × List Char) (column : Int) : Nat :=
  line.1 + charsWithin (Text.placeOf (byteLength line.2) column) line.2

/-- The offset of a line, counted from one, and a byte column. Lines before the first one count from
the last; beyond those there is nothing. -/
def offset? (index : Index) (line column : Int) : Option Nat :=
  if index.lines.length ≤ line - 1 then some index.source.length
  else match Text.itemAt? index.lines (line - 1) with
    | some placed => some (columnOffset placed column)
    | none => none

/-- The line that an offset lies in: the last one that starts at or before it, or else the first. -/
def lineAt (offset : Int) : List (Nat × List Char) → Nat × List Char
  | [] => (0, [])
  | [line] => line
  | line :: next :: rest => if next.1 ≤ offset then lineAt offset (next :: rest) else line

/-- Where the line that an offset lies in starts and ends. -/
def lineBounds (index : Index) (offset : Int) : Nat × Nat :=
  let line := lineAt offset index.lines
  (line.1, line.1 + line.2.length)

end Index

end Addon.Source
