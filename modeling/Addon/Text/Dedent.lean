import Addon.Text.Split
import Addon.Unicode.Blank

/-!
# Documentation text

Documentation is written inside indented code. Its plain form has no tabs, no indentation that all
lines but the first share, and no empty lines on its sides.
-/

namespace Addon.Text

/-- The distance between tab stops. -/
def tabStop : Nat := 8

/-- Replaces tabs by blanks up to the next tab stop. Line ends start the count anew. -/
def expandTabs : Nat → List Char → List Char
  | _, [] => []
  | column, c :: rest =>
    if c = '\t' then
      let width := tabStop - column % tabStop
      List.replicate width ' ' ++ expandTabs (column + width) rest
    else if c = '\n' || c = '\r' then c :: expandTabs 0 rest
    else c :: expandTabs (column + 1) rest

/-- The number of blanks at the front of a line that holds more than blanks. -/
def indentation? (line : List Char) : Option Nat :=
  if line.all Unicode.isBlank then none else some (line.takeWhile Unicode.isBlank).length

/-- The indentation that all lines share, as far as they hold more than blanks. -/
def sharedIndentation (lines : List (List Char)) : Nat :=
  ((lines.filterMap indentation?).min?).getD 0

/-- The lines without empty ones on both sides. -/
def dropEmptyEnds (lines : List (List Char)) : List (List Char) :=
  ((lines.reverse.dropWhile List.isEmpty).reverse).dropWhile List.isEmpty

/-- The plain form of documentation. -/
def dedent (cs : List Char) : List Char :=
  match splitOn '\n' (expandTabs 0 cs) with
  | [] => []
  | first :: rest =>
    let margin := sharedIndentation rest
    joinWith ['\n'] (dropEmptyEnds (first.dropWhile Unicode.isBlank :: rest.map (·.drop margin)))

end Addon.Text
