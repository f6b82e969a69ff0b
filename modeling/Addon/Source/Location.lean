import Addon.Script.Tree
import Addon.Text.Encoding
import Addon.Text.Lines
import Addon.Text.Slice
import Addon.Text.Trim

/-!
# Locations

Where in a source something was found, with the code that stands there. The code is the text between
the two ends of the place or, if there is none, the line that the place starts in.
-/

namespace Addon.Source

/-- A place in a source: a line counted from one, a byte column, and the end as such a pair. What is
not known is missing; without a line there is no location. -/
structure Mark where
  line : Option Int
  column : Int := 0
  stop : Option (Int × Int) := none
deriving DecidableEq, Repr

/-- The mark of an extent. -/
def Mark.ofExtent (x : Script.Extent) : Mark :=
  ⟨some x.start.line, x.start.column, some (x.stop.line, x.stop.column)⟩

/-- Where something was found. -/
structure Location where
  line : Int
  column : Int
  code : Option String
deriving DecidableEq, Repr

/-- Why the code of a mark cannot be cut out of its source. -/
inductive CutError where
  /-- There is no such line. -/
  | noLine
  /-- The cut goes through a character. -/
  | decode (e : Text.DecodeError)
deriving DecidableEq, Repr

/-- A line of a source, by its index. -/
def lineAt (lines : List (List Char)) (i : Int) : Except CutError (List Char) :=
  match Text.itemAt? lines i with
  | some line => .ok line
  | none => .error .noLine

/-- The text of bytes. -/
def textOf (bytes : List UInt8) : Except CutError (List Char) :=
  match Text.decode bytes with
  | .ok cs => .ok cs
  | .error e => .error (.decode e)

/-- The text between two ends, each a line counted from zero and a byte column. -/
def segment (source : List Char) (line column stopLine stopColumn : Int) :
    Except CutError (List Char) := do
  let lines := Text.lines source
  if stopLine = line then
    let bytes := Text.encode (← lineAt lines line)
    textOf (Text.slice bytes column stopColumn)
  else
    let firstBytes := Text.encode (← lineAt lines line)
    let first ← textOf (Text.slice firstBytes column firstBytes.length)
    let lastBytes := Text.encode (← lineAt lines stopLine)
    let last ← textOf (Text.slice lastBytes 0 stopColumn)
    return first ++ (Text.slice lines (line + 1) stopLine).flatten ++ last

/-- A line of a source without blanks on its sides, counted from one. Blank lines have no code. -/
def lineCode? (source : List Char) (line : Int) : Option (List Char) :=
  if line < 1 then none
  else match (Text.lines source)[(line - 1).toNat]? with
    | none => none
    | some cs =>
      let code := Text.trim cs
      if code.isEmpty then none else some code

/-- The code of a mark. -/
def codeAt? (source : List Char) (line : Int) (mark : Mark) :
    Except CutError (Option (List Char)) := do
  let cs ← match mark.stop with
    | some (stopLine, stopColumn) => segment source (line - 1) mark.column (stopLine - 1) stopColumn
    | none => pure []
  if cs.isEmpty then return lineCode? source line else return some (Text.trim cs)

namespace Location

/-- The location of a mark. Without a source there is no code. -/
def ofMark? (mark : Mark) (source : Option (List Char)) : Except CutError (Option Location) := do
  match mark.line with
  | none => return none
  | some line =>
    let code ← match source with
      | some source => codeAt? source line mark
      | none => pure none
    return some ⟨line, mark.column + 1, code.map String.ofList⟩

/-- The text of a location. -/
def describe (l : Location) : String :=
  let place := s!"Location: line {l.line}, column {l.column}"
  match l.code with
  | some code => if code = "" then place else place ++ "\nCode: " ++ code
  | none => place

/-- A message with a location below it. -/
def attach (message : String) : Option Location → String
  | some l => message ++ "\n" ++ l.describe
  | none => message

end Location

/-- What a parser says about a text that it cannot read. -/
structure SyntaxProblem where
  message : String
  line : Option Int
  column : Option Int
  text : Option String
deriving DecidableEq, Repr

namespace SyntaxProblem

/-- Where the problem is. The quoted line of the problem counts more than the source. -/
def location? (p : SyntaxProblem) (source : List Char) : Option Location :=
  match p.line with
  | none => none
  | some line =>
    if line = 0 then none
    else
      let quoted := Text.trim (p.text.getD "").toList
      let code := if quoted.isEmpty then lineCode? source line else some quoted
      some ⟨line, max (p.column.getD 1) 1, code.map String.ofList⟩

/-- The problem as text. -/
def describe (p : SyntaxProblem) (source : List Char) : String :=
  Location.attach ("Invalid Python syntax: " ++ p.message) (p.location? source)

end SyntaxProblem

end Addon.Source
