import Addon.Number.Text
import Addon.Text.Quoted
import Addon.Value

/-!
# Writing JSON

Writes a value as JSON text. Containers that are not empty have one part on a line, indented by four
blanks per level. Text is written as it is, but for quotes, backslashes and control characters.
-/

namespace Addon.Json

/-- Why a value cannot be written. -/
inductive WriteError where
  /-- JSON has no such kind of value. -/
  | unsupported (kind : String)
  /-- An integer has too many digits. -/
  | tooManyDigits
deriving DecidableEq, Repr

/-- A character of a string. -/
def charText (c : Char) : List Char :=
  match c with
  | '"' => ['\\', '"']
  | '\\' => ['\\', '\\']
  | '\n' => ['\\', 'n']
  | '\r' => ['\\', 'r']
  | '\t' => ['\\', 't']
  | '\x08' => ['\\', 'b']
  | '\x0c' => ['\\', 'f']
  | _ => if c.toNat < 0x20 then '\\' :: 'u' :: Text.hex 4 c.toNat else [c]

/-- A string. -/
def stringText (text : String) : String :=
  String.ofList ('"' :: text.toList.flatMap charText ++ ['"'])

/-- An integer, unless it has too many digits. -/
def intText (n : Int) : Except WriteError String :=
  match Number.intText? n with
  | some text => .ok text
  | none => .error .tooManyDigits

/-- A double; the three that are not finite have words of their own. -/
def floatText (x : Float) : String :=
  match Number.parts x with
  | .nan => "NaN"
  | .infinite negative => if negative then "-Infinity" else "Infinity"
  | .finite .. => Number.floatText x

/-- The start of a line at a level. -/
def lineStart (level : Nat) : String :=
  "\n" ++ String.ofList (List.replicate (4 * level) ' ')

/-- Parts on lines of their own between brackets. -/
def bracketed (opening closing : String) (level : Nat) (parts : List String) : String :=
  if parts.isEmpty then opening ++ closing
  else
    let inner := lineStart (level + 1)
    opening ++ inner ++ ("," ++ inner).intercalate parts ++ lineStart level ++ closing

/-- The text of a value that is used as a name. -/
def keyText : Value → Except WriteError String
  | .str text => .ok text
  | .null => .ok "null"
  | .bool b => .ok (if b then "true" else "false")
  | .int n => intText n
  | .float x => .ok (floatText x)
  | .nan _ => .ok (floatText Number.notANumber)
  | v => .error (.unsupported v.kind)

mutual

/-- A value at a level of indentation. -/
def write (level : Nat) : Value → Except WriteError String
  | .null => return "null"
  | .bool b => return if b then "true" else "false"
  | .int n => intText n
  | .float x => return floatText x
  | .nan _ => return floatText Number.notANumber
  | .complex .. => throw (.unsupported "complex")
  | .str text => return stringText text
  | .list items | .tuple items => do
    let parts ← writeItems (level + 1) items
    return bracketed "[" "]" level parts
  | .dict fields => do
    let parts ← writeFields (level + 1) fields
    return bracketed "\x7b" "\x7d" level parts

def writeItems (level : Nat) : List Value → Except WriteError (List String)
  | [] => return []
  | v :: rest => do
    let text ← write level v
    let texts ← writeItems level rest
    return text :: texts

def writeFields (level : Nat) : List (String × Value) → Except WriteError (List String)
  | [] => return []
  | (name, v) :: rest => do
    let text ← write level v
    let texts ← writeFields level rest
    return (stringText name ++ ": " ++ text) :: texts

end

/-- The text of a value. -/
def render (v : Value) : Except WriteError String :=
  write 0 v

end Addon.Json
