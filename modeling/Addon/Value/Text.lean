import Addon.Number.Text
import Addon.Text.Quoted
import Addon.Value.Fault

/-!
# Values as text

Two texts of a value: the one that is shown inside containers, where text stands in quotes, and the
plain one. They differ for text alone. An integer with too many digits has neither.
-/

namespace Addon.Value

/-- The text of an integer. -/
def intText (n : Int) : Except Fault String :=
  match Number.intText? n with
  | some text => .ok text
  | none => .error .tooManyDigits

/-- The imaginary part behind a real part: always with a sign. -/
def signedImaginary (x : Float) : String :=
  let text := Number.imaginaryText x
  if text.startsWith "-" then text else "+" ++ text

/-- The text of a complex number. A real part that is a positive zero is left out. -/
def complexText (re im : Float) : String :=
  if re == 0 && !Number.isNegative re then Number.imaginaryText im
  else "(" ++ String.ofList (Number.floatChars false re) ++ signedImaginary im ++ ")"

mutual

/-- The text of a value inside a container. -/
def shown : Value → Except Fault String
  | .null => return "None"
  | .bool b => return if b then "True" else "False"
  | .int n => intText n
  | .float x => return Number.floatText x
  | .nan _ => return Number.floatText Number.notANumber
  | .complex re im => return complexText re im
  | .str text => return Text.quoted text
  | .list items => do
    let texts ← shownItems items
    return "[" ++ ", ".intercalate texts ++ "]"
  | .tuple items => do
    let texts ← shownItems items
    return match texts with
      | [text] => "(" ++ text ++ ",)"
      | _ => "(" ++ ", ".intercalate texts ++ ")"
  | .dict fields => do
    let texts ← shownFields fields
    return "\x7b" ++ ", ".intercalate texts ++ "\x7d"

def shownItems : List Value → Except Fault (List String)
  | [] => return []
  | v :: rest => do
    let text ← v.shown
    let texts ← shownItems rest
    return text :: texts

def shownFields : List (String × Value) → Except Fault (List String)
  | [] => return []
  | (name, v) :: rest => do
    let text ← v.shown
    let texts ← shownFields rest
    return (Text.quoted name ++ ": " ++ text) :: texts

end

/-- The text of a value. -/
def text : Value → Except Fault String
  | .str s => return s
  | v => v.shown

end Addon.Value
