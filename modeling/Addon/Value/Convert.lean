import Addon.Unicode.Blank
import Addon.Unicode.Digit
import Addon.Value.Arithmetic
import Addon.Value.Text

/-!
# Conversions

Numbers from text and from other numbers, the length of a value, and rows of integers.

A number in text may have blanks around it, a sign in front, digits of any script, and single
underscores between its digits.
-/

namespace Addon.Value

/-! ## Numerals in text -/

/-- The text with digits of all scripts and blanks written in ASCII. What is neither becomes a
question mark, which no number has. -/
def plainNumeral (cs : List Char) : List Char :=
  cs.map fun c =>
    if c.toNat < 127 then c
    else if Unicode.isBlank c then ' '
    else match Unicode.decimalDigit? c with
      | some d => Char.ofNat ('0'.toNat + d)
      | none => '?'

/-- A blank around a numeral. -/
def isPlainBlank (c : Char) : Bool :=
  c = ' ' || (9 ≤ c.toNat && c.toNat ≤ 13)

/-- A text without the blanks on its sides. -/
def trimBlanks (cs : List Char) : List Char :=
  ((cs.dropWhile isPlainBlank).reverse.dropWhile isPlainBlank).reverse

/-- A sign at the front, and whether it is a minus. -/
def takeSign : List Char → Bool × List Char
  | '-' :: rest => (true, rest)
  | '+' :: rest => (false, rest)
  | cs => (false, cs)

/-- Every underscore stands between two digits. -/
def underscoresFit : Option Char → List Char → Bool
  | _, [] => true
  | before, '_' :: rest =>
    before.any Char.isDigit && rest.head?.any Char.isDigit && underscoresFit (some '_') rest
  | _, c :: rest => underscoresFit (some c) rest

/-- The value of decimal digits. -/
def decimalValue (ds : List Char) : Nat :=
  ds.foldl (fun n c => 10 * n + (c.toNat - '0'.toNat)) 0

/-- The text in quotes, cut after two hundred characters. -/
def clipped (text : String) : String :=
  String.ofList ((Text.quoted text).toList.take 200)

/-- The integer that a text stands for. Digits are counted before the text
behind them is looked at. -/
def intOfText (text : String) : Except Fault Int :=
  let refuse : Except Fault Int := .error (.notAnInt (clipped text))
  let (negative, cs) := takeSign ((plainNumeral text.toList).dropWhile isPlainBlank)
  let row := cs.takeWhile fun c => c.isDigit || c = '_'
  let digits := row.filter (· ≠ '_')
  if digits.isEmpty || !underscoresFit none row then refuse
  else if Number.maxIntDigits < digits.length then .error (.tooManyDigitsRead digits.length)
  else if ((cs.drop row.length).all isPlainBlank) then
    let n : Int := decimalValue digits
    .ok (if negative then -n else n)
  else refuse

/-- A decimal without a sign: digits, a fraction and an exponent. -/
def decimal? (cs : List Char) : Option (Nat × Int) := do
  let whole := cs.takeWhile Char.isDigit
  let rest := cs.dropWhile Char.isDigit
  let (places, rest) := match rest with
    | '.' :: rest => (rest.takeWhile Char.isDigit, rest.dropWhile Char.isDigit)
    | _ => ([], rest)
  guard (!(whole ++ places).isEmpty)
  let digits := decimalValue (whole ++ places)
  match rest with
  | [] => return (digits, -places.length)
  | c :: rest =>
    guard (c = 'e' || c = 'E')
    let (negative, ds) := takeSign rest
    guard (!ds.isEmpty && ds.all Char.isDigit)
    let e : Int := decimalValue ds
    return (digits, (if negative then -e else e) - places.length)

/-- The double that a text without blanks stands for. -/
def float? (cs : List Char) : Option Float := do
  guard (underscoresFit none cs)
  let (negative, cs) := takeSign (cs.filter (· ≠ '_'))
  let word := String.ofList (cs.map Char.toLower)
  if word = "inf" || word = "infinity" then
    return if negative then -Number.infinity else Number.infinity
  else if word = "nan" then return Number.notANumber
  else
    let (digits, e) ← decimal? cs
    return Number.ofDecimal negative digits e

/-- The double that a text stands for. -/
def floatOfText (text : String) : Except Fault Float :=
  match float? (trimBlanks (plainNumeral text.toList)) with
  | some x => .ok x
  | none => .error (.notAFloat (Text.quoted text))

/-! ## Conversions of values -/

/-- The value as an integer; a double loses its fraction. -/
def asInt : Value → Except Fault Int
  | .bool b => .ok (if b then 1 else 0)
  | .int n => .ok n
  | .float x => match Number.parts x with
    | .nan => .error .nanAsInt
    | .infinite _ => .error .overflow
    | .finite negative m q => .ok (Number.truncate negative m q)
  | .nan _ => .error .nanAsInt
  | .str text => intOfText text
  | v => .error (.noIntOf v.kind)

/-- The value as a double. -/
def asFloat : Value → Except Fault Float
  | .bool b => .ok (if b then 1 else 0)
  | .int n => (Number.Operand.int n).toFloat
  | .float x => .ok x
  | .nan _ => .ok Number.notANumber
  | .str text => floatOfText text
  | v => .error (.noFloatOf v.kind)

/-- The number of parts of a value. -/
def length : Value → Except Fault Nat
  | .str text => .ok text.length
  | .list items | .tuple items => .ok items.length
  | .dict fields => .ok fields.length
  | v => .error (.noLength v.kind)

/-- The integers from `start` on, `step` apart, before `stop`. -/
def range (start stop step : Int) : Except Fault Value :=
  if step = 0 then .error .zeroStep
  else
    let gap := if 0 < step then stop - start else start - stop
    let count := if gap ≤ 0 then 0 else (gap - 1) / step.natAbs + 1
    if indexBound ≤ count then .error .overflow
    else if maxItems < count then .error .outOfMemory
    else .ok (.list ((List.range count.toNat).map fun (i : Nat) => .int (start + step * i)))

end Addon.Value
