import Addon.Number.Text
import Addon.Unicode.Surrogate
import Addon.Value

/-!
# Reading JSON

Reads a JSON text as a value. Numbers without fraction and exponent are integers of any size, all
others are doubles, and the words `NaN`, `Infinity` and `-Infinity` are numbers too. When a name
occurs twice in an object, the last value counts and stays where the first one was.

An error names what was expected and the place, as a character offset with its line and column.
-/

namespace Addon.Json

/-- What a reader missed. -/
inductive Expected where
  | value
  | name
  | colon
  | comma
  | finish
  | endOfString
  | plainCharacter
  | escape
  | unicodeEscape
  | noMark
deriving DecidableEq, Repr

/-- Why a text is not JSON. -/
inductive ReadError where
  /-- Something was missed at a character offset. -/
  | missed (what : Expected) (offset : Nat)
  /-- An integer has too many digits. -/
  | tooManyDigits (count : Nat)
deriving DecidableEq, Repr

def Expected.message : Expected → String
  | .value => "Expecting value"
  | .name => "Expecting property name enclosed in double quotes"
  | .colon => "Expecting ':' delimiter"
  | .comma => "Expecting ',' delimiter"
  | .finish => "Extra data"
  | .endOfString => "Unterminated string starting at"
  | .plainCharacter => "Invalid control character at"
  | .escape => "Invalid \\escape"
  | .unicodeEscape => "Invalid \\uXXXX escape"
  | .noMark => "Unexpected UTF-8 BOM (decode using utf-8-sig)"

/-- The message for something missed in a text, with the place. -/
def missedMessage (source : List Char) (what : Expected) (offset : Nat) : String :=
  let before := source.take offset
  let line := before.count '\n' + 1
  let column := (before.reverse.takeWhile (· ≠ '\n')).length + 1
  s!"{what.message}: line {line} column {column} (char {offset})"

/-- The text to come and its offset. -/
structure Cursor where
  rest : List Char
  offset : Nat

namespace Cursor

/-- Goes forward by so many characters. -/
def advance (c : Cursor) (count : Nat) : Cursor :=
  ⟨c.rest.drop count, c.offset + count⟩

def isBlank (c : Char) : Bool :=
  c = ' ' || c = '\t' || c = '\n' || c = '\r'

/-- Goes over blanks. -/
def skipBlanks (c : Cursor) : Cursor :=
  c.advance (c.rest.takeWhile isBlank).length

end Cursor

/-- Something is missing where the cursor stands. -/
def missed {α : Type} (what : Expected) (c : Cursor) : Except ReadError α :=
  .error (.missed what c.offset)

/-! ## Strings -/

/-- The value of a hexadecimal digit. -/
def hexDigit? (c : Char) : Option Nat :=
  if c.isDigit then some (c.toNat - '0'.toNat)
  else if 'a' ≤ c && c ≤ 'f' then some (c.toNat - 'a'.toNat + 10)
  else if 'A' ≤ c && c ≤ 'F' then some (c.toNat - 'A'.toNat + 10)
  else none

/-- The number of four hexadecimal digits at the front. -/
def hexFour? : List Char → Option Nat
  | a :: b :: c :: d :: _ => do
    let a ← hexDigit? a
    let b ← hexDigit? b
    let c ← hexDigit? c
    let d ← hexDigit? d
    return ((a * 16 + b) * 16 + c) * 16 + d
  | _ => none

/-- The character of an escape of one letter. -/
def escaped? : Char → Option Char
  | '"' => some '"'
  | '\\' => some '\\'
  | '/' => some '/'
  | 'b' => some '\x08'
  | 'f' => some '\x0c'
  | 'n' => some '\n'
  | 'r' => some '\r'
  | 't' => some '\t'
  | _ => none

/-- A first half of a pair of units. -/
def isHighUnit (n : Nat) : Bool := 0xD800 ≤ n && n < 0xDC00

/-- A second half of a pair of units. -/
def isLowUnit (n : Nat) : Bool := 0xDC00 ≤ n && n < 0xE000

/-- The character of a unit escape behind its `u`, and how many characters the escape has from
there. Two units that form a pair make one character. More text has to follow an escape. -/
def unitEscape (c : Cursor) : Except ReadError (Char × Nat) := do
  if c.rest.length ≤ 4 then throw (.missed .unicodeEscape (c.offset - 1))
  match hexFour? c.rest with
  | none => throw (.missed .unicodeEscape (c.offset - 1))
  | some n =>
    match c.rest.drop 4 with
    | '\\' :: 'u' :: more =>
      if isHighUnit n && 4 < more.length then
        match hexFour? more with
        | none => throw (.missed .unicodeEscape (c.offset + 5))
        | some m =>
          if isLowUnit m then
            return (Char.ofNat (0x10000 + (n - 0xD800) * 0x400 + (m - 0xDC00)), 10)
          else return (Unicode.charOfCode n, 4)
      else return (Unicode.charOfCode n, 4)
    | _ => return (Unicode.charOfCode n, 4)

/-- The rest of a string whose opening quote stands at `start`. The characters
read come last first. -/
def stringTail (start : Nat) : Nat → Cursor → List Char → Except ReadError (String × Cursor)
  | 0, _, _ => .error (.missed .endOfString start)
  | bound + 1, c, seen =>
    match c.rest with
    | [] => .error (.missed .endOfString start)
    | '"' :: _ => .ok (String.ofList seen.reverse, c.advance 1)
    | '\\' :: [] => .error (.missed .endOfString start)
    | '\\' :: 'u' :: _ => do
      let (d, count) ← unitEscape (c.advance 2)
      stringTail start bound (c.advance (2 + count)) (d :: seen)
    | '\\' :: e :: _ => match escaped? e with
      | some d => stringTail start bound (c.advance 2) (d :: seen)
      | none => missed .escape c
    | d :: _ =>
      if d.toNat < 0x20 then missed .plainCharacter c
      else stringTail start bound (c.advance 1) (d :: seen)

/-- A string behind its opening quote. -/
def string (c : Cursor) : Except ReadError (String × Cursor) :=
  stringTail (c.offset - 1) (c.rest.length + 1) c []

/-! ## Numbers -/

/-- The value of decimal digits. -/
def digitsValue (ds : List Char) : Nat :=
  ds.foldl (fun n c => 10 * n + (c.toNat - '0'.toNat)) 0

/-- A fraction, when digits follow the point. -/
def fractionOf : List Char → List Char
  | '.' :: rest => rest.takeWhile Char.isDigit
  | _ => []

/-- An exponent and the length of its text, when it has digits. -/
def exponentOf : List Char → Option (Int × Nat)
  | e :: rest =>
    if e = 'e' || e = 'E' then
      let (sign, ds) := match rest with
        | '-' :: ds => (some true, ds)
        | '+' :: ds => (some false, ds)
        | ds => (none, ds)
      let ds := ds.takeWhile Char.isDigit
      if ds.isEmpty then none
      else
        let n : Int := digitsValue ds
        some (if sign = some true then -n else n, 1 + (if sign.isSome then 1 else 0) + ds.length)
    else none
  | [] => none

/-- A number. -/
def number (c : Cursor) : Except ReadError (Value × Cursor) :=
  let negative := c.rest.head? = some '-'
  let cs := if negative then c.rest.drop 1 else c.rest
  let whole := match cs with
    | '0' :: _ => ['0']
    | _ => cs.takeWhile Char.isDigit
  if whole.isEmpty then missed .value c
  else
    let places := fractionOf (cs.drop whole.length)
    let fractionLength := if places.isEmpty then 0 else 1 + places.length
    let exp := exponentOf (cs.drop (whole.length + fractionLength))
    let length :=
      (if negative then 1 else 0) + whole.length + fractionLength + (exp.map (·.2)).getD 0
    let rest := c.advance length
    if places.isEmpty && exp.isNone then
      if Number.maxIntDigits < whole.length then .error (.tooManyDigits whole.length)
      else
        let n : Int := digitsValue whole
        .ok (.int (if negative then -n else n), rest)
    else
      let e := (exp.map (·.1)).getD 0 - places.length
      .ok (.float (Number.ofDecimal negative (digitsValue (whole ++ places)) e), rest)

/-! ## Values -/

/-- The words that stand for values. -/
def words : List (List Char × Value) :=
  [("null".toList, .null), ("true".toList, .bool true), ("false".toList, .bool false),
    ("NaN".toList, .nan .document), ("Infinity".toList, .float Number.infinity),
    ("-Infinity".toList, .float (-Number.infinity))]

/-- A word or a number. -/
def scalar (c : Cursor) : Except ReadError (Value × Cursor) :=
  match words.find? fun w => w.1.isPrefixOf c.rest with
  | some (word, v) => .ok (v, c.advance word.length)
  | none => number c

mutual

/-- A value where the cursor stands. -/
def value : Nat → Cursor → Except ReadError (Value × Cursor)
  | 0, c => missed .value c
  | bound + 1, c =>
    match c.rest with
    | '"' :: _ => do
      let (text, c) ← string (c.advance 1)
      return (.str text, c)
    | '\x7b' :: _ =>
      let c := (c.advance 1).skipBlanks
      if c.rest.head? = some '\x7d' then .ok (.dict [], c.advance 1)
      else members bound c []
    | '[' :: _ =>
      let c := (c.advance 1).skipBlanks
      if c.rest.head? = some ']' then .ok (.list [], c.advance 1)
      else elements bound c []
    | _ => scalar c

/-- The members of an object from a name on. -/
def members : Nat → Cursor → Fields Value → Except ReadError (Value × Cursor)
  | 0, c, _ => missed .name c
  | bound + 1, c, seen =>
    if c.rest.head? ≠ some '"' then missed .name c
    else do
      let (name, c) ← string (c.advance 1)
      let c := c.skipBlanks
      if c.rest.head? ≠ some ':' then missed .colon c
      else
        let (v, c) ← value bound (c.advance 1).skipBlanks
        let c := c.skipBlanks
        let seen := seen.insert name v
        match c.rest with
        | '\x7d' :: _ => return (.dict seen, c.advance 1)
        | ',' :: _ => members bound (c.advance 1).skipBlanks seen
        | _ => missed .comma c

/-- The elements of an array from a value on; those read come last first. -/
def elements : Nat → Cursor → List Value → Except ReadError (Value × Cursor)
  | 0, c, _ => missed .value c
  | bound + 1, c, seen => do
    let (v, c) ← value bound c
    let c := c.skipBlanks
    match c.rest with
    | ']' :: _ => return (.list (v :: seen).reverse, c.advance 1)
    | ',' :: _ => elements bound (c.advance 1).skipBlanks (v :: seen)
    | _ => missed .comma c

end

/-- Reads a whole text. -/
def read (source : List Char) : Except ReadError Value := do
  if source.head? = some '\ufeff' then throw (.missed .noMark 0)
  let (v, c) ← value (source.length + 1) (Cursor.mk source 0).skipBlanks
  let c := c.skipBlanks
  if c.rest.isEmpty then return v else missed .finish c

end Addon.Json
