import Addon.Number.Text
import Addon.Script.Tree

/-!
# Numerals

Integers are written in decimal, hexadecimal, octal or binary. Fractions and exponents make a
double, and a final `j` an imaginary number. Single underscores may stand between digits. A decimal
integer other than zero has no leading zeros and at most 4300 digits. Nothing that could continue a
word may follow a numeral, except the start of a few operators that are words.
-/

namespace Addon.Script

/-- The value of a digit in any base up to sixteen. -/
def digitValue (c : Char) : Nat :=
  if c.isDigit then c.toNat - '0'.toNat
  else if c.isLower then c.toNat - 'a'.toNat + 10
  else c.toNat - 'A'.toNat + 10

/-- The value of a row of digits. -/
def digitsValue (base : Nat) (ds : List Char) : Nat :=
  ds.foldl (fun n c => base * n + digitValue c) 0

/-- Digits with single underscores between them. Returns the digits, last first, and the rest. At
least one digit has to come first, and a digit after each underscore. -/
def digitRun (isDigit : Char → Bool) : List Char → List Char → Option (List Char × List Char)
  | '_' :: c :: rest, seen =>
    if seen.isEmpty || !isDigit c then none else digitRun isDigit rest (c :: seen)
  | c :: rest, seen =>
    if isDigit c then digitRun isDigit rest (c :: seen)
    else if seen.isEmpty || c == '_' then none
    else some (seen, c :: rest)
  | [], seen => if seen.isEmpty then none else some (seen, [])

/-- A word may go on with `c`; characters beyond ASCII are taken for letters here. -/
def mayContinueWord (c : Char) : Bool :=
  c.isAlphanum || c == '_' || 128 ≤ c.toNat

/-- A numeral may end before this text. -/
def endsNumeral : List Char → Bool
  | [] => true
  | c :: rest =>
    !mayContinueWord c ||
      match c with
      | 'a' => "nd".toList.isPrefixOf rest
      | 'e' => "lse".toList.isPrefixOf rest
      | 'f' => "or".toList.isPrefixOf rest
      | 'i' => rest.head?.any fun d => d == 'f' || d == 'n' || d == 's'
      | 'o' => "r".toList.isPrefixOf rest
      | 'n' => "ot".toList.isPrefixOf rest
      | _ => false

/-- An integer in a base that its first two characters name. -/
def basedInteger (base : Nat) (isDigit : Char → Bool) (cs : List Char) :
    Option (Literal × List Char) := do
  let cs := if cs.head? == some '_' then cs.drop 1 else cs
  let (ds, rest) ← digitRun isDigit cs []
  guard (endsNumeral rest)
  return (.int (digitsValue base ds.reverse), rest)

/-- A fraction after its point, or nothing when no digit follows. -/
def fraction (cs : List Char) : Option (List Char × List Char) :=
  if cs.head?.any Char.isDigit then digitRun Char.isDigit cs [] else some ([], cs)

/-- An exponent, or nothing when there is none. A letter `e` that starts a word is no exponent. -/
def exponent (cs : List Char) : Option (Option Int × List Char) :=
  match cs with
  | c :: rest =>
    if c != 'e' && c != 'E' then some (none, cs)
    else match rest with
      | sign :: digits =>
        if sign == '+' || sign == '-' then do
          let (ds, rest) ← digitRun Char.isDigit digits []
          let n := digitsValue 10 ds.reverse
          return (some (if sign == '-' then -n else n), rest)
        else if sign.isDigit then do
          let (ds, rest) ← digitRun Char.isDigit rest []
          return (some (digitsValue 10 ds.reverse), rest)
        else if endsNumeral cs then some (none, cs) else none
      | [] => none
  | [] => some (none, cs)

/-- What follows the whole part of a decimal numeral, whose digits come last first. -/
def decimalTail (whole : List Char) (cs : List Char) : Option (Literal × List Char) := do
  let (hasPoint, (frac, rest)) ←
    match cs with
    | '.' :: rest => (fraction rest).map (true, ·)
    | _ => some (false, ([], cs))
  let (exp, rest) ← exponent rest
  let digits := digitsValue 10 (whole.reverse ++ frac.reverse)
  let float := Number.ofDecimal false digits (exp.getD 0 - frac.length)
  match rest with
  | 'j' :: rest | 'J' :: rest =>
    guard (endsNumeral rest)
    return (.imaginary float, rest)
  | _ =>
    guard (endsNumeral rest)
    if hasPoint || exp.isSome then return (.float float, rest)
    else
      -- A row of zeros is zero, but no other number starts with a zero.
      guard (digits == 0 || whole.getLast? != some '0')
      guard (digits == 0 || whole.length ≤ Number.maxIntDigits)
      return (.int digits, rest)

/-- Reads a numeral at the front of a text that starts with a digit, or with a point and a digit. -/
def numeral : List Char → Option (Literal × List Char)
  | '0' :: 'x' :: rest | '0' :: 'X' :: rest =>
    basedInteger 16 (fun c => c.isDigit || ('a' ≤ c && c ≤ 'f') || ('A' ≤ c && c ≤ 'F')) rest
  | '0' :: 'o' :: rest | '0' :: 'O' :: rest => basedInteger 8 (fun c => '0' ≤ c && c ≤ '7') rest
  | '0' :: 'b' :: rest | '0' :: 'B' :: rest => basedInteger 2 (fun c => c == '0' || c == '1') rest
  | '.' :: rest => decimalTail [] ('.' :: rest)
  | cs => do
    let (whole, rest) ← digitRun Char.isDigit cs []
    decimalTail whole rest

end Addon.Script
