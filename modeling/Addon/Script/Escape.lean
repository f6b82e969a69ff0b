import Addon.Script.Numeral
import Addon.Unicode.Names
import Addon.Unicode.Surrogate

/-!
# Escapes

What the text between quotes stands for. A backslash before an unknown character stands for itself.
-/

namespace Addon.Script

/-- A hexadecimal digit. -/
def isHexDigit (c : Char) : Bool :=
  c.isDigit || ('a' ≤ c && c ≤ 'f') || ('A' ≤ c && c ≤ 'F')

/-- An octal digit. -/
def isOctalDigit (c : Char) : Bool :=
  '0' ≤ c && c ≤ '7'

/-- The character that a single letter stands for after a backslash. -/
def simpleEscape? : Char → Option Char
  | '\\' => some '\\'
  | '\'' => some '\''
  | '"' => some '"'
  | 'a' => some '\x07'
  | 'b' => some '\x08'
  | 'f' => some '\x0c'
  | 'n' => some '\n'
  | 'r' => some '\r'
  | 't' => some '\t'
  | 'v' => some '\x0b'
  | _ => none

/-- Exactly `count` hexadecimal digits. -/
def hexEscape (count : Nat) (cs : List Char) : Option (Nat × List Char) :=
  let ds := cs.take count
  if ds.length = count && ds.all isHexDigit then some (digitsValue 16 ds, cs.drop count) else none

/-- Up to three octal digits. -/
def octalEscape (cs : List Char) : Nat × List Char :=
  let ds := (cs.take 3).takeWhile isOctalDigit
  (digitsValue 8 ds, cs.drop ds.length)

/-- One escape after its backslash: the text it stands for and the rest. -/
def textEscape : List Char → Option (List Char × List Char)
  | [] => some (['\\'], [])
  | '\n' :: rest => some ([], rest)
  | 'x' :: rest => (hexEscape 2 rest).map fun (n, rest) => ([Unicode.charOfCode n], rest)
  | 'u' :: rest => (hexEscape 4 rest).map fun (n, rest) => ([Unicode.charOfCode n], rest)
  | 'U' :: rest => do
    let (n, rest) ← hexEscape 8 rest
    guard (n < 0x110000)
    return ([Unicode.charOfCode n], rest)
  | 'N' :: rest =>
    match rest with
    | '\x7b' :: rest => do
      let name := rest.takeWhile (· ≠ '\x7d')
      let after := rest.dropWhile (· ≠ '\x7d')
      guard (!name.isEmpty && !after.isEmpty)
      let c ← Unicode.charNamed? (String.ofList name)
      return ([c], after.drop 1)
    | _ => none
  | c :: rest =>
    match simpleEscape? c with
    | some d => some ([d], rest)
    | none =>
      if isOctalDigit c then
        let (n, rest) := octalEscape (c :: rest)
        some ([Unicode.charOfCode n], rest)
      else some (['\\', c], rest)

/-- Resolves the escapes of a text. The result so far comes last first. -/
def unescapeOnto : Nat → List Char → List Char → Option (List Char)
  | _, [], seen => some seen.reverse
  | 0, _ :: _, _ => none
  | fuel + 1, c :: rest, seen =>
    if c = '\\' then
      match textEscape rest with
      | some (cs, rest) => unescapeOnto fuel rest (cs.reverse ++ seen)
      | none => none
    else unescapeOnto fuel rest (c :: seen)

/-- The text that a string stands for. -/
def unescape (cs : List Char) : Option (List Char) :=
  unescapeOnto cs.length cs []

/-- One escape of a byte string after its backslash. -/
def byteEscape : List Char → Option (List UInt8 × List Char)
  | [] => some ([92], [])
  | '\n' :: rest => some ([], rest)
  | 'x' :: rest => (hexEscape 2 rest).map fun (n, rest) => ([n.toUInt8], rest)
  | c :: rest =>
    match simpleEscape? c with
    | some d => some ([d.toNat.toUInt8], rest)
    | none =>
      if isOctalDigit c then
        let (n, rest) := octalEscape (c :: rest)
        some ([n.toUInt8], rest)
      else some ([92, c.toNat.toUInt8], rest)

/-- Resolves the escapes of a byte string. The result so far comes last first. -/
def unescapeBytesOnto : Nat → List Char → List UInt8 → Option (List UInt8)
  | _, [], seen => some seen.reverse
  | 0, _ :: _, _ => none
  | fuel + 1, c :: rest, seen =>
    if c = '\\' then
      match byteEscape rest with
      | some (bs, rest) => unescapeBytesOnto fuel rest (bs.reverse ++ seen)
      | none => none
    else unescapeBytesOnto fuel rest (c.toNat.toUInt8 :: seen)

/-- The bytes that a byte string stands for. It may hold ASCII characters only. -/
def unescapeBytes (isRaw : Bool) (cs : List Char) : Option (List UInt8) :=
  if !cs.all (·.toNat < 128) then none
  else if isRaw then some (cs.map fun c => c.toNat.toUInt8)
  else unescapeBytesOnto cs.length cs []

end Addon.Script
