import Addon.Unicode.Printable
import Addon.Unicode.Surrogate

/-!
# Quoted text

Text between quotes. Single quotes are used unless the text has some and has no double ones. The
quote, the backslash and every character that is not printable are written as escapes.
-/

namespace Addon.Text

/-- The lower-case hexadecimal digits of a number, with zeros in front up to a width. -/
def hex (width n : Nat) : List Char :=
  let ds := Nat.toDigits 16 n
  List.replicate (width - ds.length) '0' ++ ds

/-- The escape that stands for a character. -/
def escapeChar (c : Char) : List Char :=
  if c = '\\' then ['\\', '\\']
  else if c = '\n' then ['\\', 'n']
  else if c = '\r' then ['\\', 'r']
  else if c = '\t' then ['\\', 't']
  else
    let code := Unicode.codeOf c
    if code < 0x100 then '\\' :: 'x' :: hex 2 code
    else if code < 0x10000 then '\\' :: 'u' :: hex 4 code
    else '\\' :: 'U' :: hex 8 code

/-- The quote for a text. -/
def quoteFor (cs : List Char) : Char :=
  if cs.contains '\'' && !cs.contains '"' then '"' else '\''

/-- A character inside quotes. -/
def quotedChar (quote c : Char) : List Char :=
  if c = quote then ['\\', c]
  else if c = '\\' || !Unicode.isPrintable c then escapeChar c
  else [c]

/-- The inside of a quoted text, without the quotes. -/
def quotedBody (cs : List Char) : List Char :=
  cs.flatMap (quotedChar (quoteFor cs))

/-- A text in quotes. -/
def quoted (text : String) : String :=
  let cs := text.toList
  let quote := quoteFor cs
  String.ofList (quote :: quotedBody cs ++ [quote])

/-- A byte inside quotes. -/
def quotedByte (quote : Char) (b : UInt8) : List Char :=
  let c := Char.ofNat b.toNat
  if c = quote then ['\\', c]
  else if c = '\\' || b.toNat < 0x20 || 0x7F ≤ b.toNat then escapeChar c
  else [c]

/-- Bytes in quotes. -/
def quotedBytes (data : List UInt8) : String :=
  let quote := quoteFor (data.map fun b => Char.ofNat b.toNat)
  String.ofList ('b' :: quote :: data.flatMap (quotedByte quote) ++ [quote])

end Addon.Text
