import Addon.Number.Layout
import Addon.Unicode.Digit
import Addon.Value.Arithmetic
import Addon.Value.Text

/-!
# Formats

A format says how a value is laid out: a fill character, an alignment, a sign rule, a width, a
separator between groups of digits, a precision and a code for the form. An empty format stands for
the plain text of the value.
-/

namespace Addon.Value

/-- Where a value stands in its width. `inside` pads between the sign and the digits. -/
inductive Alignment where
  | left | right | inside | center
deriving DecidableEq, Repr

/-- When a sign is written. -/
inductive SignRule where
  | minusOnly | always | blank
deriving DecidableEq, Repr

/-- A parsed format. -/
structure FormatSpec where
  fill : Char := ' '
  align : Alignment
  sign : Option SignRule := none
  plainZero : Bool := false
  alternate : Bool := false
  width : Option Nat := none
  separator : Option Char := none
  precision : Option Nat := none
  /-- The code of the form, if the format has one. -/
  code : Option Char := none

/-! ## Reading formats -/

def alignment? : Char → Option Alignment
  | '<' => some .left
  | '>' => some .right
  | '=' => some .inside
  | '^' => some .center
  | _ => none

def signRule? : Char → Option SignRule
  | '-' => some .minusOnly
  | '+' => some .always
  | ' ' => some .blank
  | _ => none

/-- The digits at the front of a text, as a number, if there are any. -/
def leadingNumber (cs : List Char) : Except Fault (Option Nat × List Char) :=
  go none cs
where
  go (seen : Option Nat) : List Char → Except Fault (Option Nat × List Char)
    | [] => .ok (seen, [])
    | c :: rest => match Unicode.decimalDigit? c with
      | none => .ok (seen, c :: rest)
      | some d =>
        let n := seen.getD 0 * 10 + d
        if indexBound ≤ n then .error (.format .tooManyDigits) else go (some n) rest

/-- A fill character and an alignment at the front. -/
def takeAlignment (default : Alignment) : List Char → (Char × Bool × Alignment × Bool) × List Char
  | cs@(c :: rest) =>
    match rest.head?.bind alignment? with
    | some a => ((c, true, a, true), rest.drop 1)
    | none => match alignment? c with
      | some a => ((' ', false, a, true), rest)
      | none => ((' ', false, default, false), cs)
  | [] => ((' ', false, default, false), [])

/-- Takes a character off the front if it is there. -/
def takeChar (c : Char) : List Char → Bool × List Char
  | d :: rest => if c = d then (true, rest) else (false, d :: rest)
  | [] => (false, [])

/-- The separator between groups of digits at the front. -/
def takeSeparator (cs : List Char) : Except Fault (Option Char × List Char) := do
  let (comma, cs) := takeChar ',' cs
  let (low, cs) := takeChar '_' cs
  if comma && low then throw (.format .bothSeparators)
  else if low && cs.head? = some ',' then throw (.format .bothSeparators)
  else return (if comma then some ',' else if low then some '_' else none, cs)

/-- The precision at the front. -/
def takePrecision : List Char → Except Fault (Option Nat × List Char)
  | '.' :: cs => do
    match ← leadingNumber cs with
    | (none, _) => throw (.format .missingPrecision)
    | (some n, rest) => return (some n, rest)
  | cs => return (none, cs)

/-- The codes that go with a separator: those of decimal numbers, and with `_` other bases. -/
def allowsSeparator (separator : Char) (code : Option Char) : Bool :=
  match code with
  | none => true
  | some c => "defgEG%F".toList.contains c || (separator = '_' && "boxX".toList.contains c)

/-- Reads a format for a kind of value. `implied` is the code that stands for a missing one. -/
def parseSpec (spec : String) (kind : String) (implied : Option Char) (default : Alignment) :
    Except Fault FormatSpec := do
  let ((fill, hasFill, align, hasAlign), cs) := takeAlignment default spec.toList
  let sign := cs.head?.bind signRule?
  let cs := if sign.isSome then cs.drop 1 else cs
  let (plainZero, cs) := takeChar 'z' cs
  let (alternate, cs) := takeChar '#' cs
  let (zero, cs) := if hasFill then (false, cs) else takeChar '0' cs
  let fill := if zero then '0' else fill
  let align := if zero && !hasAlign && default = .right then .inside else align
  let (width, cs) ← leadingNumber cs
  let (separator, cs) ← takeSeparator cs
  let (precision, cs) ← takePrecision cs
  let code ← match cs with
    | [] => pure implied
    | [c] => pure (some c)
    | _ => throw (.format (.invalid spec kind))
  match separator with
  | some s => if !allowsSeparator s code then throw (.format (.separatorWith s (code.getD ' ')))
  | none => pure ()
  return { fill, align, sign, plainZero, alternate, width, separator, precision, code }

/-! ## Laying out -/

/-- Fails on a width that does not fit into memory. -/
def checkWidth (spec : FormatSpec) : Except Fault Unit :=
  if spec.width.any fun w => maxItems < w then .error .outOfMemory else .ok ()

/-- Text with fill characters on its sides up to the width. -/
def pad (spec : FormatSpec) (cs : List Char) : List Char :=
  let missing := spec.width.getD 0 - cs.length
  let before := match spec.align with
    | .right => missing
    | .center => missing / 2
    | .left | .inside => 0
  List.replicate before spec.fill ++ cs ++ List.replicate (missing - before) spec.fill

/-- Digits in groups, from the right. Zeros are put in front until the width is reached. -/
def grouped (size : Nat) (separator : Char) : Nat → Int → List Char → List Char → List Char
  | 0, _, _, written => written
  | bound + 1, width, reversed, written =>
    let count := min size (max (max reversed.length width.toNat) 1)
    let group := reversed.take count
    let group := group ++ List.replicate (count - group.length) '0'
    let written := group.reverse ++ (if written.isEmpty then [] else [separator]) ++ written
    let rest := reversed.drop count
    let width := width - count
    if rest.isEmpty && width ≤ 0 then written
    else grouped size separator bound (width - 1) rest written

/-- Digits at least as long as a width, in groups if a separator is given. -/
def spreadDigits (separator : Option Char) (groupSize : Nat) (width : Int) (ds : List Char) :
    List Char :=
  match separator with
  | none => List.replicate (width.toNat - ds.length) '0' ++ ds
  | some s => grouped groupSize s (ds.length + width.toNat + 1) width ds.reverse []

/-- A number taken apart: its sign, a mark of its base, its whole digits and all that follows. -/
structure NumberText where
  negative : Bool
  mark : List Char := []
  digits : List Char
  rest : List Char := []

/-- Lays out a number. -/
def placeNumber (spec : FormatSpec) (n : NumberText) : List Char :=
  let sign := match spec.sign with
    | some .always => [if n.negative then '-' else '+']
    | some .blank => [if n.negative then '-' else ' ']
    | _ => if n.negative then ['-'] else []
  let width : Int := spec.width.getD 0
  let others : Int := sign.length + n.mark.length + n.rest.length
  let least := if spec.fill = '0' && spec.align = .inside then width - others else 0
  let inBase := spec.code.any fun c => "boxX".toList.contains c
  let digits := if n.digits.isEmpty then []
    else spreadDigits spec.separator (if inBase then 4 else 3) least n.digits
  let head := sign ++ n.mark
  let tail := digits ++ n.rest
  if spec.align = .inside then
    head ++ List.replicate (spec.width.getD 0 - (head.length + tail.length)) spec.fill ++ tail
  else pad spec (head ++ tail)

/-! ## Kinds of values -/

/-- A code that a kind of value does not have. -/
def unknownCode {α : Type} (code : Char) (kind : String) : Except Fault α :=
  .error (.format (.unknownCode code kind))

/-- Text: padded, and cut at the precision. -/
def formatText (spec : String) (text : String) : Except Fault String := do
  let f ← parseSpec spec "str" (some 's') .left
  match f.code with
  | some 's' =>
    match f.sign with
    | some .blank => throw (.format .spaceOnText)
    | some _ => throw (.format .signOnText)
    | none =>
      if f.plainZero then throw (.format .zeroCoercionOnText)
      else if f.alternate then throw (.format .alternateOnText)
      else if f.align = .inside then throw (.format .insideAlignmentOnText)
      else
        checkWidth f
        let cs := text.toList
        let cs := match f.precision with
          | some p => cs.take p
          | none => cs
        return String.ofList (pad f cs)
  | code => unknownCode (code.getD ' ') "str"

/-- The notation that a code asks for. -/
def notationOf (code : Option Char) (precision : Option Nat) : Number.Notation :=
  let digits := precision.getD 6
  match code with
  | some 'e' | some 'E' => .exponent digits
  | some 'f' | some 'F' | some '%' => .fixed digits
  | none => match precision with
    | some p => .general p
    | none => .shortest
  | _ => .general digits

/-- The style that a format asks for. -/
def styleOf (f : FormatSpec) (markWhole : Bool) : Number.Style where
  markWhole := markWhole && f.code.isNone
  alternate := f.alternate
  plainZero := f.plainZero
  upper := f.code.any fun c => "EFG".toList.contains c

/-- Takes the text of a double apart. -/
def numberText (cs : List Char) : NumberText :=
  let (negative, cs) := takeChar '-' cs
  { negative, digits := cs.takeWhile Char.isDigit, rest := cs.dropWhile Char.isDigit }

/-- The largest precision of a double. -/
def maxPrecision : Nat := 2147483647

/-- A double in a format that has been read. -/
def placeFloat (f : FormatSpec) (x : Float) : Except Fault String := do
  if f.precision.any fun p => maxPrecision < p then throw (.format .precisionTooBig)
  checkWidth f
  let isPercent := f.code = some '%'
  let x := if isPercent then x * 100 else x
  let cs := Number.formatFloat (styleOf f true) x (notationOf f.code f.precision)
  let cs := if isPercent then cs ++ ['%'] else cs
  return String.ofList (placeNumber f (numberText cs))

/-- The codes of doubles. -/
def floatCodes : List Char := "eEfFgGn%".toList

/-- A double. -/
def formatFloat (spec : String) (x : Float) : Except Fault String := do
  let f ← parseSpec spec "float" none .right
  match f.code with
  | some c => if floatCodes.contains c then placeFloat f x else unknownCode c "float"
  | none => placeFloat f x

/-- The digits of a number in the base that a code stands for, and the mark of that base. -/
def baseDigits (code : Char) (n : Nat) : Except Fault (List Char × List Char) :=
  match code with
  | 'b' => .ok (Nat.toDigits 2 n, ['0', 'b'])
  | 'o' => .ok (Nat.toDigits 8 n, ['0', 'o'])
  | 'x' => .ok (Nat.toDigits 16 n, ['0', 'x'])
  | 'X' => .ok ((Nat.toDigits 16 n).map Char.toUpper, ['0', 'X'])
  | _ => do
    let text ← intText n
    return (text.toList, [])

/-- An integer as a character. -/
def formatCharacter (f : FormatSpec) (n : Int) : Except Fault String := do
  if f.sign.isSome then throw (.format .signOnCharacter)
  else if f.alternate then throw (.format .alternateOnCharacter)
  else if n < 0 || 0x10FFFF < n then throw .overflow
  else
    checkWidth f
    return String.ofList (placeNumber f
      { negative := false, digits := [], rest := [Unicode.charOfCode n.toNat] })

/-- An integer. -/
def formatInt (spec kind : String) (n : Int) : Except Fault String := do
  let f ← parseSpec spec kind (some 'd') .right
  let code := f.code.getD 'd'
  if "bcdoxXn".toList.contains code then
    if f.precision.isSome then throw (.format .precisionOnInt)
    else if f.plainZero then throw (.format .zeroCoercionOnInt)
    else if code = 'c' then formatCharacter f n
    else
      let (digits, mark) ← baseDigits code n.natAbs
      checkWidth f
      let mark := if f.alternate then mark else []
      return String.ofList (placeNumber f { negative := decide (n < 0), mark, digits })
  else if "eEfFgG%".toList.contains code then
    let x ← (Number.Operand.int n).toFloat
    placeFloat f x
  else unknownCode code kind

/-- A complex number: both parts in the same form, the second with its sign. -/
def formatComplex (spec : String) (re im : Float) : Except Fault String := do
  let f ← parseSpec spec "complex" none .right
  match f.code with
  | some c => if !"eEfFgGn".toList.contains c then unknownCode c "complex"
  | none => pure ()
  if f.precision.any fun p => maxPrecision < p then throw (.format .precisionTooBig)
  else if f.fill = '0' then throw (.format .zeroPaddedComplex)
  else if f.align = .inside then throw (.format .insideAlignedComplex)
  else
    checkWidth f
    let isPlain := f.code.isNone
    let onlyIm := isPlain && re == 0 && !Number.isNegative re
    let form := notationOf f.code f.precision
    let text (sign : Option SignRule) (x : Float) : List Char :=
      let bare := { f with fill := ' ', align := .left, width := none, sign := sign }
      placeNumber bare (numberText (Number.formatFloat (styleOf f false) x form))
    let body := if onlyIm then text f.sign im else text f.sign re ++ text (some .always) im
    let body := body ++ ['j']
    return String.ofList (pad f (if isPlain && !onlyIm then '(' :: body ++ [')'] else body))

/-- A value in a format. -/
def format (v : Value) (spec : String) : Except Fault String :=
  if spec = "" then v.text
  else match v with
    | .str text => formatText spec text
    | .int n => formatInt spec "int" n
    | .bool b => formatInt spec "bool" (if b then 1 else 0)
    | .float x => formatFloat spec x
    | .nan _ => formatFloat spec Number.notANumber
    | .complex re im => formatComplex spec re im
    | .null | .list _ | .tuple _ | .dict _ => .error (.noFormat v.kind)

end Addon.Value
