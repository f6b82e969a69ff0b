import Addon.Script.Escape
import Addon.Script.Token

/-!
# Templates

A formatted string is a template: literal text with replacement fields in braces. A field holds the
text of an expression, possibly a conversion, and possibly a format, which is a template itself. A
doubled brace in the literal text stands for one; inside a format braces are never doubled.

An expression ends at the first `!`, `:`, `=` or closing brace outside brackets and strings that is
not part of a comparison. It must not hold a backslash or a comment sign.
-/

namespace Addon.Script

/-- A part of a template. `shown` is the literal text that a field with `=`
puts in front of itself. -/
inductive Piece where
  | text (cs : List Char)
  | field (source : List Char) (shown : Option (List Char)) (conversion : Option Conversion)
      (format : Option (List Piece))

/-! ## The extent of an expression -/

/-- Where a scan through an expression stands: in a string with a given quote, or outside. -/
structure FieldScan where
  /-- The open brackets, innermost first, by the bracket that closes them. -/
  brackets : List Char
  /-- The quote of the string that is open, and whether it is tripled. -/
  string : Option (Char × Bool)

/-- What one character of an expression does. -/
inductive FieldStep where
  /-- Go on, taking a number of further characters as they are. -/
  | next (s : FieldScan) (verbatim : Nat)
  | done
  | bad

/-- A bracket opens; it is closed by `close`. -/
def FieldScan.push (s : FieldScan) (close : Char) : FieldStep :=
  if s.brackets.length < 200 then .next { s with brackets := close :: s.brackets } 0 else .bad

/-- A character inside a string. -/
def FieldScan.inString (s : FieldScan) (quote : Char) (triple : Bool) (c : Char)
    (rest : List Char) :
    FieldStep :=
  if c ≠ quote then .next s 0
  else if !triple then .next { s with string := none } 0
  else if rest.take 2 == [quote, quote] then .next { s with string := none } 2
  else .next s 0

/-- A character outside strings. -/
def FieldScan.outside (s : FieldScan) (c : Char) (rest : List Char) : FieldStep :=
  if c = '\'' || c = '"' then
    if rest.take 2 == [c, c] then .next { s with string := some (c, true) } 2
    else .next { s with string := some (c, false) } 0
  else if c = '(' then s.push ')'
  else if c = '[' then s.push ']'
  else if c = '\x7b' then s.push '\x7d'
  else if c = '#' then .bad
  else if s.brackets.isEmpty && ['!', ':', '\x7d', '=', '<', '>'].contains c then
    if ['!', '=', '<', '>'].contains c && rest.head? == some '=' then .next s 1
    else if c = '<' || c = '>' then .next s 0
    else .done
  else if c = ')' || c = ']' || c = '\x7d' then
    match s.brackets with
    | top :: outer => if top = c then .next { s with brackets := outer } 0 else .bad
    | [] => .bad
  else .next s 0

/-- The text of an expression, last character first, and the rest, which starts with the character
that ends it. -/
def fieldSource : FieldScan → Nat → List Char → List Char → Option (List Char × List Char)
  | _, _, [], _ => none
  | s, n + 1, c :: rest, seen => fieldSource s n rest (c :: seen)
  | s, 0, c :: rest, seen =>
    if c = '\\' then none
    else
      let step := match s.string with
        | some (quote, triple) => s.inString quote triple c rest
        | none => s.outside c rest
      match step with
      | .next t n => fieldSource t n rest (c :: seen)
      | .done => some (seen, c :: rest)
      | .bad => none

/-! ## Literal text -/

/-- The end of a stretch of literal text. -/
inductive LiteralEnd where
  /-- At a brace that starts a field or ends a format, or at the end. -/
  | stop
  /-- Behind a doubled brace, of which the text holds one. -/
  | doubled

/-- A stretch of literal text, last character first. Braces are doubled only outside formats. -/
def literalText (isRaw nested : Bool) :
    Nat → List Char → List Char → Option (List Char × List Char × LiteralEnd)
  | _, [], seen => some (seen, [], .stop)
  | 0, _ :: _, _ => none
  | fuel + 1, c :: rest, seen =>
    if c = '\\' && !isRaw then
      match rest with
      | [] => some (c :: seen, [], .stop)
      | 'N' :: '\x7b' :: after =>
        -- A character name keeps its braces.
        let name := after.takeWhile (· ≠ '\x7d')
        let tail := after.dropWhile (· ≠ '\x7d')
        literalText isRaw nested fuel (tail.drop 1)
          ((tail.take 1).reverse ++ name.reverse ++ '\x7b' :: 'N' :: c :: seen)
      | d :: after =>
        if d = '\x7b' || d = '\x7d' then brace d after (c :: seen) rest
        else literalText isRaw nested fuel after (d :: c :: seen)
    else if c = '\x7b' || c = '\x7d' then brace c rest seen (c :: rest)
    else literalText isRaw nested fuel rest (c :: seen)
where
  /-- A brace `c` before `after`; `here` is the text from the brace on. -/
  brace (c : Char) (after seen here : List Char) : Option (List Char × List Char × LiteralEnd) :=
    if nested then some (seen, here, .stop)
    else if after.head? == some c then some (c :: seen, after.drop 1, .doubled)
    else if c = '\x7d' then none
    else some (seen, here, .stop)

/-! ## Fields -/

/-- The white space that may follow the sign of a shown expression. -/
def isFieldBlank (c : Char) : Bool :=
  c == ' ' || (9 ≤ c.toNat && c.toNat ≤ 13)

/-- The part of a field behind its expression: the shown text, the conversion and the format. -/
def fieldTail (parseFormat : List Char → Option (List Piece × List Char)) (source : List Char)
    (cs : List Char) : Option (Piece × List Char) := do
  let (shown, cs) :=
    match cs with
    | '=' :: rest =>
      let blanks := rest.takeWhile isFieldBlank
      (some (source ++ '=' :: blanks), rest.dropWhile isFieldBlank)
    | _ => (none, cs)
  let (conversion, cs) ←
    match cs with
    | '!' :: 's' :: rest => some (some Conversion.str, rest)
    | '!' :: 'r' :: rest => some (some Conversion.repr, rest)
    | '!' :: 'a' :: rest => some (some Conversion.ascii, rest)
    | '!' :: _ => none
    | _ => some (none, cs)
  let (format, cs) ←
    match cs with
    | ':' :: rest => (parseFormat rest).map fun (ps, rest) => (some ps, rest)
    | _ => some (none, cs)
  match cs with
  | '\x7d' :: rest =>
    let conversion := if shown.isSome && format.isNone && conversion.isNone then some .repr
      else conversion
    return (.field source shown conversion format, rest)
  | _ => none

/-- A field without an expression. -/
def isBlankField (source : List Char) : Bool :=
  source.all fun c => c == ' ' || c == '\t' || c == '\n' || c == '\x0c'

/-- The pieces of a template up to its end, or up to the brace that ends a format. `depth` counts
how deep formats may still nest; the innermost holds no fields. -/
def pieces (isRaw : Bool) : Nat → Bool → Nat → List Char → Option (List Piece × List Char)
  | _, _, 0, _ => none
  | depth, nested, fuel + 1, cs => do
    let (seen, rest, ending) ← literalText isRaw nested (cs.length + 1) cs []
    let literal ← if isRaw then some seen.reverse else unescape seen.reverse
    let text := if literal.isEmpty then [] else [Piece.text literal]
    match ending with
    | .doubled =>
      let (ps, rest) ← pieces isRaw depth nested fuel rest
      return (text ++ ps, rest)
    | .stop =>
      match rest with
      | [] => return (text, [])
      | c :: after =>
        if c = '\x7d' then return (text, rest)
        else match depth with
          | 0 => none
          | depth + 1 => do
            let (source, rest) ← fieldSource ⟨[], none⟩ 0 after []
            guard (!isBlankField source)
            let (field, rest) ←
              fieldTail (pieces isRaw depth true fuel) source.reverse rest
            let (ps, rest) ← pieces isRaw (depth + 1) nested fuel rest
            return (text ++ field :: ps, rest)

/-- The pieces of a whole template. -/
def template (isRaw : Bool) (cs : List Char) : Option (List Piece) := do
  let (ps, rest) ← pieces isRaw 2 false (cs.length + 1) cs
  guard rest.isEmpty
  return ps

end Addon.Script
