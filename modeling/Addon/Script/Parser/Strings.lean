import Addon.Script.Parser.Basic
import Addon.Script.Template

/-!
# String expressions

Adjacent quoted strings form one constant. If one of them is formatted, they form a joined string: a
list of constants and replacement fields in which no two constants are neighbours and none is empty.
Byte strings and text do not mix.
-/

namespace Addon.Script.Parser

/-- The constant for the literal text between two fields; none for an empty text. -/
def textPart (extent : Extent) (marked : Bool) (cs : List Char) : List Expr :=
  if cs.isEmpty then [] else [.constant extent (.str (String.ofList cs) marked)]

mutual

/-- The parts of a template. `pending` is literal text that has not become a part yet. -/
def partsOf (rules : Rules) (extent : Extent) (marked : Bool) :
    List Piece → List Char → Parser (List Expr)
  | [], pending => return textPart extent marked pending
  | piece :: rest, pending => do
    match ← partOf rules extent marked piece with
    | .inl cs => partsOf rules extent marked rest (pending ++ cs)
    | .inr (shown, field) =>
      let others ← partsOf rules extent marked rest []
      return textPart extent marked (pending ++ shown) ++ field :: others

/-- The part of one piece: text, or a field with the text it shows in front. -/
def partOf (rules : Rules) (extent : Extent) (marked : Bool) :
    Piece → Parser (List Char ⊕ (List Char × Expr))
  | .text cs => return .inl cs
  | .field source shown conversion format => do
    let value ← rules.parse (.field source extent)
    let spec ← formatOf rules extent marked format
    return .inr (shown.getD [], .formatted extent value conversion spec)

/-- The expression of a format. -/
def formatOf (rules : Rules) (extent : Extent) (marked : Bool) :
    Option (List Piece) → Parser (Option Expr)
  | none => return none
  | some format => return some (.joined extent (← partsOf rules extent marked format []))

end

/-- The pieces of one quoted string of text. -/
def piecesOf (q : Quoted) : Option (List Piece) :=
  if q.isFormatted then template q.isRaw q.body
  else if q.isRaw then some [.text q.body]
  else (unescape q.body).map fun cs => [.text cs]

/-- The next token is a quoted string. -/
def atString : Parser Bool := do
  match ← peek with
  | .quoted _ => return true
  | _ => return false

/-- Takes a quoted string. -/
def quotedToken : Parser Quoted := do
  match ← peek with
  | .quoted q =>
    let _ ← take
    return q
  | _ => failure

/-- One or more adjacent strings. -/
def strings (rules : Rules) : Parser Expr := do
  let start ← here
  let qs ← many rules atString quotedToken
  let extent ← since start
  let marked := qs.head?.any (·.isMarked)
  if qs.all (·.isBytes) then
    let parts ← qs.mapM fun q => (unescapeBytes q.isRaw q.body : Option (List UInt8))
    return .constant extent (.bytes parts.flatten)
  else if qs.any (·.isBytes) then failure
  else
    let pieces ← qs.mapM fun q => (piecesOf q : Option (List Piece))
    let parts ← partsOf rules extent marked pieces.flatten []
    if qs.any (·.isFormatted) then return .joined extent parts
    else match parts with
      | [part] => return part
      | _ => return .constant extent (.str "" marked)

end Addon.Script.Parser
