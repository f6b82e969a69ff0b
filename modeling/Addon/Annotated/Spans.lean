import Addon.Failure
import Addon.Source.Index

/-!
# Spans of markers

Where markers stand in the text, so that they can be cut out of it. A decorator that
stands alone on its lines goes with the lines. Markers in annotations go with the text
that joins them to what is left.
-/

namespace Addon.Annotated

open Script Source

/-- The offset of a position. -/
def offsetOf (index : Index) (p : Position) : Attempt Nat :=
  match index.offset? p.line p.column with
  | some n => .ok n
  | none => .error (.cut .noLine)

/-- Where an expression starts. -/
def startOf (index : Index) (e : Expr) : Attempt Nat :=
  offsetOf index e.extent.start

/-- Where an expression ends. -/
def stopOf (index : Index) (e : Expr) : Attempt Nat :=
  offsetOf index e.extent.stop

/-- The span between two offsets. -/
def spanOf (start stop : Nat) : Attempt Span :=
  .ofSpans (Span.make start stop)

/-- What may stand between the sign of a decorator and its expression. -/
def isGap (c : Char) : Bool :=
  c = ' ' || c = '\t' || c = '\x0c' || c = '\\' || c = '\r' || c = '\n'

/-- The offset of the sign of the decorator whose expression starts at an offset. -/
def signBefore? (source : List Char) (start : Nat) : Option Nat :=
  let before := (source.take start).reverse.dropWhile isGap
  match before with
  | '@' :: rest => some rest.length
  | _ => none

/-- The text holds only blanks. -/
def isBlankText (cs : List Char) : Bool :=
  cs.all Unicode.isBlank

/-- The span of a decorator with its sign. -/
def decoratorSpan (scope : Scope) (index : Index) (decorator : Expr) : Attempt Span := do
  let start ← startOf index decorator
  let stop ← stopOf index decorator
  match signBefore? index.source start with
  | none => complainAt scope .noDecoratorSign decorator
  | some start =>
    let lineStart := (index.lineBounds start).1
    let lineStop := (index.lineBounds (max (stop - 1 : Int) start)).2
    if isBlankText (cut index.source lineStart start) &&
      isBlankText (cut index.source stop lineStop) then
      spanOf lineStart lineStop
    else spanOf start stop

/-- The spans to cut out for a marker at a place among the items of an annotation with metadata. If
there is no other metadata, only the type is left. -/
def metadataSpans (index : Index) (annotated : Expr) (items : List Expr) (place : Nat) :
    Attempt (List Span) :=
  match items with
  | [base, _] => do
    let opening ← spanOf (← startOf index annotated) (← startOf index base)
    let closing ← spanOf (← stopOf index base) (← stopOf index annotated)
    return [opening, closing]
  | _ =>
    match items[place - 1]?, items[place]? with
    | some before, some marker => do
      let s ← spanOf (← stopOf index before) (← stopOf index marker)
      return [s]
    | _, _ => .ok []

/-- The span of the annotation of a parameter that is only a marker. -/
def bareSpan (index : Index) (param : Param) (marker : Expr) : Attempt Span := do
  let start ← offsetOf index param.extent.start
  let stop ← stopOf index marker
  spanOf (start + param.name.length) stop

end Addon.Annotated
