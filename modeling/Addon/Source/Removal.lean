/-!
# Removing spans of text

Spans are half-open ranges of character offsets. Spans that do not overlap can be cut out of a text
in one pass, and the text can be put together again from what is left and what was cut out.
-/

namespace Addon.Source

/-- A half-open range of offsets. It may reach beyond the text it is used for. -/
structure Span where
  start : Nat
  stop : Nat
  start_le_stop : start ≤ stop
deriving DecidableEq, Repr

/-- What can be wrong with spans. -/
inductive SpanError where
  /-- The bounds are negative or the wrong way round. -/
  | invalid (start stop : Int)
  /-- Two spans share a place. -/
  | overlapping (a b : Span)
  /-- The number of removed texts differs from that of spans. -/
  | textCount
deriving DecidableEq, Repr

def SpanError.message : SpanError → String
  | .invalid start stop => s!"Invalid removal span [{start}, {stop})."
  | .overlapping a b =>
    s!"Overlapping removal spans [{a.start}, {a.stop}) and [{b.start}, {b.stop})."
  | .textCount => "Each removal span needs exactly one removed text."

namespace Span

/-- The span between two bounds. -/
def make (start stop : Int) : Except SpanError Span :=
  if h : start < 0 ∨ stop < start then .error (.invalid start stop)
  else .ok ⟨start.toNat, stop.toNat, by omega⟩

/-- The number of offsets in a span. -/
def length (s : Span) : Nat :=
  s.stop - s.start

/-- The order of spans: by start, then by end. -/
def le (a b : Span) : Bool :=
  a.start < b.start || (a.start = b.start && a.stop ≤ b.stop)

end Span

/-- Fails at the first two neighbours that overlap. -/
def checkDisjoint : List Span → Except SpanError Unit
  | a :: b :: rest =>
    if b.start < a.stop then .error (.overlapping a b) else checkDisjoint (b :: rest)
  | _ => .ok ()

/-- The spans in order, if no two of them overlap. -/
def ordered (spans : List Span) : Except SpanError (List Span) := do
  let sorted := spans.mergeSort Span.le
  checkDisjoint sorted
  return sorted

/-- The text from one offset up to another. -/
def cut (source : List Char) (start stop : Nat) : List Char :=
  (source.take stop).drop start

/-- What is left of a text from an offset on when ordered spans are cut out. -/
def remaining (source : List Char) : Nat → List Span → List Char
  | offset, [] => source.drop offset
  | offset, s :: rest => cut source offset s.start ++ remaining source s.stop rest

/-- The text without the spans. -/
def applyRemovals (source : List Char) (spans : List Span) : Except SpanError (List Char) := do
  return remaining source 0 (← ordered spans)

/-- The texts of the spans, in the order of the spans. -/
def removedTexts (source : List Char) (spans : List Span) :
    Except SpanError (List (List Char)) := do
  return (← ordered spans).map fun s => cut source s.start s.stop

/-- Puts texts back into a text at the places of ordered spans. `offset` is where the text goes on
and `removed` the number of characters that earlier spans took away. -/
def refill (stripped : List Char) : Nat → Nat → List Span → List (List Char) → List Char
  | offset, removed, s :: spans, text :: texts =>
    let place := s.start - removed
    cut stripped offset place ++ text ++ refill stripped place (removed + s.length) spans texts
  | offset, _, _, _ => stripped.drop offset

/-- The text with the removed texts back in the places of the spans. -/
def restore (stripped : List Char) (spans : List Span) (texts : List (List Char)) :
    Except SpanError (List Char) := do
  let spans ← ordered spans
  if spans.length ≠ texts.length then throw .textCount
  else return refill stripped 0 0 spans texts

end Addon.Source
