import Addon.Number.Text

/-!
# Layouts of doubles

The written forms of a double that a format can ask for: with a fixed number of places, with an
exponent, with a number of significant digits, or the shortest one.
-/

namespace Addon.Number

/-- The notations of a double. -/
inductive Notation where
  /-- A fixed number of places. -/
  | fixed (places : Nat)
  /-- An exponent and a fixed number of places. -/
  | exponent (places : Nat)
  /-- So many significant digits, with an exponent only where that is shorter. -/
  | general (digits : Nat)
  /-- The shortest text that reads back. -/
  | shortest
deriving DecidableEq, Repr

/-- What else a format says about a double. -/
structure Style where
  /-- A whole number ends in `.0`. -/
  markWhole : Bool := false
  /-- The decimal point stays even with nothing behind it, and so do zeros at the end. -/
  alternate : Bool := false
  /-- A zero has no sign. -/
  plainZero : Bool := false
  /-- Letters are capitals. -/
  upper : Bool := false

/-- Digits with the place of their decimal point, the least number of digits to write, and
whether an exponent is used. -/
structure Layout where
  digits : List Char
  point : Int
  least : Int
  useExponent : Bool

/-- More places than any double has digits behind its decimal point, and more than it has
significant digits. Only zeros follow them. -/
def exactPlaces : Nat := 1100

/-- The layout of a magnitude. -/
def layout (style : Style) (m : Nat) (q : Int) : Notation → Layout
  | .fixed places =>
    let (n, d) := magnitude m q
    let exact := min places exactPlaces
    let k := roundScaled n d exact
    if k = 0 then ⟨[], -places, 0, false⟩
    else
      let ds := digitsOf k
      ⟨ds, ds.length - exact, ds.length - exact + places, false⟩
  | .exponent places =>
    let (n, d) := magnitude m q
    let s := significant n d (min (places + 1) exactPlaces)
    ⟨s.digits, s.point, places + 1, true⟩
  | .general count =>
    let count := max count 1
    let (n, d) := magnitude m q
    let s := significant n d (min count exactPlaces)
    let trimmed := trimZeros s.digits
    let digits := if trimmed.isEmpty then ['0'] else trimmed
    let last : Int := if style.markWhole then count - 1 else count
    ⟨digits, s.point, if style.alternate then count else digits.length, s.point ≤
      -4 || last < s.point⟩
  | .shortest =>
    let s := Number.shortest m q
    ⟨s.digits, s.point, s.digits.length, s.point ≤ -4 || 16 < s.point⟩

/-- Writes a layout. -/
def Layout.write (style : Style) (l : Layout) : List Char :=
  let point := if l.useExponent then 1 else l.point
  let least := max l.least (if !l.useExponent && style.markWhole then point + 1 else point)
  let ds := l.digits ++ List.replicate (least - l.digits.length).toNat '0'
  let whole := if point ≤ 0 then ['0'] else ds.take point.toNat
  let places := if point ≤ 0 then List.replicate (-point).toNat '0' ++ ds else ds.drop point.toNat
  let body := if places.isEmpty && !style.alternate then whole else whole ++ '.' :: places
  if l.useExponent then body ++ (if style.upper then 'E' else 'e') :: exponentText (l.point - 1)
  else body

/-- The text of a double in a notation. -/
def formatFloat (style : Style) (x : Float) (form : Notation) : List Char :=
  match parts x with
  | .nan => (if style.upper then "NAN" else "nan").toList
  | .infinite negative =>
    (if negative then ['-'] else []) ++ (if style.upper then "INF" else "inf").toList
  | .finite negative m q =>
    let l := layout style m q form
    let isZero := l.digits = [] || l.digits.all (· == '0')
    let signed := negative && !(style.plainZero && isZero)
    if signed then '-' :: l.write style else l.write style

end Addon.Number
