import Addon.Number.Binary64

/-!
# Shortest decimals

The fewest decimal digits that read back as the same double. For one digit, two digits and so on,
the two neighbours of the value on the grid of such decimals are tried; the first grid with a
neighbour inside the interval of reals that round to the double wins, and of two neighbours the
nearer one. Of two that are equally near, the even one wins.
-/

namespace Addon.Number

/-- A positive decimal `0.d₁d₂… * 10 ^ point` without its sign. -/
structure Digits where
  digits : List Char
  point : Int
deriving DecidableEq, Repr

/-- The digits of a number. -/
def digitsOf (n : Nat) : List Char :=
  Nat.toDigits 10 n

/-- Digits with the zeros at their end removed. -/
def trimZeros (ds : List Char) : List Char :=
  (ds.reverse.dropWhile (· == '0')).reverse

/-- The neighbour on the grid of `count` digits that reads back as `m * 2 ^ q`, if there is one. -/
def gridNeighbour? (m : Nat) (q : Int) (point : Int) (count : Nat) : Option Nat :=
  -- Everything is measured in quarters of a unit of the last place of the mantissa.
  let (n, d) := magnitude (4 * m) (q - 2)
  let (lo, _) := magnitude (4 * m - if m = twoPow 52 && -1074 < q then 1 else 2) (q - 2)
  let (hi, _) := magnitude (4 * m + 2) (q - 2)
  let scale := (count : Int) - point
  let below := floorScaled n d scale
  let above := below + 1
  -- `k` stands for `k / 10 ^ scale`; both sides of a comparison are multiplied out.
  let up := if 0 ≤ scale then tenPow scale.toNat else 1
  let down := if 0 ≤ scale then 1 else tenPow (-scale).toNat
  let inside (k : Nat) : Bool :=
    let v := k * down * d
    if m % 2 = 0 then lo * up ≤ v && v ≤ hi * up else lo * up < v && v < hi * up
  match inside below, inside above with
  | true, true =>
    let gapBelow := n * up - below * down * d
    let gapAbove := above * down * d - n * up
    if gapAbove < gapBelow || gapAbove = gapBelow && below % 2 = 1 then some above else some below
  | true, false => some below
  | false, true => some above
  | false, false => none

/-- Tries `count` digits, then more. -/
def searchGrids (m : Nat) (q : Int) (point : Int) : Nat → Nat → Nat × Nat
  | 0, count => (roundScaled (magnitude m q).1 (magnitude m q).2 (count - point), count)
  | fuel + 1, count =>
    match gridNeighbour? m q point count with
    | some k => (k, count)
    | none => searchGrids m q point fuel (count + 1)

/-- The shortest decimal that reads back as `m * 2 ^ q`; zero is the digit zero. -/
def shortest (m : Nat) (q : Int) : Digits :=
  if m = 0 then ⟨['0'], 1⟩
  else
    let (n, d) := magnitude m q
    let point := pointPlace n d
    let (k, count) := searchGrids m q point 16 1
    let ds := digitsOf k
    -- Rounding up may have added a digit.
    ⟨trimZeros ds, point + ((ds.length : Int) - count)⟩

/-- `n / d` rounded to `count` significant digits, `count` not zero. -/
def significant (n d : Nat) (count : Nat) : Digits :=
  if n = 0 then ⟨List.replicate count '0', 1⟩
  else
    let point := pointPlace n d
    let ds := digitsOf (roundScaled n d (count - point))
    if ds.length = count then ⟨ds, point⟩ else ⟨ds.take count, point + 1⟩

end Addon.Number
