import Addon.Number.Rounding

/-!
# Binary fractions

A double is a sign and a binary fraction `m * 2 ^ q`, or infinite, or not a number. Conversions
from exact numbers round to the nearest double, a tie going to the even mantissa; beyond the
largest double lies infinity.
-/

namespace Addon.Number

/-- The parts of a double. -/
inductive Parts where
  | nan
  | infinite (negative : Bool)
  | finite (negative : Bool) (mantissa : Nat) (exponent : Int)
deriving DecidableEq, Repr

/-- Takes a double apart. -/
def parts (x : Float) : Parts :=
  let bits := x.toBits.toNat
  let negative := bits / twoPow 63 == 1
  let biased : Nat := bits / twoPow 52 % twoPow 11
  let fraction := bits % twoPow 52
  if biased == 2047 then (if fraction == 0 then .infinite negative else .nan)
  else if biased == 0 then .finite negative fraction (-1074)
  else .finite negative (twoPow 52 + fraction) (biased - 1075)

/-- The double with the given sign whose magnitude has the given bits. -/
def ofMagnitudeBits (negative : Bool) (bits : Nat) : Float :=
  Float.ofBits (bits + if negative then twoPow 63 else 0).toUInt64

/-- The bits of the double nearest to `n / d`. -/
def ratioBits (n d : Nat) : Nat :=
  if n = 0 then 0
  else
    let guess : Int := n.log2 - d.log2
    -- The quotient lies between `2 ^ (guess - 1)` and `2 ^ (guess + 1)`.
    let below := if 0 ≤ guess then n < d * twoPow guess.toNat else n * twoPow (-guess).toNat < d
    let top := if below then guess - 1 else guess
    let q := max (top - 52) (-1074)
    let m := if 0 ≤ q then roundDiv n (d * twoPow q.toNat) else roundDiv (n * twoPow (-q).toNat) d
    min ((q + 1074).toNat * twoPow 52 + m) (2047 * twoPow 52)

/-- The double nearest to `n / d`, with a sign. -/
def ofRatio (negative : Bool) (n d : Nat) : Float :=
  ofMagnitudeBits negative (ratioBits n d)

/-- The double nearest to `digits * 10 ^ e`, with a sign. Magnitudes far outside the range are
decided by the number of digits alone. -/
def ofDecimal (negative : Bool) (digits : Nat) (e : Int) : Float :=
  let size := digitCount digits + e
  if digits = 0 || size < -330 then ofMagnitudeBits negative 0
  else if 310 < size then ofMagnitudeBits negative (2047 * twoPow 52)
  else if 0 ≤ e then ofRatio negative (digits * tenPow e.toNat) 1
  else ofRatio negative digits (tenPow (-e).toNat)

/-- The double nearest to an integer, unless it lies beyond all doubles. -/
def ofInt? (n : Int) : Option Float :=
  let bits := ratioBits n.natAbs 1
  if bits < 2047 * twoPow 52 then some (ofMagnitudeBits (n < 0) bits) else none

/-- The double nearest to the quotient of two integers, unless it lies beyond all doubles. Zero
keeps the sign of the quotient. -/
def ofQuotient? (n d : Int) : Option Float :=
  let bits := ratioBits n.natAbs d.natAbs
  let negative := decide (n < 0) != decide (d < 0)
  if bits < 2047 * twoPow 52 then some (ofMagnitudeBits negative bits) else none

/-- A magnitude `m * 2 ^ q` as a quotient. -/
def magnitude (m : Nat) (q : Int) : Nat × Nat :=
  if 0 ≤ q then (m * twoPow q.toNat, 1) else (m, twoPow (-q).toNat)

/-- A finite double rounded toward zero to an integer. -/
def truncate (negative : Bool) (m : Nat) (q : Int) : Int :=
  let size := if 0 ≤ q then m * twoPow q.toNat else m / twoPow (-q).toNat
  if negative then -size else size

def infinity : Float := Float.ofBits 0x7FF0000000000000

def notANumber : Float := Float.ofBits 0x7FF8000000000000

/-- The double is not a number. -/
def isNaN (x : Float) : Bool :=
  parts x = .nan

/-- The sign bit is set. -/
def isNegative (x : Float) : Bool :=
  x.toBits.toNat / twoPow 63 == 1

/-- Zero with the sign of a double. -/
def zeroLike (x : Float) : Float :=
  ofMagnitudeBits (isNegative x) 0

/-- The exact remainder of two doubles, with the sign of the first. -/
def remainder (x y : Float) : Float :=
  match parts x, parts y with
  | .nan, _ | _, .nan | .infinite _, _ => notANumber
  | .finite .., .infinite _ => x
  | .finite s m q, .finite _ n r =>
    if n = 0 then notANumber
    else
      let low := min q r
      let k := m * twoPow (q - low).toNat % (n * twoPow (r - low).toNat)
      let (num, den) := magnitude k low
      ofRatio s num den

/-- Compares a finite or infinite double with an integer; nothing is said of
one that is no number. -/
def compareInt? (x : Float) (n : Int) : Option Ordering :=
  match parts x with
  | .nan => none
  | .infinite s => some (if s then .lt else .gt)
  | .finite s m q =>
    let (num, den) := magnitude m q
    let signed : Int := if s then -num else num
    some (compare signed (n * den))

end Addon.Number
