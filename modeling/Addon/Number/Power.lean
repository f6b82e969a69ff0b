import Addon.Number.Binary64

/-!
# Powers of doubles

Powers with the exceptional cases decided first: zero and infinite operands, operands that are not
numbers, and negative bases. A negative base with an exponent that is not whole has a complex power.
-/

namespace Addon.Number

/-- A power of two doubles. -/
inductive Power where
  | real (x : Float)
  | complex (re im : Float)
  | divisionByZero
  | overflow

/-- The double is an odd integer. -/
def isOdd (x : Float) : Bool :=
  remainder x.abs 2 == 1

/-- The double is infinite. -/
def isInfinite (x : Float) : Bool :=
  match parts x with
  | .infinite _ => true
  | _ => false

/-- A finite double is an integer. -/
def isWhole (x : Float) : Bool :=
  remainder x 1 == 0

/-- The complex power of a negative base. -/
def complexPower (x y : Float) : Power :=
  let size := Float.pow x.abs y
  let phase := Float.atan2 0 x * y
  let re := size * Float.cos phase
  let im := size * Float.sin phase
  if isInfinite re || isInfinite im then .overflow else .complex re im

/-- The power of a positive finite base to a finite exponent, negated if asked. -/
def realPower (negated : Bool) (x y : Float) : Power :=
  let size := if x == 1 then 1 else Float.pow x y
  if isInfinite size then .overflow else .real (if negated then -size else size)

/-- The power of two doubles. -/
def power (x y : Float) : Power :=
  if y == 0 then .real 1
  else if isNaN x then .real x
  else if isNaN y then .real (if x == 1 then 1 else y)
  else if isInfinite y then
    let size := x.abs
    if size == 1 then .real 1
    else if decide (0 < y) == decide (1 < size) then .real y.abs
    else .real 0
  else if isInfinite x then
    if 0 < y then .real (if isOdd y then x else x.abs)
    else .real (if isOdd y then zeroLike x else 0)
  else if x == 0 then
    if y < 0 then .divisionByZero else .real (if isOdd y then x else 0)
  else if x < 0 then
    if isWhole y then realPower (isOdd y) (-x) y else complexPower x y
  else realPower false x y

end Addon.Number
