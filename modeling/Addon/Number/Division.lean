import Addon.Number.Binary64

/-!
# Floored division of doubles

The quotient is rounded down, and the remainder has the sign of the divisor.
The divisor is not zero.
-/

namespace Addon.Number

/-- The remainder with the sign of the divisor. -/
def flooredRemainder (x y : Float) : Float :=
  let r := remainder x y
  if r == 0 then zeroLike y
  else if decide (y < 0) != decide (r < 0) then r + y
  else r

/-- The quotient rounded down. -/
def flooredQuotient (x y : Float) : Float :=
  let r := remainder x y
  let raw := (x - r) / y
  let quotient := if r != 0 && decide (y < 0) != decide (r < 0) then raw - 1 else raw
  if quotient == 0 then zeroLike (x / y)
  else
    -- The quotient is close to an integer; take the nearest one.
    let whole := quotient.floor
    if 0.5 < quotient - whole then whole + 1 else whole

end Addon.Number
