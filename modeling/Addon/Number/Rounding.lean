/-!
# Rounded quotients

Division of natural numbers to the nearest integer, and the number of decimal digits of a quotient.
Everything that turns binary fractions into decimal text, and back, rests on these two.
-/

namespace Addon.Number

/-- A power of two. -/
def twoPow (n : Nat) : Nat := Nat.pow 2 n

/-- A power of ten. -/
def tenPow (n : Nat) : Nat := Nat.pow 10 n

/-- The integer nearest to `n / d`; a half goes to the even neighbour. -/
def roundDiv (n d : Nat) : Nat :=
  let q := n / d
  let r := n % d
  if 2 * r < d then q else if d < 2 * r then q + 1 else q + q % 2

/-- The number of decimal digits of a number; zero has one. -/
def digitCount (n : Nat) : Nat :=
  (Nat.toDigits 10 n).length

/-- The number of digits before the decimal point of `n / d`: the `e` with
`10 ^ (e - 1) ≤ n / d < 10 ^ e`, for a quotient other than zero. -/
def pointPlace (n d : Nat) : Int :=
  if d ≤ n then digitCount (n / d)
  else
    let k := digitCount (d / n)
    if d ≤ n * tenPow (k - 1) then 2 - k else 1 - k

/-- The integer nearest to `n / d * 10 ^ e`. -/
def roundScaled (n d : Nat) (e : Int) : Nat :=
  if 0 ≤ e then roundDiv (n * tenPow e.toNat) d else roundDiv n (d * tenPow (-e).toNat)

/-- The integer just below `n / d * 10 ^ e`, or equal to it. -/
def floorScaled (n d : Nat) (e : Int) : Nat :=
  if 0 ≤ e then n * tenPow e.toNat / d else n / (d * tenPow (-e).toNat)

end Addon.Number
