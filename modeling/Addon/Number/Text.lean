import Addon.Number.Shortest

/-!
# Numbers as text

The written form of numbers. A double has the fewest digits that read back. It is written
positionally while its decimal point lies at most sixteen places behind and fewer than four before
the first digit, and with an exponent of at least two digits otherwise. Integers of more than
`maxIntDigits` digits are not written at all.
-/

namespace Addon.Number

/-- The number of digits up to which an integer is read or written. -/
def maxIntDigits : Nat := 4300

/-- An integer in decimal digits, unless it has too many. -/
def intText? (n : Int) : Option String :=
  if n.natAbs < tenPow maxIntDigits then some (toString n) else none

/-- An exponent: a sign and at least two digits. -/
def exponentText (e : Int) : List Char :=
  let ds := digitsOf e.natAbs
  (if e < 0 then '-' else '+') :: (if ds.length < 2 then '0' :: ds else ds)

/-- Digits with a decimal point somewhere between, before or behind them. -/
def positional (ds : List Char) (point : Int) (markWhole : Bool) : List Char :=
  if point ≤ 0 then '0' :: '.' :: List.replicate (-point).toNat '0' ++ ds
  else
    let place := point.toNat
    if place < ds.length then ds.take place ++ '.' :: ds.drop place
    else ds ++ List.replicate (place - ds.length) '0' ++ if markWhole then ['.', '0'] else []

/-- Digits with one of them before the decimal point, and an exponent. -/
def scientific (ds : List Char) (point : Int) : List Char :=
  let mantissa := match ds with
    | d :: rest => if rest.isEmpty then [d] else d :: '.' :: rest
    | [] => []
  mantissa ++ 'e' :: exponentText (point - 1)

/-- The shortest text of a double. With `markWhole` a whole number ends in `.0`. -/
def floatChars (markWhole : Bool) (x : Float) : List Char :=
  match parts x with
  | .nan => "nan".toList
  | .infinite negative => (if negative then "-inf" else "inf").toList
  | .finite negative m q =>
    let s := shortest m q
    let body := if -4 < s.point && s.point ≤ 16 then positional s.digits s.point markWhole
      else scientific s.digits s.point
    if negative then '-' :: body else body

/-- The shortest text of a double, which tells it from an integer. -/
def floatText (x : Float) : String :=
  String.ofList (floatChars true x)

/-- The shortest text of the imaginary part of a complex number. -/
def imaginaryText (x : Float) : String :=
  String.ofList (floatChars false x ++ ['j'])

end Addon.Number
