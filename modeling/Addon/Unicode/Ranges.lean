/-!
# Character sets as ranges

A set of characters is a list of inclusive ranges of code points in ascending order.
-/

namespace Addon.Unicode

/-- Membership of a code point in an ascending list of inclusive ranges. The search ends at the
first range that starts above the code point. -/
def memRanges (n : Nat) : List (Nat × Nat) → Bool
  | [] => false
  | (lo, hi) :: rest => if n < lo then false else if n ≤ hi then true else memRanges n rest

/-! ## Ranges from numbers -/

/-- Numbers two by two. -/
def pairUp : List Nat → List (Nat × Nat)
  | a :: b :: rest => (a, b) :: pairUp rest
  | _ => []

/-- Groups of pairs. A group starts with a label and how many pairs it has. -/
def groupsFrom : Nat → List Nat → List (Nat × List (Nat × Nat))
  | groups + 1, label :: count :: rest =>
    (label, pairUp (rest.take (2 * count))) :: groupsFrom groups (rest.drop (2 * count))
  | _, _ => []

/-- The groups of a table. There are fewer of them than numbers. -/
def readGroups (numbers : List Nat) : List (Nat × List (Nat × Nat)) :=
  groupsFrom numbers.length numbers

/-- The code point at a distance from another one. Even numbers lead up and odd ones down. -/
def moved (code distance : Nat) : Nat :=
  if distance % 2 = 0 then code + distance / 2 else code - (distance + 1) / 2

/-- The ranges from a code point on. A range takes two numbers: how many code points are left out in
front of it, and how many follow its first one. -/
def rangesFrom (code : Nat) : List (Nat × Nat) → List (Nat × Nat)
  | [] => []
  | (gap, more) :: rest =>
    (code + gap, code + gap + more) :: rangesFrom (code + gap + more + 1) rest

/-- The ranges of a table. -/
def readRanges (numbers : List Nat) : List (Nat × Nat) :=
  rangesFrom 0 (pairUp numbers)

end Addon.Unicode
