import Addon.Unicode.Ranges
import Addon.Unicode.Tables

/-!
# Upper and lower case

The full case mappings of Unicode 14. Most letters are covered by runs: a run `(lo, hi, stride,
distance)` maps `lo, lo + stride, …, hi` over a distance. A few letters map to several
characters. The one mapping that looks at its surroundings is that of the capital sigma, which is
written as a final sigma when a cased letter stands before it and none after it, case-ignorable
characters not counting.
-/

namespace Addon.Unicode

/-- The runs of a table, in groups with the same stride and distance. -/
def readRuns (numbers : List Nat) : List (Nat × Nat × Nat × Nat) :=
  (readGroups numbers).flatMap fun (label, pairs) =>
    (rangesFrom 0 pairs).map fun (lo, hi) => (lo, hi, label % 2 + 1, label / 2)

/-- Runs of letters that have a single upper-case letter. -/
def upperRuns : Thunk (List (Nat × Nat × Nat × Nat)) :=
  Thunk.mk fun _ => readRuns Table.upperRuns.numbers

/-- Runs of letters that have a single lower-case letter. -/
def lowerRuns : Thunk (List (Nat × Nat × Nat × Nat)) :=
  Thunk.mk fun _ => readRuns Table.lowerRuns.numbers

/-- Letters with up to three characters each. A letter and its characters are given by their
distances from the letter before and its characters. -/
def specialsFrom (letter a b c : Nat) : List Nat → List (Nat × List Nat)
  | gap :: x :: y :: z :: rest =>
    (letter + gap, [moved a x, moved b y, moved c z].filter (· != 0)) ::
      specialsFrom (letter + gap) (moved a x) (moved b y) (moved c z) rest
  | _ => []

/-- Letters whose upper case has several characters. -/
def upperSpecials : Thunk (List (Nat × List Nat)) :=
  Thunk.mk fun _ => specialsFrom 0 0 0 0 Table.upperSpecials.numbers

/-- Letters whose lower case has several characters. -/
def lowerSpecials : List (Nat × List Nat) :=
  [
    (0x130, [0x69, 0x307])
  ]

/-- Characters that have a case and are not case-ignorable. -/
def casedRanges : Thunk (List (Nat × Nat)) :=
  Thunk.mk fun _ => readRanges Table.casedRanges.numbers

/-- Characters that do not separate a letter from its word. -/
def caseIgnorableRanges : Thunk (List (Nat × Nat)) :=
  Thunk.mk fun _ => readRanges Table.caseIgnorableRanges.numbers

/-- The single character that a list of runs assigns to a code point. -/
def mapRuns (n : Nat) : List (Nat × Nat × Nat × Nat) → Option Nat
  | [] => none
  | (lo, hi, stride, distance) :: rest =>
    if lo ≤ n && n ≤ hi && (n - lo) % stride == 0 then some (moved n distance)
    else mapRuns n rest

/-- The upper case of a character. -/
def upper (c : Char) : List Char :=
  if c.toNat < 128 then [c.toUpper]
  else ((upperSpecials.get.lookup c.toNat).map (·.map Char.ofNat)).getD
    [((mapRuns c.toNat upperRuns.get).map Char.ofNat).getD c]

/-- The lower case of a character that does not depend on its surroundings. -/
def lowerChar (c : Char) : List Char :=
  if c.toNat < 128 then [c.toLower]
  else match lowerSpecials.lookup c.toNat with
    | some cs => cs.map Char.ofNat
    | none => [((mapRuns c.toNat lowerRuns.get).map Char.ofNat).getD c]

/-- A character that has a case and is not case-ignorable. -/
def isCased (c : Char) : Bool :=
  memRanges c.toNat casedRanges.get

/-- A character that case mapping looks through. -/
def isCaseIgnorable (c : Char) : Bool :=
  memRanges c.toNat caseIgnorableRanges.get

/-- The first character that is not case-ignorable has a case. -/
def meetsCased : List Char → Bool
  | [] => false
  | c :: rest => if isCaseIgnorable c then meetsCased rest else isCased c

/-- Lower case of a text that follows `before`, read backwards. -/
def lowerAfter (before : List Char) : List Char → List Char
  | [] => []
  | c :: rest =>
    let here :=
      if c == 'Σ' then [if meetsCased before && !meetsCased rest then 'ς' else 'σ'] else lowerChar c
    here ++ lowerAfter (c :: before) rest

/-- The lower case of a text. -/
def lower (cs : List Char) : List Char :=
  lowerAfter [] cs

end Addon.Unicode
