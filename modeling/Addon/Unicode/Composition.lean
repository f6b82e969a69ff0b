import Addon.Unicode.Ranges
import Addon.Unicode.Tables

/-!
# Combining classes and canonical compositions

The canonical combining classes of Unicode 14 as ranges `(lo, hi, class)`, and the pairs of
characters that compose to a third, as triples. Hangul is not listed, because its
composition is computed.
-/

namespace Addon.Unicode

/-- Ranges of characters with a combining class other than zero, class by class. -/
def combiningRanges : Thunk (List (Nat × Nat × Nat)) :=
  Thunk.mk fun _ => (readGroups Table.combiningRanges.numbers).flatMap fun (k, pairs) =>
    (rangesFrom 0 pairs).map fun (lo, hi) => (lo, hi, k)

/-- Pairs of numbers as they are given by their distances from the pair before.
The first ones ascend. -/
def pairsFrom (first composed : Nat) : List (Nat × Nat) → List (Nat × Nat)
  | [] => []
  | (up, distance) :: rest =>
    (first + up, moved composed distance) :: pairsFrom (first + up) (moved composed distance) rest

/-- Pairs of characters with their composition, by the second of the pair. The table has the first
and the composition of each. -/
def compositionPairs : Thunk (List (Nat × Nat × Nat)) :=
  Thunk.mk fun _ => (readGroups Table.compositionPairs.numbers).flatMap fun (second, pairs) =>
    (pairsFrom 0 0 pairs).map fun (first, composed) => (first, second, composed)

end Addon.Unicode
