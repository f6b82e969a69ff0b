import Addon.Unicode.Ranges
import Addon.Unicode.Tables

/-!
# Compatibility decompositions

The full compatibility decompositions of Unicode 14. Hangul syllables are not listed, because their
decomposition is computed, and neither are the characters that two others compose to. Latin
ligatures are looked up before the table is unpacked.

An entry of the table starts with a number `64 * gap + size`, where `gap` characters in front of the
entry have no decomposition. An odd size `2 * more + 1` stands for a run of characters: the first
one decomposes to a single character, and the `more` ones behind it to those behind that. An even
size `2 * more` stands for one character and a decomposition of `more` characters behind the first.
The first character is given by its distance from the first one of the entry before, and each other
one by its distance from the last.
-/

namespace Addon.Unicode

/-- The decomposition of a Latin ligature. -/
def ligature? : Nat → Option (List Nat)
  | 0xFB00 => some [0x66, 0x66]
  | 0xFB01 => some [0x66, 0x69]
  | 0xFB02 => some [0x66, 0x6C]
  | 0xFB03 => some [0x66, 0x66, 0x69]
  | 0xFB04 => some [0x66, 0x66, 0x6C]
  | 0xFB05 => some [0x73, 0x74]
  | 0xFB06 => some [0x73, 0x74]
  | _ => none

/-- The code points at some distances, each from the one before. -/
def movedAlong (code : Nat) : List Nat → List Nat
  | [] => []
  | distance :: rest => moved code distance :: movedAlong (moved code distance) rest

/-- The decomposition that some entries of the table have for a code point. The first entry counts
from the code point `next` and from the character `lead`. -/
def findEntry (code : Nat) : Nat → Nat → Nat → List Nat → Option (List Nat)
  | entries + 1, next, lead, head :: distance :: rest =>
    let first := next + head / 64
    let last := if head % 2 = 0 then first else first + head % 64 / 2
    let behind := if head % 2 = 0 then head % 64 / 2 else 0
    let lead := moved lead distance
    if first ≤ code && code ≤
      last then some ((lead + (code - first)) :: movedAlong lead (rest.take behind))
    else findEntry code entries (last + 1) lead (rest.drop behind)
  | _, _, _, _ => none

/-- The decomposition that is listed for a code point. There are fewer entries than numbers. -/
def listedDecomposition? (n : Nat) : Option (List Nat) :=
  match ligature? n with
  | some parts => some parts
  | none =>
    let numbers := Table.decompositions.numbers
    findEntry n numbers.length 0 0 numbers

end Addon.Unicode
