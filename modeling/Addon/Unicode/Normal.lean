import Addon.Unicode.Composition
import Addon.Unicode.Decomposition

/-!
# Compatibility normal form

Normalization form KC: characters are decomposed by compatibility, marks are put into
canonical order, and what can be composed canonically is composed again. Two spellings of an
identifier that only differ in presentation have the same normal form. The form may be longer
or shorter than the text.
-/

namespace Addon.Unicode

/-- The value of a hexadecimal digit, upper case. -/
def hexValue (c : Char) : Nat :=
  if c.isDigit then c.toNat - '0'.toNat else c.toNat - 'A'.toNat + 10

/-- A hexadecimal number. -/
def readHex (cs : List Char) : Nat :=
  cs.foldl (fun n c => 16 * n + hexValue c) 0

/-! ## Hangul -/

/-- The parts of a Hangul syllable. -/
def decomposeHangul (n : Nat) : List Nat :=
  let s := n - 0xAC00
  let l := 0x1100 + s / 588
  let v := 0x1161 + s % 588 / 28
  let t := 0x11A7 + s % 28
  if t == 0x11A7 then [l, v] else [l, v, t]

/-- The syllable of two Hangul parts, or of a syllable without a final part and a final part. -/
def composeHangul? (a b : Nat) : Option Nat :=
  if 0x1100 ≤ a && a < 0x1113 && 0x1161 ≤ b && b < 0x1176 then
    some (0xAC00 + (a - 0x1100) * 588 + (b - 0x1161) * 28)
  else if 0xAC00 ≤ a && a < 0xD7A4 && (a - 0xAC00) % 28 == 0 && 0x11A7 < b && b < 0x11C3 then
    some (a + (b - 0x11A7))
  else none

/-! ## Decomposition -/

/-- The full compatibility decomposition of a code point. What two others compose to is decomposed
into them and further on, down to some depth. -/
def decomposeTo : Nat → Nat → List Nat
  | 0, n => [n]
  | depth + 1, n =>
    if n < 128 then [n]
    else if 0xAC00 ≤ n && n < 0xD7A4 then decomposeHangul n
    else match listedDecomposition? n with
      | some parts => parts
      | none =>
        ((compositionPairs.get.find? (·.2.2 == n)).map fun p =>
          decomposeTo depth p.1 ++ decomposeTo depth p.2.1).getD [n]

/-- The full compatibility decomposition of a code point. Compositions are nested three deep. -/
def decompose (n : Nat) : List Nat :=
  decomposeTo 4 n

/-- The canonical combining class of a code point; zero for one that does not combine. -/
def combiningClass (n : Nat) : Nat :=
  if n < 128 then 0
  else ((combiningRanges.get.find? fun r => r.1 ≤ n && n ≤ r.2.1).map (·.2.2)).getD 0

/-- Puts a code point behind the ones of a lower or equal class that end at the last starter. The
sequence is held in reverse. -/
def insertMark (n k : Nat) : List Nat → List Nat
  | [] => [n]
  | m :: rest =>
    let j := combiningClass m
    if k < j then m :: insertMark n k rest else n :: m :: rest

/-- Canonical order: marks between two starters are sorted by class, equal
classes staying in order. -/
def orderMarks (ns : List Nat) : List Nat :=
  (ns.foldl (fun done n =>
    let k := combiningClass n
    if k == 0 then n :: done else insertMark n k done) []).reverse

/-! ## Composition -/

/-- The code point that two others compose to. The second one is never an ASCII character. -/
def composePair? (a b : Nat) : Option Nat :=
  if b < 128 then none
  else match composeHangul? a b with
    | some c => some c
    | none => (compositionPairs.get.find? fun p => p.1 == a && p.2.1 == b).map (·.2.2)

/-- The state of a composing pass: what is finished, in reverse; the last starter; and what came
after it without composing, in reverse. -/
structure Composing where
  done : List Nat
  starter : Option Nat
  tail : List Nat

/-- Takes one more code point. It composes with the last starter unless something of the same or a
higher class, or another starter, stands between them. -/
def Composing.push (s : Composing) (n : Nat) : Composing :=
  let k := combiningClass n
  match s.starter with
  | none => if k == 0 then { s with starter := some n } else { s with done := n :: s.done }
  | some a =>
    let blocked := match s.tail with
      | [] => false
      | m :: _ => combiningClass m == 0 || k ≤ combiningClass m
    match if blocked then none else composePair? a n with
    | some c => { s with starter := some c }
    | none =>
      if k == 0 then { done := s.tail ++ a :: s.done, starter := some n, tail := [] }
      else { s with tail := n :: s.tail }

/-- What a composing pass has produced. -/
def Composing.result (s : Composing) : List Nat :=
  match s.starter with
  | none => s.done.reverse
  | some a => (s.tail ++ a :: s.done).reverse

/-- Canonical composition of an ordered sequence. -/
def compose (ns : List Nat) : List Nat :=
  (ns.foldl Composing.push ⟨[], none, []⟩).result

/-- Normalization form KC. A text of ASCII characters is its own normal form. -/
def normalize (cs : List Char) : List Char :=
  if cs.all (·.toNat < 128) then cs
  else (compose (orderMarks (cs.flatMap fun c => decompose c.toNat))).map Char.ofNat

end Addon.Unicode
