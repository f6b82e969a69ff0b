import Addon.Unicode.Decomposition
import Addon.Unicode.Ranges

/-!
# Characters of identifiers

The characters that may start an identifier and those that may continue one, by the derived
properties XID_Start and XID_Continue of Unicode 14. The underscore counts as a start.
-/

namespace Addon.Unicode

/-- Letters and letter-like characters, and the underscore. -/
def identifierStartRanges : Thunk (List (Nat × Nat)) :=
  Thunk.mk fun _ => readRanges Table.identifierStartRanges.numbers

/-- Starts, marks, digits and connecting punctuation. -/
def identifierPartRanges : Thunk (List (Nat × Nat)) :=
  Thunk.mk fun _ => readRanges Table.identifierPartRanges.numbers

/-- An identifier may begin with `c`. -/
def isIdentifierStart (c : Char) : Bool :=
  if c.toNat < 128 then c.isAlpha || c == '_' else if (ligature? c.toNat).isSome then true
  else memRanges c.toNat identifierStartRanges.get

/-- An identifier may go on with `c`. -/
def isIdentifierPart (c : Char) : Bool :=
  if c.toNat < 128 then c.isAlphanum || c == '_' else if (ligature? c.toNat).isSome then true
  else memRanges c.toNat identifierPartRanges.get

end Addon.Unicode
