import Addon.Unicode.Ranges
import Addon.Unicode.Tables

/-!
# Word characters

Letters and numbers of any script, by Unicode 14: what counts as part of a word in running text.
-/

namespace Addon.Unicode

/-- Letters, and characters with a digit, decimal or numeric value. -/
def alphanumericRanges : Thunk (List (Nat × Nat)) :=
  Thunk.mk fun _ => readRanges Table.alphanumericRanges.numbers

/-- A letter or number of any script. -/
def isAlphanumeric (c : Char) : Bool :=
  if c.toNat < 128 then c.isAlphanum else memRanges c.toNat alphanumericRanges.get

/-- A letter, a number or the underscore. -/
def isWordChar (c : Char) : Bool :=
  c == '_' || isAlphanumeric c

end Addon.Unicode
