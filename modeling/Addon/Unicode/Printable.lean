import Addon.Unicode.Ranges
import Addon.Unicode.Tables

/-!
# Printable characters

Characters that quoted text shows as they are: everything assigned in Unicode 14 except controls,
format characters, surrogates, private use and separators other than the space.
-/

namespace Addon.Unicode

/-- Characters with a visible form, and the space. -/
def printableRanges : Thunk (List (Nat × Nat)) :=
  Thunk.mk fun _ => readRanges Table.printableRanges.numbers

/-- Quoted text shows `c` itself. The characters of Latin-1 need no table. -/
def isPrintable (c : Char) : Bool :=
  if c.toNat < 256 then (32 ≤ c.toNat && c.toNat < 127) || (160 < c.toNat && c.toNat != 173)
  else memRanges c.toNat printableRanges.get

end Addon.Unicode
