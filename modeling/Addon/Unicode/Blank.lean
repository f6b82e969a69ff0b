import Addon.Unicode.Ranges

/-!
# Blank characters

The characters that separate words: the bidirectional classes WS, B and S and the space
separators of Unicode 14.
-/

namespace Addon.Unicode

/-- White space in the wide sense, information separators included. -/
def blankRanges : List (Nat × Nat) :=
  [
    (0x9, 0xD), (0x1C, 0x20), (0x85, 0x85), (0xA0, 0xA0), (0x1680, 0x1680), (0x2000, 0x200A),
    (0x2028, 0x2029), (0x202F, 0x202F), (0x205F, 0x205F), (0x3000, 0x3000)
  ]

/-- White space in the wide sense. -/
def isBlank (c : Char) : Bool :=
  memRanges c.toNat blankRanges

end Addon.Unicode
