/-!
# Surrogates

Half of a surrogate pair has a code but is no character. Escapes can put one into a text all the
same. There it is kept as its stand-in, the private-use character whose code is larger by U+100000,
so that a text is made of characters alone. A stand-in is written as the surrogate and ordered like
it. The 2048 characters U+10D800 to U+10DFFF are the stand-ins: a text that holds one of them itself
is read as if it held the surrogate, so these characters cannot be told from the surrogates.
-/

namespace Addon.Unicode

/-- The code of half of a surrogate pair. -/
def isSurrogate (code : Nat) : Bool :=
  0xD800 ≤ code && code < 0xE000

/-- How far the stand-ins lie above the surrogates. -/
def standInShift : Nat := 0x100000

/-- The character for a code in a text. -/
def charOfCode (code : Nat) : Char :=
  Char.ofNat (if isSurrogate code then code + standInShift else code)

/-- A character that stands for a surrogate: U+10D800 to U+10DFFF, wherever they come from. -/
def isStandIn (c : Char) : Bool :=
  isSurrogate (c.toNat - standInShift)

/-- The code that a character of a text is there for. -/
def codeOf (c : Char) : Nat :=
  if isStandIn c then c.toNat - standInShift else c.toNat

end Addon.Unicode
