import Addon.Script.Tree

/-!
# Tokens

The words of a script with their extents. Layout is made of tokens too: the end of a logical line,
and the places where the indentation grows and shrinks.
-/

namespace Addon.Script

/-- A quoted string as written: the marks in front of it and the text between the quotes, with its
escapes not yet resolved. -/
structure Quoted where
  isBytes : Bool
  isRaw : Bool
  isFormatted : Bool
  isMarked : Bool
  body : List Char
deriving DecidableEq, Repr

inductive TokenKind where
  /-- An identifier in its normal form, and whether it is written so. -/
  | name (id : String) (isPlain : Bool)
  | reserved (word : String)
  | number (value : Literal)
  | quoted (text : Quoted)
  | op (text : String)
  | newline
  | indent
  | dedent
  | finish
deriving DecidableEq

structure Token where
  kind : TokenKind
  extent : Extent
deriving DecidableEq

/-- A word that has a meaning in some places and is an identifier in all others. Only the plain
spelling has the meaning. -/
def TokenKind.softWord (word : String) : TokenKind :=
  .name word true

/-- A token that only says something about layout. -/
def TokenKind.isLayout : TokenKind → Bool
  | .newline | .indent | .dedent | .finish => true
  | _ => false

/-- The words that cannot be identifiers. -/
def reservedWords : List String :=
  ["False", "None", "True", "and", "as", "assert", "async", "await", "break", "class", "continue",
    "def", "del", "elif", "else", "except", "finally", "for", "from", "global", "if",
    "import", "in", "is", "lambda", "nonlocal", "not", "or", "pass", "raise", "return", "try",
    "while", "with", "yield"]

/-- The place after one more character. -/
def Position.advance (p : Position) (c : Char) : Position :=
  if c = '\n' then ⟨p.line + 1, 0⟩ else ⟨p.line, p.column + c.utf8Size⟩

/-- The place after a text. -/
def Position.after (p : Position) (cs : List Char) : Position :=
  cs.foldl Position.advance p

end Addon.Script
