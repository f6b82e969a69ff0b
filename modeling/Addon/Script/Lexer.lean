import Addon.Script.Numeral
import Addon.Script.Token
import Addon.Text.Lines
import Addon.Unicode.Identifier
import Addon.Unicode.Normal

/-!
# Reading tokens

Turns the text of a script into tokens. Line ends are unified first. Outside brackets the end of a
line ends a statement, and the white space at the start of the next line is compared with the
indentation of the open blocks; lines that hold only white space or a comment do not count. Inside
brackets, and after a backslash at the end of a line, lines are joined.

Reading fails as a whole: a script with one bad token has no tokens.
-/

namespace Addon.Script

/-- The depth of indentation. A tab moves on to a multiple of eight columns, or counts as a single
column in the second measure; two lines compare only when both measures agree. -/
structure Margin where
  column : Nat
  narrow : Nat
deriving DecidableEq, Repr

structure LexState where
  rest : List Char
  here : Position
  /-- The indentation of the open blocks, innermost first. The outermost is zero. -/
  margins : List Margin
  /-- The open brackets, innermost first. -/
  brackets : List Char
  atLineStart : Bool

/-- The most blocks that may be open at once, the outermost included. -/
def maxMargins : Nat := 100

/-- The most brackets that may be open at once. -/
def maxBrackets : Nat := 200

/-- Moves on by a text that is known to come next. -/
def LexState.skip (s : LexState) (taken rest : List Char) : LexState :=
  { s with rest := rest, here := s.here.after taken }

/-- The token between two states. -/
def tokenBetween (s t : LexState) (kind : TokenKind) : Token :=
  ⟨kind, s.here, t.here⟩

/-! ## Indentation -/

/-- Measures the white space at the start of a line. A backslash may join lines on the way; the
first one that stands behind white space fixes the column. -/
def measure (m : Margin) (fixed : Nat) (here : Position) :
    List Char → Option (Margin × Position × List Char)
  | ' ' :: rest => measure ⟨m.column + 1, m.narrow + 1⟩ fixed (here.advance ' ') rest
  | '\t' :: rest => measure ⟨(m.column / 8 + 1) * 8, m.narrow + 1⟩ fixed (here.advance '\t') rest
  | '\x0c' :: rest => measure ⟨0, 0⟩ fixed (here.advance '\x0c') rest
  | '\\' :: '\n' :: rest =>
    if rest.isEmpty then none
    else measure m (if fixed = 0 then m.column else fixed) (here.advance '\n') rest
  | '\\' :: _ => none
  | rest => some (if fixed = 0 then m else ⟨fixed, fixed⟩, here, rest)

/-- Closes the blocks that are indented more than `m`. One of the open blocks has to fit exactly. -/
def closeBlocks (m : Margin) : List Margin → Option (Nat × List Margin)
  | [] => none
  | top :: outer =>
    if m.column < top.column then (closeBlocks m outer).map fun (n, ms) => (n + 1, ms)
    else if m = top then some (0, top :: outer)
    else none

/-- The start of a line outside brackets. -/
def lineStart (s : LexState) : Option (List Token × LexState) := do
  let (m, here, rest) ← measure ⟨0, 0⟩ 0 s.here s.rest
  let s := { s with here := here, rest := rest }
  match rest with
  | '\n' :: after => return ([], s.skip ['\n'] after)
  | '#' :: _ =>
    let comment := rest.takeWhile (· ≠ '\n')
    match rest.dropWhile (· ≠ '\n') with
    | '\n' :: after => return ([], s.skip (comment ++ ['\n']) after)
    | after => return ([], { s.skip comment after with atLineStart := false })
  | _ =>
    let s := { s with atLineStart := false }
    let top := s.margins.headD ⟨0, 0⟩
    if top.column < m.column then
      guard (s.margins.length < maxMargins && top.narrow < m.narrow)
      return ([tokenBetween s s .indent], { s with margins := m :: s.margins })
    else
      let (n, margins) ← closeBlocks m s.margins
      return (List.replicate n (tokenBetween s s .dedent), { s with margins := margins })

/-! ## Words and strings -/

/-- An identifier or reserved word. -/
def word (cs : List Char) : Option TokenKind :=
  let text := String.ofList cs
  if reservedWords.contains text then some (.reserved text)
  else match cs with
    | c :: rest =>
      if Unicode.isIdentifierStart c && rest.all Unicode.isIdentifierPart then
        let normal := Unicode.normalize cs
        some (.name (String.ofList normal) (normal = cs))
      else none
    | [] => none

/-- The marks that may stand in front of a quote, in lower case. -/
def stringMarks : List (List Char) :=
  [[], ['b'], ['r'], ['u'], ['f'], ['b', 'r'], ['r', 'b'], ['f', 'r'], ['r', 'f']]

/-- The marks in front of a quoted string at the start of a text. -/
def marksBeforeQuote? (cs : List Char) : Option (List Char) :=
  [0, 1, 2].findSome? fun n =>
    let marks := cs.take n
    let opens := (cs.drop n).head?.any fun c => c == '\'' || c == '"'
    if opens && stringMarks.contains (marks.map Char.toLower) then some marks else none

/-- The text up to the closing quote, last character first, and what comes after the quote. An
escaped character never closes, and only a string in triple quotes may hold the end of a line. -/
def closeQuote (quote : Char) (triple : Bool) :
    List Char → List Char → Option (List Char × List Char)
  | [], _ => none
  | '\\' :: c :: rest, seen => closeQuote quote triple rest (c :: '\\' :: seen)
  | c :: rest, seen =>
    if c = quote then
      if !triple then some (seen, rest)
      else match rest with
        | d :: e :: rest' =>
          if d = quote && e = quote then some (seen, rest')
          else closeQuote quote triple rest (c :: seen)
        | _ => none
    else if c = '\n' && !triple then none
    else closeQuote quote triple rest (c :: seen)

/-- A quoted string whose marks are known. Returns all of its text as well. -/
def quotedString (marks cs : List Char) : Option (Quoted × List Char × List Char) := do
  let low := marks.map Char.toLower
  let after := cs.drop marks.length
  let quote ← after.head?
  let triple := after.take 3 == [quote, quote, quote]
  let quotes := if triple then [quote, quote, quote] else [quote]
  let (seen, rest) ← closeQuote quote triple (after.drop quotes.length) []
  let body := seen.reverse
  let quoted : Quoted := {
    isBytes := low.contains 'b'
    isRaw := low.contains 'r'
    isFormatted := low.contains 'f'
    isMarked := marks == ['u']
    body := body }
  return (quoted, marks ++ quotes ++ body ++ quotes, rest)

/-! ## Operators -/

/-- The operators, longer ones first. -/
def operators : List (List Char) :=
  ["**=", "//=", ">>=", "<<=", "...",
    "!=", "%=", "&=", "**", "*=", "+=", "-=", "->", "//", "/=", ":=", "<<", "<=", "<>", "==",
    ">=", ">>", "@=", "^=", "|=",
    "(", ")", "[", "]", "\x7b", "\x7d", ":", ",", ";", "+", "-", "*", "/", "|", "&", "<", ">",
    "=", ".", "%", "~", "^", "@"].map String.toList

/-- Keeps track of brackets. A closing bracket has to fit the innermost open one. -/
def trackBracket (brackets : List Char) : List Char → Option (List Char)
  | ['('] => if brackets.length < maxBrackets then some (')' :: brackets) else none
  | ['['] => if brackets.length < maxBrackets then some (']' :: brackets) else none
  | ['\x7b'] => if brackets.length < maxBrackets then some ('\x7d' :: brackets) else none
  | [c] =>
    if c = ')' || c = ']' || c = '\x7d' then
      match brackets with
      | top :: outer => if top = c then some outer else none
      | [] => none
    else some brackets
  | _ => some brackets

/-! ## The reader -/

/-- Blanks inside a line. -/
def isInlineBlank (c : Char) : Bool :=
  c == ' ' || c == '\t' || c == '\x0c'

/-- The next token inside a line, if there is one; blanks, comments and joined lines give none. -/
def inLine (s : LexState) : Option (List Token × LexState) :=
  match s.rest with
  | [] => none
  | c :: rest =>
    if isInlineBlank c then some ([], s.skip [c] rest)
    else if c = '#' then
      some ([], s.skip (s.rest.takeWhile (· ≠ '\n')) (s.rest.dropWhile (· ≠ '\n')))
    else if c = '\\' then
      match rest with
      | '\n' :: after => if after.isEmpty then none else some ([], s.skip ['\\', '\n'] after)
      | _ => none
    else if c = '\n' then
      let t := s.skip ['\n'] rest
      if s.brackets.isEmpty then some ([tokenBetween s s .newline], { t with atLineStart := true })
      else some ([], t)
    else match marksBeforeQuote? s.rest with
      | some marks => do
        let (quoted, taken, rest) ← quotedString marks s.rest
        let t := s.skip taken rest
        return ([tokenBetween s t (.quoted quoted)], t)
      | none =>
        if mayContinueWord c && !c.isDigit then do
          let cs := s.rest.takeWhile mayContinueWord
          let kind ← word cs
          let t := s.skip cs (s.rest.dropWhile mayContinueWord)
          return ([tokenBetween s t kind], t)
        else if c.isDigit || (c = '.' && rest.head?.any Char.isDigit) then do
          let (value, after) ← numeral s.rest
          let t := s.skip (s.rest.take (s.rest.length - after.length)) after
          return ([tokenBetween s t (.number value)], t)
        else do
          let op ← operators.find? (·.isPrefixOf s.rest)
          let brackets ← trackBracket s.brackets op
          let t := s.skip op (s.rest.drop op.length)
          return ([tokenBetween s t (.op (String.ofList op))], { t with brackets := brackets })

/-- Reads on until the text ends. Tokens read so far come last first. -/
def lexAll : Nat → LexState → List Token → Option (List Token)
  | 0, _, _ => none
  | fuel + 1, s, seen =>
    if s.atLineStart then
      match lineStart s with
      | some (tokens, t) => lexAll fuel t (tokens ++ seen)
      | none => none
    else if s.rest.isEmpty then
      if s.brackets.isEmpty then some ((tokenBetween s s .finish :: seen).reverse) else none
    else match inLine s with
      | some (tokens, t) => lexAll fuel t (tokens ++ seen)
      | none => none

/-- The tokens of a text with unified line ends. -/
def tokenize (cs : List Char) : Option (List Token) :=
  lexAll (2 * cs.length + 3) ⟨cs, ⟨1, 0⟩, [⟨0, 0⟩], [], true⟩ []

end Addon.Script
