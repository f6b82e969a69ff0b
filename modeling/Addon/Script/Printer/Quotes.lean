import Addon.Text.Quoted
import Addon.Text.Split

/-!
# Choice of quotes

A string constant can be written between several kinds of quotes. The text decides which are
possible: none that occurs in it, and only triple ones when it has line feeds that are not escaped.
When none is left, the text is escaped as a whole.
-/

namespace Addon.Script.Printer

/-- The kinds of quotes on one line. -/
def singleQuotes : List (List Char) := [['\''], ['"']]

/-- The kinds of quotes that can hold line feeds. -/
def tripleQuotes : List (List Char) := [['"', '"', '"'], ['\'', '\'', '\'']]

/-- All kinds of quotes, the preferred ones first. -/
def allQuotes : List (List Char) := singleQuotes ++ tripleQuotes

/-- Escapes backslashes and what is not printable, line feeds and tabs only with `escapeLayout`. -/
def escapeText (escapeLayout : Bool) (cs : List Char) : List Char :=
  cs.flatMap fun c =>
    if !escapeLayout && (c = '\n' || c = '\t') then [c]
    else if c = '\\' || !Unicode.isPrintable c then Text.escapeChar c
    else [c]

/-- The text between quotes and the kinds of quotes possible for it, out of the given ones. A text
that ends with the quote that is used has its last character escaped. -/
def fitQuotes (quotes : List (List Char)) (escapeLayout : Bool) (cs : List Char) :
    List Char × List (List Char) :=
  let escaped := escapeText escapeLayout cs
  let fitting := if escaped.contains '\n' then quotes.filter tripleQuotes.contains else quotes
  let fitting := fitting.filter fun q => !Text.occursIn q escaped
  if fitting.isEmpty then
    let quote := Text.quoteFor cs
    (Text.quotedBody cs, [(quotes.find? fun q => q.contains quote).getD [quote]])
  else match escaped.getLast? with
    | none => (escaped, fitting)
    | some final =>
      -- Quotes of another kind than the last character come first.
      let clashes (q : List Char) : Bool := q.head? = some final
      let sorted := fitting.filter (fun q => !clashes q) ++ fitting.filter clashes
      if sorted.head?.any clashes then (escaped.dropLast ++ ['\\', final], sorted)
      else (escaped, sorted)

/-- A text between the quotes that fit best. -/
def enclose (quotes : List (List Char)) (cs : List Char) : List Char :=
  let (body, fitting) := fitQuotes quotes false cs
  let quote := fitting.headD []
  quote ++ body ++ quote

end Addon.Script.Printer
