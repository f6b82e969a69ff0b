import Addon.File.Text

/-!
# Lexicons

A language has a lexicon, a table from texts to texts, kept as a JSON document in a directory.
Tables are read once and then remembered, as is the absence of a table; failures are not remembered.
-/

namespace Addon.Lexicon

abbrev Table := Fields String

/-- A value in another language: texts that the table knows are replaced, all else is left alone. -/
def localize (table : Table) : Value → Value
  | .str text => .str ((table.get? text).getD text)
  | v => v

/-- The texts of the fields of a document, if all are texts. -/
def textFields? : Fields Value → Option Table
  | [] => some []
  | (name, .str text) :: rest => (textFields? rest).map ((name, text) :: ·)
  | _ => none

/-- The table in the text of a document. -/
def parse (path : File.Path) (cs : List Char) : Attempt Table :=
  match Json.read cs with
  | .error (.missed what offset) =>
    .error (.complaint (.plain (.tableNoJson path.toText (Json.missedMessage cs what offset))))
  | .error (.tooManyDigits count) => .error (.fault (.tooManyDigitsRead count))
  | .ok (.dict fields) =>
    match textFields? fields with
    | some table => .ok table
    | none => .error (.complaint (.plain (.tableNoTexts path.toText)))
  | .ok _ => .error (.complaint (.plain (.tableNoTexts path.toText)))

/-- Reads a table. A file that is not there counts as an empty table. -/
def read (t : File.Tree) (path : File.Path) : Attempt Table := do
  if ← .ofFile (t.isFile path) then parse path (← t.readText path) else return []

/-- The tables that were read. -/
structure Cache where
  tables : List (File.Path × Table) := []

namespace Cache

/-- The table that was read from a file. -/
def get? (c : Cache) (path : File.Path) : Option Table :=
  (c.tables.find? fun e => e.1 = path).map (·.2)

/-- Remembers a table. -/
def remember (c : Cache) (path : File.Path) (table : Table) : Cache :=
  ⟨c.tables ++ [(path, table)]⟩

/-- The table in a file, and what is remembered afterwards. -/
def load (c : Cache) (t : File.Tree) (path : File.Path) : Attempt Table × Cache :=
  match c.get? path with
  | some table => (.ok table, c)
  | none =>
    match read t path with
    | .ok table => (.ok table, c.remember path table)
    | .error f => (.error f, c)

end Cache

/-- The file of the table of a language in a directory. -/
def tablePath (directory : File.Path) (tag : String) : File.Path :=
  (directory.resolve (.mk .root [])).join (tag ++ ".json")

/-- The table of a language. Without a directory it is empty. -/
def load (t : File.Tree) (directory : Option File.Path) (tag : String) (c : Cache) :
    Attempt Table × Cache :=
  match directory with
  | none => (.ok [], c)
  | some directory =>
    if File.Tree.hasNull directory then (.error (.file (.nullCharacter .resolve)), c)
    else c.load t (tablePath directory tag)

end Addon.Lexicon
