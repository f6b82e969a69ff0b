import Addon.File.Tree
import Addon.Json.Reader
import Addon.Json.Writer
import Addon.Misfit
import Addon.Script.Parser
import Addon.Script.Printer.Expression
import Addon.Source.Removal
import Addon.Violation

/-!
# Failures

Why work ends early: mostly complaints, but also faults of operations on values, misshapen data, and
trouble with texts and files.
-/

namespace Addon

inductive Failure where
  | complaint (c : Complaint)
  | fault (f : Fault)
  /-- Spans that cannot be removed together. -/
  | span (e : Source.SpanError)
  /-- A tree that cannot be printed. -/
  | print (e : Script.Printer.PrintError)
  /-- A source with a null character in it. -/
  | nullCharacter
  /-- A text that has no bytes. -/
  | encode (e : Text.EncodeError)
  /-- The code of a complaint cannot be cut out of the source. -/
  | cut (e : Source.CutError)
  /-- Data that cannot be used. -/
  | misfit (m : Misfit)
  /-- Bytes that are no text. -/
  | decode (e : Text.DecodeError)
  /-- A document that cannot be written. -/
  | write (e : Json.WriteError)
  | file (e : File.FileError)
  /-- A script that the compiler refuses. -/
  | refused (filename : String)

/-- The message about a source with a null character in it. -/
def nullCharacterMessage : String := "source code string cannot contain null bytes"

def Script.Printer.PrintError.message : Script.Printer.PrintError → String
  | .backslashInField => "Unable to avoid backslash in f-string expression part"
  | .tooManyDigits => Fault.tooManyDigits.message

def Source.CutError.message : Source.CutError → String
  | .noLine => "list index out of range"
  | .decode e => e.message

def Json.WriteError.message : Json.WriteError → String
  | .unsupported kind => s!"Object of type {kind} is not JSON serializable"
  | .tooManyDigits => Fault.tooManyDigits.message

def Failure.message : Failure → String
  | .complaint c => c.message
  | .fault f => f.message
  | .span e => e.message
  | .print e => e.message
  | .nullCharacter => nullCharacterMessage
  | .encode e => e.message
  | .cut e => e.message
  | .misfit m => m.message
  | .decode e => e.message
  | .write e => e.message
  | .file e => e.message
  | .refused filename => "refused " ++ filename

/-- What comes of work that can fail. -/
abbrev Attempt (α : Type) := Except Failure α

/-- Complains about a place in a source. -/
def complain {α : Type} (scope : Scope) (v : Violation) (place : Option Source.Mark := none) :
    Attempt α :=
  match scope.locate place with
  | .ok location => .error (.complaint ⟨v, location⟩)
  | .error e => .error (.cut e)

/-- Complains about the place of an expression. -/
def complainAt {α : Type} (scope : Scope) (v : Violation) (e : Script.Expr) : Attempt α :=
  complain scope v (some (.ofExtent e.extent))

namespace Attempt

/-- The result of an operation on values. -/
def ofValue {α : Type} : Except Fault α → Attempt α
  | .ok a => .ok a
  | .error f => .error (.fault f)

/-- The result of work on spans. -/
def ofSpans {α : Type} : Except Source.SpanError α → Attempt α
  | .ok a => .ok a
  | .error e => .error (.span e)

/-- The result of printing. -/
def ofPrint {α : Type} : Except Script.Printer.PrintError α → Attempt α
  | .ok a => .ok a
  | .error e => .error (.print e)

/-- The result of looking at data. -/
def ofMisfit {α : Type} : Except Misfit α → Attempt α
  | .ok a => .ok a
  | .error m => .error (.misfit m)

/-- The result of writing a document. -/
def ofWrite {α : Type} : Except Json.WriteError α → Attempt α
  | .ok a => .ok a
  | .error e => .error (.write e)

/-- The result of work on files. -/
def ofFile {α : Type} : Except File.FileError α → Attempt α
  | .ok a => .ok a
  | .error e => .error (.file e)

/-- The result of parsing. -/
def ofParse {α : Type} : Except Script.ParseError α → Attempt α
  | .ok a => .ok a
  | .error .invalid => .error (.complaint (.plain .invalidSyntax))
  | .error .nullCharacter => .error .nullCharacter
  | .error (.surrogates e) => .error (.encode e)

end Attempt

end Addon
