import Addon.Failure
import Addon.Script.Printer.Statement

/-!
# Compilers

A compiler turns the text of a script into the text that is exported. The usual one checks that the
script can be parsed and either leaves it as it is or writes it anew from its tree, which drops
comments and blank lines.
-/

namespace Addon.Build

open Script

structure CompileOptions where
  filename : String
  minify : Bool := false
deriving DecidableEq, Repr

abbrev Compiler := CompileOptions → String → Attempt String

/-- The script written anew from its tree. -/
def minified (m : Module) : Attempt String := do
  return (← .ofPrint m.print) ++ "\n"

/-- Checks a script, and minifies it if asked to. -/
def passthrough : Compiler := fun options source => do
  let m ← .ofParse (parseModule source)
  if options.minify then minified m else return source

/-- A compiler that refuses one file. -/
def refusing (filename : String) : Compiler := fun options source =>
  if options.filename = filename then .error (.refused filename) else passthrough options source

/-- A script with a line above it that says where it comes from. -/
def withHeader (part : String × String) : String :=
  s!"# --- source: {part.1} ---\n{part.2}"

/-- Several scripts as one. -/
def bundle (parts : List (String × String)) : String :=
  "\n\n".intercalate (parts.map withHeader)

end Addon.Build
