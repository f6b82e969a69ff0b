import Addon.Text.Trim
import Addon.Unicode.Casing
import Addon.Unicode.Word

/-!
# Titles

Identifiers as titles: words begin at underscores, at blanks and at capital letters of the English
alphabet, and each word is written with a capital first letter and small letters behind it.
-/

namespace Addon.Text

/-- A capital letter of the English alphabet. -/
def isCapital (c : Char) : Bool :=
  'A' ≤ c && c ≤ 'Z'

/-- Puts a blank before every capital letter that follows a letter, a digit or an underscore. -/
def spaceCapitals : Option Char → List Char → List Char
  | _, [] => []
  | before, c :: rest =>
    let spaced := spaceCapitals (some c) rest
    if isCapital c && before.any Unicode.isWordChar then ' ' :: c :: spaced else c :: spaced

/-- A word with a capital first letter. -/
def capitalize : List Char → List Char
  | [] => []
  | c :: rest => Unicode.upper c ++ Unicode.lower rest

/-- The title of an identifier. -/
def titleChars (cs : List Char) : List Char :=
  let spaced := (spaceCapitals none cs).map fun c => if c = '_' then ' ' else c
  [' '].intercalate ((words spaced).map capitalize)

/-- The title of an identifier. -/
def titleCase (identifier : String) : String :=
  String.ofList (titleChars identifier.toList)

end Addon.Text
