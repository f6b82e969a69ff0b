/-!
# Symbols

The names that annotated scripts import: markers that can be called, and names for the types of
parameters. Scripts stay runnable with them: calling a marker has no effect, and a type name
stands for a plain type.
-/

namespace Addon.Annotated

/-- The plain types that type names stand for. -/
inductive PlainType where
  | str
  | float
deriving DecidableEq, Repr

def PlainType.name : PlainType → String
  | .str => "str"
  | .float => "float"

/-- What calling a marker gives. -/
inductive CallResult where
  /-- A decorator that gives back what it is put on. -/
  | decorator
  /-- Metadata of a parameter. -/
  | metadata
deriving DecidableEq, Repr

/-- The names of the positional arguments of a marker, and whether it takes
further keyword arguments. -/
structure Signature where
  positional : List String
  takesKeywords : Bool
  /-- Names that are taken already. -/
  taken : List String := []

/-- What a name can stand for. -/
inductive Symbol where
  | type (t : PlainType)
  | marker (signature : Signature) (result : CallResult)

namespace Symbol

/-- Types of parameters that all methods can have. -/
def commonTypes : List String :=
  ["combo", "cmp", "objectname", "layer", "layout", "keyb", "instancevar", "instancevarbool",
    "eventvar", "eventvarbool", "animation", "objinstancevar"]

/-- Types of parameters of effects. -/
def effectTypes : List String :=
  ["percent", "color"]

/-- A marker of methods. -/
def methodMarker : Symbol :=
  .marker ⟨["_display_text", "_options"], true, []⟩ .decorator

/-- What a name stands for. -/
def ofName? : String → Option Symbol
  | "AceClass" => some (.marker ⟨[], false, []⟩ .decorator)
  | "Action" | "Condition" | "Trigger" | "Expression" => some methodMarker
  | "Param" => some (.marker ⟨["_options"], true, ["self"]⟩ .metadata)
  | name => if (commonTypes ++ effectTypes).contains name then some (.type .str) else none

/-- What a name in a group of names stands for. -/
def ofMember? (group name : String) : Option Symbol :=
  match group with
  | "Cnd" | "Act" | "_TagNamespace" => if commonTypes.contains name then some (.type .str) else none
  | "Effect" =>
    if name = "float" then some (.type .float)
    else if effectTypes.contains name then some (.type .str)
    else none
  | _ => none

/-- What a name with or without a group stands for. -/
def lookup? (path : List String) : Option Symbol :=
  match path with
  | [name] => ofName? name
  | [group, name] => ofMember? group name
  | _ => none

end Symbol

namespace Signature

/-- A call with so many positional arguments and these keywords is accepted. -/
def accepts (s : Signature) (count : Nat) (keywords : List String) : Bool :=
  let filled := s.taken ++ s.positional.take count
  count ≤ s.positional.length && keywords.all fun k =>
    !filled.contains k && (s.takesKeywords || s.positional.contains k)

end Signature

end Addon.Annotated
