import Addon.Ace.Kind
import Addon.Source.Location
import Addon.Static.Refusal

/-!
# Violations

The rules that annotated sources, addon configurations and lexicons can break. A complaint
is a violation together with the place where it was found, if there is one.
-/

namespace Addon

inductive Violation where
  /-- A source cannot be parsed. -/
  | invalidSyntax
  /-- The options of a marker are no dict display. -/
  | optionsNoDict
  /-- The options of a marker hold a `**` entry. -/
  | optionUnpacking
  /-- A key in the options of a marker is no string literal. -/
  | optionKeyNoText
  /-- A marker has a `**` argument. -/
  | keywordUnpacking
  /-- An argument of a marker has no static value. -/
  | notStatic (key : String)
  /-- A method has several markers. -/
  | severalMarkers (method : String)
  /-- A method has a marker that is not for methods. -/
  | unknownMarker (method : String)
  /-- There is no `@` before a decorator. -/
  | noDecoratorSign
  /-- A marker of a method has a `*` argument. -/
  | starArguments (method : String)
  /-- The arguments of a marker of a method are not a text and options. -/
  | optionArgument (method : String)
  | displayTextNoText (method : String)
  | categoryNoText (method : String)
  /-- A method takes arguments that are not positional. -/
  | openParameters (method : String)
  /-- A parameter has several markers. -/
  | severalParamMarkers (param : String)
  /-- The argument of a marker of a parameter is not options. -/
  | paramOptionArgument (param : String)
  | paramIdNoText (param : String)
  | itemsNoSingleKeys (param : String)
  /-- There is a record of the same kind and id already. -/
  | duplicate (kind : Ace.Kind) (id owner : String)
  /-- A configuration lacks keys. -/
  | missingKeys (keys : List String)
  | unknownAddonType (shown : String)
  | dependencyNoFilename
  | propertyNoId
  /-- A configuration script assigns no configuration. -/
  | noConfig
  /-- The configuration has no static value. -/
  | configNotStatic (r : Static.Refusal)
  | configNoJson (path problem : String)
  | configNoMapping (path : String)
  | tableNoJson (path problem : String)
  | tableNoTexts (path : String)
deriving DecidableEq, Repr

def Violation.message : Violation → String
  | .invalidSyntax => "Invalid Python syntax"
  | .optionsNoDict => "Marker options must be a dict literal."
  | .optionUnpacking => "Dict unpacking is not supported in marker options."
  | .optionKeyNoText => "Marker option keys must be string literals."
  | .keywordUnpacking => "Keyword unpacking is not supported in marker options."
  | .notStatic key => s!"ACE parameter '{key}' is not compilable. Use static values."
  | .severalMarkers method => s!"Method '{method}' can only be one ACE."
  | .unknownMarker method => s!"Unknown ACE operation on '{method}'."
  | .noDecoratorSign => "Could not locate decorator '@' token."
  | .starArguments method => s!"Star arguments are not supported on '{method}' ACE."
  | .optionArgument method => s!"You must pass an object as option argument on '{method}' ACE."
  | .displayTextNoText method => s!"Display text of '{method}' ACE must be a string."
  | .categoryNoText method => s!"Category of '{method}' ACE must be a string."
  | .openParameters method => s!"Unhandled ACE parameter assignation on '{method}'. " ++
      "Try using the '@Param' marker or typings."
  | .severalParamMarkers param =>
    s!"Marker '@Param' must be declared once per parameter ('{param}')."
  | .paramOptionArgument param =>
    s!"You must pass an object as option argument on parameter '{param}'."
  | .paramIdNoText param => s!"Parameter id of '{param}' must be a string."
  | .itemsNoSingleKeys param =>
    s!"Parameter 'items' of '{param}' must be a list of single-key dicts."
  | .duplicate kind id owner =>
    s!"Duplicate {kind.singular} id '{id}' (already declared in '{owner}')."
  | .missingKeys keys => "Addon config is missing required keys: " ++ ", ".intercalate keys ++ "."
  | .unknownAddonType shown =>
    s!"Invalid addon type '{shown}'. Expected one of: behavior, effect, plugin."
  | .dependencyNoFilename => "Each file dependency needs a 'filename' string."
  | .propertyNoId => "Each addon property needs an 'id'."
  | .noConfig => "Addon config module must assign a top-level 'config' mapping."
  | .configNotStatic r => "Addon config is not compilable. Use static values.\n" ++ r.message
  | .configNoJson path problem => s!"Invalid addon config JSON in {path}: {problem}"
  | .configNoMapping path => s!"Addon config in {path} must be a mapping."
  | .tableNoJson path problem => s!"Invalid translation table {path}: {problem}"
  | .tableNoTexts path =>
    s!"Translation table {path} must map source strings to translated strings."

/-- A violation and where it was found. -/
structure Complaint where
  violation : Violation
  location : Option Source.Location
deriving DecidableEq, Repr

namespace Complaint

def message (c : Complaint) : String :=
  Source.Location.attach c.violation.message c.location

/-- A complaint without a place. -/
def plain (v : Violation) : Complaint :=
  ⟨v, none⟩

end Complaint

/-- Where work is going on: the source at hand, and the place in it that complaints are about unless
they name a place of their own. -/
structure Scope where
  source : Option (List Char) := none
  place : Option Source.Mark := none

namespace Scope

/-- The location that a complaint gets. -/
def locate (scope : Scope) (place : Option Source.Mark) :
    Except Source.CutError (Option Source.Location) :=
  match place.or scope.place with
  | some mark => Source.Location.ofMark? mark scope.source
  | none => .ok none

end Scope

end Addon
