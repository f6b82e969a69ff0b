/-!
# About

What the tool says about itself.
-/

namespace Addon.About

def version : String := "0.1.0"

/-- A summary of the annotations. -/
def text : String :=
  "\n".intercalate
    ["acebuild " ++ version,
      "Container: @AceClass() on a top-level class.",
      "Methods: @Action / @Condition / @Trigger / @Expression(display_text?, options?).",
      "Parameters: Annotated[T, Param(\x7b...\x7d)] or name: Param(\x7b...\x7d).",
      "Arguments: evaluated statically; module code is never executed.",
      "Outputs: aces.json, addon.json, lang/<tag>.json, annotation-free runtime script."]

end Addon.About
