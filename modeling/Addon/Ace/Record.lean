import Addon.Ace.Kind
import Addon.Value

/-!
# Records

What is known about an exported method and its parameters. Options that have no field of
their own are kept as they were given. The texts that people see may be any value, since
nothing is asked of them.
-/

namespace Addon.Ace

/-- A parameter of an exported method. -/
structure Parameter where
  id : String
  name : Value
  desc : Value := .str ""
  type : String := "any"
  initialValue : Option Value := none
  /-- The choices, each under a key. -/
  items : Option (List (Fields Value)) := none
  /-- Further options. -/
  extra : Fields Value := []

/-- An exported method. -/
structure Record where
  id : String
  kind : Kind
  category : String
  displayText : String
  listName : Value
  description : Value := .str ""
  params : List Parameter := []
  returnType : Option String := none
  /-- Further options. -/
  overrides : Fields Value := []

namespace Parameter

/-- All that is known about a parameter, with the further options in front. -/
def fields (p : Parameter) : Fields Value :=
  let fs := Fields.merge p.extra
    [("id", .str p.id), ("name", p.name), ("desc", p.desc), ("type", .str p.type)]
  let fs := match p.items with
    | some items => fs.insert "items" (.list (items.map .dict))
    | none => fs
  match p.initialValue with
  | some v => fs.insert "initialValue" v
  | none => fs

end Parameter

namespace Record

/-- All that is known about a method, with the further options in front. -/
def fields (r : Record) : Fields Value :=
  let fs := Fields.merge r.overrides
    [("id", .str r.id), ("displayText", .str r.displayText), ("listName", r.listName),
      ("category", .str r.category), ("params", .list (r.params.map fun p => .dict p.fields)),
      ("description", r.description)]
  match r.returnType with
  | some tag => fs.insert "returnType" (.str tag)
  | none => fs

end Record

end Addon.Ace
