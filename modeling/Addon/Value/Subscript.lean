import Addon.Value.Arithmetic
import Addon.Value.Text

/-!
# Subscripts

Taking a part out of a container. Indices count from zero, negative ones from the end.
-/

namespace Addon.Value

/-- The item at an index. -/
def itemAt {α : Type} (container : String) (items : List α) (n : Int) : Except Fault α :=
  if n < -indexBound || indexBound ≤ n then .error .indexTooLarge
  else
    let place := if n < 0 then n + items.length else n
    if place < 0 then .error (.indexOutOfRange container)
    else match items[place.toNat]? with
      | some a => .ok a
      | none => .error (.indexOutOfRange container)

/-- The part of a container that an index stands for. -/
def subscript (container index : Value) : Except Fault Value :=
  match container with
  | .list items => match index.toInt? with
    | some n => itemAt "list" items n
    | none => .error (.indexKind "list" index.kind)
  | .tuple items => match index.toInt? with
    | some n => itemAt "tuple" items n
    | none => .error (.indexKind "tuple" index.kind)
  | .str text => match index.toInt? with
    | some n => do
      let c ← itemAt "string" text.toList n
      return .str c.toString
    | none => .error (.textIndexKind index.kind)
  | .dict fields => do
    let found := match index with
      | .str name => Fields.get? fields name
      | _ => none
    match found, index.unhashable? with
    | some v, _ => return v
    | none, some kind => throw (.unhashable kind)
    | none, none => throw (.missingKey (← index.shown))
  | v => .error (.notSubscriptable v.kind)

end Addon.Value
