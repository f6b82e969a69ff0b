import Addon.Script.Parser.Basic

/-!
# Targets

The expressions that can stand where a value is bound: names, attributes, subscripts, and tuples and
lists of targets, in which items may be starred.
-/

namespace Addon.Script

mutual

/-- A target of an assignment, possibly starred. -/
def Expr.isTarget : Expr → Bool
  | .name .. | .attribute .. | .subscript .. => true
  | .tuple _ items | .list _ items => areTargets items
  | .starred _ value => value.isPlainTarget
  | _ => false

/-- A target of an assignment that is not starred. -/
def Expr.isPlainTarget : Expr → Bool
  | .name .. | .attribute .. | .subscript .. => true
  | .tuple _ items | .list _ items => areTargets items
  | _ => false

def areTargets : List Expr → Bool
  | [] => true
  | e :: rest => e.isTarget && areTargets rest

end

mutual

/-- Something that can be deleted. -/
def Expr.isDeletable : Expr → Bool
  | .name .. | .attribute .. | .subscript .. => true
  | .tuple _ items | .list _ items => areDeletable items
  | _ => false

def areDeletable : List Expr → Bool
  | [] => true
  | e :: rest => e.isDeletable && areDeletable rest

end

/-- A single name, attribute or subscript. -/
def Expr.isSingleTarget : Expr → Bool
  | .name .. | .attribute .. | .subscript .. => true
  | _ => false

/-- A starred expression. -/
def Expr.isStarred : Expr → Bool
  | .starred .. => true
  | _ => false

end Addon.Script
