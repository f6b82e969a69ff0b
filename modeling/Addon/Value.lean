import Addon.Fields
import Addon.Number.Binary64

/-!
# Values

What an expression of a script can evaluate to and what a document can hold. Lists and tuples are
different kinds of value; the keys of a dict are text. A double that is not a number is kept apart
from the others, since it has an origin.
-/

namespace Addon

/-- Where a result that is not a number arose. Such results are never equal, but a container knows
its own items again: in containers, results of one origin are the same item. -/
inductive Origin where
  /-- A word of a document. -/
  | document
  /-- An operation, by the way to it. -/
  | operation (way : List Nat)
deriving DecidableEq, Repr

inductive Value where
  | null
  | bool (b : Bool)
  | int (n : Int)
  | float (x : Float)
  /-- A double that is not a number. -/
  | nan (origin : Origin)
  | complex (re im : Float)
  | str (text : String)
  | list (items : List Value)
  | tuple (items : List Value)
  | dict (fields : List (String × Value))
deriving Inhabited

namespace Value

/-- The word for the kind of a value. -/
def kind : Value → String
  | .null => "NoneType"
  | .bool _ => "bool"
  | .int _ => "int"
  | .float _ | .nan _ => "float"
  | .complex .. => "complex"
  | .str _ => "str"
  | .list _ => "list"
  | .tuple _ => "tuple"
  | .dict _ => "dict"

/-- A value that counts as true: anything but nothing, zero and what is empty. -/
def isTruthy : Value → Bool
  | .null => false
  | .bool b => b
  | .int n => n ≠ 0
  | .float x => x != 0
  | .nan _ => true
  | .complex re im => re != 0 || im != 0
  | .str text => text ≠ ""
  | .list items | .tuple items => !items.isEmpty
  | .dict fields => !fields.isEmpty

/-- The result of the operation that a way leads to. -/
def arising (way : List Nat) : Value → Value
  | .float x => if Number.isNaN x then .nan (.operation way) else .float x
  | v => v

mutual

/-- The value with every tuple in it turned into a list. -/
def safe : Value → Value
  | .list items | .tuple items => .list (safeItems items)
  | .dict fields => .dict (safeFields fields)
  | v => v

def safeItems : List Value → List Value
  | [] => []
  | v :: rest => v.safe :: safeItems rest

def safeFields : List (String × Value) → List (String × Value)
  | [] => []
  | (name, v) :: rest => (name, v.safe) :: safeFields rest

end

/-- A boolean or an integer as an integer. -/
def toInt? : Value → Option Int
  | .bool b => some (if b then 1 else 0)
  | .int n => some n
  | _ => none

/-- The text of a value that is text. -/
def toText? : Value → Option String
  | .str text => some text
  | _ => none

mutual

/-- The kind of the part that keeps a value from being a key, if there is one. Keys are made of
scalars and tuples. -/
def unhashable? : Value → Option String
  | .list _ => some "list"
  | .dict _ => some "dict"
  | .tuple items => unhashableItem? items
  | _ => none

def unhashableItem? : List Value → Option String
  | [] => none
  | v :: rest => match v.unhashable? with
    | some k => some k
    | none => unhashableItem? rest

end

end Value

end Addon
