import Addon.Text.Split
import Addon.Unicode.Surrogate
import Addon.Value.Fault

/-!
# Comparing values

Numbers are equal when they have the same magnitude, whatever their kind; lists, tuples and
dicts when their parts are. Order is defined between numbers that are not complex, between
texts, and between two lists or two tuples, where the first parts that differ decide. What is
not a number equals nothing, not even itself; as a part of a container it is still the same as
another part of the same origin.
-/

namespace Addon.Value

/-- A boolean or a number. -/
inductive Numeral where
  | int (n : Int)
  | float (x : Float)
  | complex (re im : Float)

/-- The number of a value that is one. -/
def numeral? : Value → Option Numeral
  | .bool b => some (.int (if b then 1 else 0))
  | .int n => some (.int n)
  | .float x => some (.float x)
  | .nan _ => some (.float Number.notANumber)
  | .complex re im => some (.complex re im)
  | _ => none

/-- Equality of numbers. -/
def Numeral.equal : Numeral → Numeral → Bool
  | .int n, .int m => n = m
  | .float x, .float y => x == y
  | .int n, .float x | .float x, .int n => Number.compareInt? x n = some .eq
  | .complex re im, .int n | .int n, .complex re im => im == 0 && Number.compareInt? re n = some .eq
  | .complex re im, .float x | .float x, .complex re im => im == 0 && re == x
  | .complex re im, .complex re' im' => re == re' && im == im'

mutual

/-- Equality of values. -/
def equal : Value → Value → Bool
  | .null, .null => true
  | .str s, .str t => s = t
  | .list items, .list others => equalItems items others
  | .tuple items, .tuple others => equalItems items others
  | .dict fields, .dict others => fields.length = others.length && equalFields fields others
  | v, w => match v.numeral?, w.numeral? with
    | some a, some b => a.equal b
    | _, _ => false

def equalItems : List Value → List Value → Bool
  | [], [] => true
  | .nan o :: rest, .nan p :: others => o = p && equalItems rest others
  | v :: rest, w :: others => v.equal w && equalItems rest others
  | _, _ => false

/-- Every field is in the other table with an equal value. -/
def equalFields : List (String × Value) → Fields Value → Bool
  | [], _ => true
  | (name, .nan o) :: rest, others =>
    (match others.get? name with
      | some (.nan p) => o = p
      | _ => false) && equalFields rest others
  | (name, v) :: rest, others =>
    (match others.get? name with
      | some w => v.equal w
      | none => false) && equalFields rest others

end

/-- Two parts of containers are the same or equal. -/
def alike : Value → Value → Bool
  | .nan o, .nan p => o = p
  | v, w => v.equal w

/-- The order of two numbers; none when one of them is not a number. -/
def Numeral.compare? : Numeral → Numeral → Option (Option Ordering)
  | .int n, .int m => some (some (compare n m))
  | .float x, .float y => some (if x < y then some .lt else if y < x then some .gt
      else if x == y then some .eq else none)
  | .float x, .int n => some (Number.compareInt? x n)
  | .int n, .float x => some ((Number.compareInt? x n).map Ordering.swap)
  | .complex .., _ | _, .complex .. => none

/-- The order relations. -/
inductive Relation where
  | lt | le | gt | ge
deriving DecidableEq, Repr

namespace Relation

def text : Relation → String
  | .lt => "<"
  | .le => "<="
  | .gt => ">"
  | .ge => ">="

/-- The relation holds for an order; never when there is none. -/
def holds (r : Relation) : Option Ordering → Bool
  | none => false
  | some o => match r with
    | .lt => o = .lt
    | .le => o ≠ .gt
    | .gt => o = .gt
    | .ge => o ≠ .lt

end Relation

/-- The order of texts: the first characters that differ decide, or else the lengths. -/
def textOrder : List Char → List Char → Ordering
  | c :: rest, d :: others =>
    (compare (Unicode.codeOf c) (Unicode.codeOf d)).then (textOrder rest others)
  | [], [] => .eq
  | [], _ :: _ => .lt
  | _ :: _, [] => .gt

/-- Two values have no order. -/
def unordered (r : Relation) (v w : Value) : Except Fault Bool :=
  .error (.unordered r.text v.kind w.kind)

mutual

/-- An order relation between two values. -/
def related (r : Relation) : Value → Value → Except Fault Bool
  | .str s, .str t => .ok (r.holds (some (textOrder s.toList t.toList)))
  | .list items, .list others => relatedItems r items others
  | .tuple items, .tuple others => relatedItems r items others
  | v, w => match v.numeral?, w.numeral? with
    | some a, some b => match a.compare? b with
      | some o => .ok (r.holds o)
      | none => unordered r v w
    | _, _ => unordered r v w

/-- The first items that differ decide, or else the lengths. -/
def relatedItems (r : Relation) : List Value → List Value → Except Fault Bool
  | v :: rest, w :: others => if v.alike w then relatedItems r rest others else related r v w
  | [], [] => .ok (r.holds (some .eq))
  | [], _ :: _ => .ok (r.holds (some .lt))
  | _ :: _, [] => .ok (r.holds (some .gt))

end

/-- A value is in a container. -/
def isIn (v : Value) : Value → Except Fault Bool
  | .list items | .tuple items => .ok (items.any v.alike)
  | .dict fields => match v with
    | .str name => .ok (Fields.contains fields name)
    | _ => match v.unhashable? with
      | some kind => .error (.unhashable kind)
      | none => .ok false
  | .str text => match v with
    | .str part => .ok (Text.occursIn part.toList text.toList)
    | _ => .error (.searchInText v.kind)
  | w => .error (.notIterable w.kind)

end Addon.Value
