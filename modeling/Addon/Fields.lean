/-!
# Fields

A table from names to values that keeps the order in which names were first put in. Putting a value
under a name that is there already replaces the value and leaves the name in its place.
-/

namespace Addon

/-- Named values in order. -/
abbrev Fields (α : Type) := List (String × α)

namespace Fields

variable {α β : Type}

/-- The value under a name. -/
def get? (fs : Fields α) (name : String) : Option α :=
  match fs with
  | [] => none
  | (n, a) :: rest => if n = name then some a else get? rest name

/-- The name has a value. -/
def contains (fs : Fields α) (name : String) : Bool :=
  fs.any fun f => f.1 = name

/-- Puts a value under a name. -/
def insert (fs : Fields α) (name : String) (a : α) : Fields α :=
  match fs with
  | [] => [(name, a)]
  | f :: rest => if f.1 = name then (name, a) :: rest else f :: insert rest name a

/-- Takes a name out. -/
def erase (fs : Fields α) (name : String) : Fields α :=
  fs.filter fun f => f.1 ≠ name

/-- Puts all values of the second table into the first. -/
def merge (fs gs : Fields α) : Fields α :=
  gs.foldl (fun acc g => insert acc g.1 g.2) fs

/-- The table of a list of pairs; of pairs with the same name the last one counts. -/
def ofList (pairs : List (String × α)) : Fields α :=
  merge [] pairs

/-- The names in order. -/
def keys (fs : Fields α) : List String :=
  fs.map (·.1)

/-- The values with a function applied to each. -/
def mapValues (f : α → β) (fs : Fields α) : Fields β :=
  fs.map fun p => (p.1, f p.2)

end Fields

end Addon
