import Addon.Ace.Record
import Addon.Violation

/-!
# The registry

The records of a build by category and kind, and for every kind the table that leads from the id of
a record to the method behind it. Categories stand in the order of their first use. An id occurs
once among the records of a kind, and a registration that would repeat it changes nothing.
-/

namespace Addon.Ace

/-- A method of a class. -/
structure MethodRef where
  container : String
  method : String
deriving DecidableEq, Repr

/-- The records of a category. -/
abbrev Bucket := ByKind (List Record)

structure Registry where
  /-- The records of each category, in the order of registration. -/
  categories : Fields Bucket := []
  /-- The methods behind the records. -/
  dispatch : ByKind (Fields MethodRef) := .const []
  /-- The modules that the records came from. -/
  owners : ByKind (Fields String) := .const []

namespace Registry

/-- A registry without records. -/
def empty : Registry := {}

/-- The records of a category. -/
def bucket (r : Registry) (category : String) : Bucket :=
  (r.categories.get? category).getD (.const [])

/-- Puts a record behind the others of its category and kind. -/
def append (r : Registry) (record : Record) : Fields Bucket :=
  let bucket := r.bucket record.category
  r.categories.insert record.category
    (bucket.set record.kind (bucket.get record.kind ++ [record]))

/-- Registers a record of a module, table by table. A failure leaves the
tables as they are by then. -/
def register (record : Record) (ref : MethodRef) (moduleName : String) :
    EStateM Violation Registry Unit := do
  if let some owner := ((← get).owners.get record.kind).get? record.id then
    throw (.duplicate record.kind record.id owner)
  modify fun r => { r with
    owners := r.owners.set record.kind ((r.owners.get record.kind).insert record.id moduleName) }
  modify fun r => { r with categories := r.append record }
  modify fun r => { r with
    dispatch := r.dispatch.set record.kind ((r.dispatch.get record.kind).insert record.id ref) }

/-- All records of a kind, category by category. -/
def flattened (r : Registry) (kind : Kind) : List Record :=
  r.categories.flatMap fun c => c.2.get kind

/-- The number of records. -/
def recordCount (r : Registry) : Nat :=
  Kind.all.foldr (fun kind count => (r.flattened kind).length + count) 0

end Registry

end Addon.Ace
