/-!
# Indices from either end

An index that is not negative counts from the front of a list, a negative one from its end: `-1` is
the last item. A slice reaches from one index up to another and is cut to what the list has.
-/

namespace Addon.Text

/-- The place of an index in a list of the given length, not cut at the end of the list. -/
def placeOf (length : Nat) (i : Int) : Nat :=
  if i < 0 then (i + length).toNat else i.toNat

/-- The item at an index. -/
def itemAt? {α : Type} (xs : List α) (i : Int) : Option α :=
  if i + xs.length < 0 then none else xs[placeOf xs.length i]?

/-- The items from one index up to another. -/
def slice {α : Type} (xs : List α) (start stop : Int) : List α :=
  let a := placeOf xs.length start
  let b := placeOf xs.length stop
  (xs.take b).drop a

end Addon.Text
