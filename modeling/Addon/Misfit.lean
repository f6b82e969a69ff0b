/-!
# Misfits

What keeps data from having the shape that is asked of it. Configurations are free in much of what
they hold, so some of their shapes are only found wanting when a document is made of them.
-/

namespace Addon

inductive Misfit where
  /-- A value that should hold others does not. -/
  | noSequence
  /-- A value that should be a key cannot be one. -/
  | noKey
  /-- A value that should be text is not. -/
  | noText
  /-- A value that should have named fields has none. -/
  | noFields
  /-- What should be a pair has another length. -/
  | pairLength (place length : Nat)
  /-- A choice without a key. -/
  | emptyItem
deriving DecidableEq, Repr

def Misfit.message : Misfit → String
  | .noSequence => "value is not iterable"
  | .noKey => "value is unhashable"
  | .noText => "expected a text"
  | .noFields => "value has no fields"
  | .pairLength place length =>
    s!"dictionary update sequence element #{place} has length {length}; 2 is required"
  | .emptyItem => ""

end Addon
