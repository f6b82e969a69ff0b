/-!
# Kinds of exported methods

An addon exports methods of three kinds: actions, conditions and expressions.
Together they are called ACEs.
-/

namespace Addon.Ace

inductive Kind where
  | action
  | condition
  | expression
deriving DecidableEq, Repr

namespace Kind

/-- All kinds, in the order in which documents list them. -/
def all : List Kind :=
  [.action, .condition, .expression]

/-- The word for things of a kind. -/
def plural : Kind → String
  | .action => "actions"
  | .condition => "conditions"
  | .expression => "expressions"

/-- The word for one thing of a kind. -/
def singular : Kind → String
  | .action => "action"
  | .condition => "condition"
  | .expression => "expression"

/-- The kind that a word stands for. -/
def ofPlural? : String → Option Kind
  | "actions" => some .action
  | "conditions" => some .condition
  | "expressions" => some .expression
  | _ => none

end Kind

/-- One thing for each kind. -/
structure ByKind (α : Type) where
  action : α
  condition : α
  expression : α
deriving DecidableEq, Repr

namespace ByKind

variable {α β : Type}

/-- The same thing for every kind. -/
def const (a : α) : ByKind α :=
  ⟨a, a, a⟩

def get (t : ByKind α) : Kind → α
  | .action => t.action
  | .condition => t.condition
  | .expression => t.expression

def set (t : ByKind α) (kind : Kind) (a : α) : ByKind α :=
  match kind with
  | .action => { t with action := a }
  | .condition => { t with condition := a }
  | .expression => { t with expression := a }

def map (f : α → β) (t : ByKind α) : ByKind β :=
  ⟨f t.action, f t.condition, f t.expression⟩

/-- The things with the words for their kinds. -/
def toFields (t : ByKind α) : List (String × α) :=
  Kind.all.map fun kind => (kind.plural, t.get kind)

end ByKind

end Addon.Ace
