import Addon.Static.Eval

/-!
# Environments

The constants of a module: names that are assigned at its top level, in order. A name is forgotten
when a value that cannot be evaluated is assigned to it, when it is declared without a value, and
when a function or class takes it.
-/

namespace Addon.Static

open Script

/-- Binds a name to the value of an expression, or forgets the name. -/
def bind (env : Env) (way : List Nat) (name : String) (value : Expr) : Except Fault Env :=
  match eval env way value with
  | .ok v => .ok (env.insert name v)
  | .error (.refused _) => .ok (env.erase name)
  | .error (.fault f) => .error f

/-- The way to the expression of a target of a statement, both given by their places. -/
def targetWay (statement target : Nat) : List Nat :=
  [target, statement, 0]

/-- Binds the targets that are names, one after the other. The expression is evaluated for each. -/
def bindTargets (value : Expr) (statement : Nat) : Nat → List Expr → Env → Except Fault Env
  | _, [], env => .ok env
  | target, .name _ id :: rest, env => do
    let env ← bind env (targetWay statement target) id value
    bindTargets value statement (target + 1) rest env
  | target, _ :: rest, env => bindTargets value statement (target + 1) rest env

/-- The environment after a statement, which stands at a place. -/
def update (env : Env) (statement : Nat) : Stmt → Except Fault Env
  | .assign _ targets value => bindTargets value statement 0 targets env
  | .annAssign _ (.name _ id) _ none _ => .ok (env.erase id)
  | .annAssign _ (.name _ id) _ (some value) _ => bind env (targetWay statement 0) id value
  | .functionDef _ _ name .. => .ok (env.erase name)
  | .classDef _ name .. => .ok (env.erase name)
  | _ => .ok env

/-- The environment after some statements, of which the first stands at a place. -/
def updateAll (env : Env) : Nat → List Stmt → Except Fault Env
  | _, [] => .ok env
  | statement, s :: rest => do
    let env ← update env statement s
    updateAll env (statement + 1) rest

/-- The constants of a module. -/
def environment (m : Module) : Except Fault Env :=
  updateAll [] 0 m.body

end Addon.Static
