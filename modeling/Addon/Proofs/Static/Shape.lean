import Addon.Proofs.Script.Shape
import Addon.Static.Environment

/-!
# Shape — evaluation does not depend on places

An evaluation never looks at an extent, so expressions of the same shape have the same value
(`eval_bare`), and modules of the same shape have the same constants (`environment_bare`).
-/

namespace Addon.Static

open Script

section Eval

variable (env : Env)

mutual

theorem eval_bare (way : List Nat) : ∀ e : Expr, eval env way e.bare = eval env way e
  | .constant _ value => by rw [Expr.bare, eval, eval]
  | .name _ id => by rw [Expr.bare, eval, eval]
  | .list _ items => by rw [Expr.bare, eval, eval, evalItems_bare way 0 items]
  | .tuple _ items => by rw [Expr.bare, eval, eval, evalItems_bare way 0 items]
  | .dict _ items => by rw [Expr.bare, eval, eval, evalEntries_bare way 0 items []]
  | .joined _ parts => by rw [Expr.bare, eval, eval, evalParts_bare way 0 parts]
  | .unary _ op operand => by rw [Expr.bare, eval, eval, eval_bare _ operand]
  | .binary _ left op right => by rw [Expr.bare, eval, eval, eval_bare _ left, eval_bare _ right]
  | .boolOp _ _ [] => by rw [Expr.bare, bareExprs, eval, eval]
  | .boolOp _ op (first :: rest) => by
    have hrest := fun v => evalChain_bare way 1 op v rest
    rw [Expr.bare, bareExprs, eval, eval, eval_bare _ first]
    simp only [hrest]
  | .compare _ left [⟨op, right⟩] => by
    rw [Expr.bare, bareLinks, bareLinks, bareLink, eval, eval, eval_bare _ left, eval_bare _ right]
  | .compare _ _ [] => by rw [Expr.bare, bareLinks, eval, eval] <;> simp
  | .compare _ _ (_ :: _ :: _) => by rw [Expr.bare, bareLinks, bareLinks, eval, eval] <;> simp
  | .ifExp _ test body orElse => by
    rw [Expr.bare, eval, eval, eval_bare _ test, eval_bare _ body, eval_bare _ orElse]
  | .subscript _ value index => by rw [Expr.bare, eval, eval, eval_bare _ value, eval_bare _ index]
  | .call _ callee args [] => by
    cases callee
    case name => rw [Expr.bare, Expr.bare, bareKeywords, eval, eval, evalItems_bare way 0 args]
    all_goals
      rw [Expr.bare, Expr.bare, eval, eval]
      all_goals simp
  | .call _ _ _ (_ :: _) => by
    rw [Expr.bare, bareKeywords, eval, eval]
    all_goals simp
  | .named .. | .lambda .. | .set .. | .listComp .. | .setComp .. | .dictComp .. | .generator ..
  | .await .. | .yield .. | .yieldFrom .. | .formatted .. | .attribute .. | .starred ..
  | .slice .. => by
    rw [Expr.bare, eval, eval]
    · rfl
    all_goals simp

theorem evalItems_bare (way : List Nat) (place : Nat) : ∀ items : List Expr,
    evalItems env way place (bareExprs items) = evalItems env way place items
  | [] => by rw [bareExprs]
  | e :: rest => by rw [bareExprs, evalItems, evalItems, eval_bare _ e, evalItems_bare way _ rest]

theorem evalEntries_bare (way : List Nat) (place : Nat) :
    ∀ (items : List DictItem) (fields : Fields Value),
    evalEntries env way place (bareItems items) fields = evalEntries env way place items fields
  | [], fields => by rw [bareItems]
  | ⟨none, value⟩ :: rest, fields => by
    have hrest := fun fields => evalEntries_bare way (place + 1) rest fields
    rw [bareItems, bareItem, bareOption, evalEntries, evalEntries, eval_bare _ value]
    simp only [hrest]
  | ⟨some key, value⟩ :: rest, fields => by
    have hrest := fun fields => evalEntries_bare way (place + 1) rest fields
    rw [bareItems, bareItem, bareOption, evalEntries, evalEntries, eval_bare _ key,
      eval_bare _ value]
    simp only [hrest]

theorem evalChain_bare (way : List Nat) (place : Nat) (op : BoolOp) (v : Value) : ∀ es : List Expr,
    evalChain env way place op v (bareExprs es) = evalChain env way place op v es
  | [] => by rw [bareExprs]
  | e :: rest => by
    have hrest := fun w => evalChain_bare way (place + 1) op w rest
    rw [bareExprs, evalChain, evalChain, eval_bare _ e]
    simp only [hrest]

theorem evalParts_bare (way : List Nat) (place : Nat) : ∀ parts : List Expr,
    evalParts env way place (bareExprs parts) = evalParts env way place parts
  | [] => by rw [bareExprs]
  | .constant _ value :: rest => by
    cases value
    case str => rw [bareExprs, Expr.bare, evalParts, evalParts, evalParts_bare way _ rest]
    all_goals rw [bareExprs, Expr.bare, evalParts, evalParts] <;> simp
  | .formatted _ value conversion none :: rest => by
    rw [bareExprs, Expr.bare, bareOption, evalParts, evalParts, eval_bare _ value,
      evalParts_bare way _ rest]
  | .formatted _ value conversion (some spec) :: rest => by
    rw [bareExprs, Expr.bare, bareOption, evalParts, evalParts, eval_bare _ value, eval_bare _ spec,
      evalParts_bare way _ rest]
  | .boolOp .. :: _ | .named .. :: _ | .binary .. :: _ | .unary .. :: _ | .lambda .. :: _
  | .ifExp .. :: _ | .dict .. :: _ | .set .. :: _ | .listComp .. :: _ | .setComp .. :: _
  | .dictComp .. :: _ | .generator .. :: _ | .await .. :: _ | .yield .. :: _ | .yieldFrom .. :: _
  | .compare .. :: _ | .call .. :: _ | .joined .. :: _ | .attribute .. :: _ | .subscript .. :: _
  | .starred .. :: _ | .name .. :: _ | .list .. :: _ | .tuple .. :: _ | .slice .. :: _ => by
    rw [bareExprs, Expr.bare, evalParts, evalParts] <;> simp

end

end Eval

/-! ## Constants -/

theorem bind_bare (env : Env) (way : List Nat) (name : String) (value : Expr) :
    bind env way name value.bare = bind env way name value := by
  rw [bind, bind, eval_bare]

theorem bindTargets_bare (value : Expr) (statement target : Nat) (targets : List Expr) (env : Env) :
    bindTargets value.bare statement target (bareExprs targets) env =
      bindTargets value statement target targets env := by
  induction targets generalizing target env with
  | nil => rfl
  | cons e rest ih =>
    cases e with
    | name x id =>
      rw [bareExprs, Expr.bare, bindTargets, bindTargets, bind_bare]
      simp only [ih]
    -- other targets bind nothing
    | _ => exact ih (target + 1) env

theorem update_bare (env : Env) (statement : Nat) (s : Stmt) :
    update env statement s.bare = update env statement s := by
  cases s with
  | assign x targets value =>
    rw [Stmt.bare, update, update]
    exact bindTargets_bare value statement 0 targets env
  | annAssign x target annotation value simple =>
    rw [Stmt.bare]
    cases target with
    | name y id =>
      cases value with
      | none => rfl
      | some value =>
        rw [Expr.bare, bareOption, update, update]
        exact bind_bare env _ id value
    | _ => rfl
  | _ => rfl

theorem updateAll_bare (env : Env) (statement : Nat) (stmts : List Stmt) :
    updateAll env statement (bareStmts stmts) = updateAll env statement stmts := by
  induction stmts generalizing env statement with
  | nil => rfl
  | cons s rest ih =>
    rw [bareStmts, updateAll, updateAll, update_bare]
    simp only [ih]

/-- Modules of the same shape have the same constants. -/
theorem environment_bare (m : Module) : environment m.bare = environment m :=
  updateAll_bare [] 0 m.body

end Addon.Static
