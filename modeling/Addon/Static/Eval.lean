import Addon.Static.Operation

/-!
# Static evaluation

Evaluates an expression without running anything. Literals, containers, arithmetic, comparisons, a
few conversions and names of an environment are understood; everything else is refused.
-/

namespace Addon.Static

open Script

/-- The values of names. -/
abbrev Env := Fields Value

/-- The boolean operator is decided by this value. -/
def decides (op : BoolOp) (v : Value) : Bool :=
  match op with
  | .and => !v.isTruthy
  | .or => v.isTruthy

mutual

/-- The value of an expression, to which a way leads. The ways to the parts of an expression differ,
so that results of different operations that are not numbers have different origins. -/
def eval (env : Env) (way : List Nat) : Expr → Eval Value
  | .constant _ value => literal value
  | .name _ id => match env.get? id with
    | some v => .ok v
    | none => refuse (.unknownName id)
  | .list _ items => do
    let items ← evalItems env way 0 items
    return .list items
  | .tuple _ items => do
    let items ← evalItems env way 0 items
    return .tuple items
  | .dict _ items => do
    let fields ← evalEntries env way 0 items []
    return .dict fields
  | .joined _ parts => do
    let texts ← evalParts env way 0 parts
    return .str (String.join texts)
  | .unary _ op operand => do
    let v ← eval env (0 :: way) operand
    let result ← unary op v
    return result.arising way
  | .binary _ left op right => do
    let v ← eval env (0 :: way) left
    let w ← eval env (1 :: way) right
    let result ← binary op v w
    return result.arising way
  | .boolOp _ _ [] => refuse (.unsupported "BoolOp")
  | .boolOp _ op (first :: rest) => do
    let v ← eval env (0 :: way) first
    evalChain env way 1 op v rest
  | .compare _ left [⟨op, right⟩] => do
    let v ← eval env (0 :: way) left
    let w ← eval env (1 :: way) right
    compare op v w
  | .compare .. => refuse .chainedComparison
  | .ifExp _ test body orElse => do
    let v ← eval env (0 :: way) test
    if v.isTruthy then eval env (1 :: way) body else eval env (2 :: way) orElse
  | .subscript _ value index => do
    let v ← eval env (0 :: way) value
    let w ← eval env (1 :: way) index
    subscript v w
  | .call _ (.name _ id) args [] => do
    let args ← evalItems env way 0 args
    let result ← call id args
    return result.arising way
  | .call .. => refuse .noConversion
  | e => refuse (.unsupported e.formName)

/-- The values of expressions, in order, from a place on. -/
def evalItems (env : Env) (way : List Nat) (place : Nat) : List Expr → Eval (List Value)
  | [] => return []
  | e :: rest => do
    let v ← eval env (place :: way) e
    let vs ← evalItems env way (place + 1) rest
    return v :: vs

/-- The entries of a dict from a place on, put into those read before. -/
def evalEntries (env : Env) (way : List Nat) (place : Nat) :
    List DictItem → Fields Value → Eval (Fields Value)
  | [], fields => return fields
  | ⟨none, value⟩ :: rest, fields => do
    match ← eval env (1 :: place :: way) value with
    | .dict others => evalEntries env way (place + 1) rest (fields.merge others)
    | _ => refuse .unpackedNoDict
  | ⟨some key, value⟩ :: rest, fields => do
    match ← eval env (0 :: place :: way) key with
    | .str name =>
      let v ← eval env (1 :: place :: way) value
      evalEntries env way (place + 1) rest (fields.insert name v)
    | _ => refuse .keyNoText

/-- The rest of a boolean chain from a place on, given the value so far. -/
def evalChain (env : Env) (way : List Nat) (place : Nat) (op : BoolOp) (v : Value) :
    List Expr → Eval Value
  | [] => return v
  | e :: rest =>
    if decides op v then .ok v
    else do
      let w ← eval env (place :: way) e
      evalChain env way (place + 1) op w rest

/-- The texts of the parts of a joined string from a place on. -/
def evalParts (env : Env) (way : List Nat) (place : Nat) : List Expr → Eval (List String)
  | [] => return []
  | .constant _ (.str text _) :: rest => do
    let texts ← evalParts env way (place + 1) rest
    return text :: texts
  | .formatted _ value conversion none :: rest => do
    let v ← eval env (0 :: place :: way) value
    let text ← fieldText v conversion none
    let texts ← evalParts env way (place + 1) rest
    return text :: texts
  | .formatted _ value conversion (some spec) :: rest => do
    let v ← eval env (0 :: place :: way) value
    let spec ← eval env (1 :: place :: way) spec
    let spec ← unguarded spec.text
    let text ← fieldText v conversion (some spec)
    let texts ← evalParts env way (place + 1) rest
    return text :: texts
  | _ :: _ => refuse .fieldNoPart

end

/-- The value of an expression in an environment. Its way differs from those of the expressions that
the environment was made of. -/
def evalIn (env : Env) (e : Expr) : Eval Value :=
  eval env [1] e

end Addon.Static
