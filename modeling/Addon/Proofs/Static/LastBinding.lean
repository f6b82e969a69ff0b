import Addon.Proofs.Static.Assignment
import Mathlib.Data.List.Induction

/-!
# LastBinding — which statement a constant comes from

A constant has the value that the last statement gave it which the collection heeds. The
collection heeds assignments to bare names, declarations, functions and classes. A script can bind
and unbind names in more ways than these, and a constant whose name is bound again in one of the
others keeps its old value.

## The architecture

* **`binds`** — the names that a statement at the top of a script binds or unbinds, in
  whatever way. `rebinds` are those of them that the collection heeds, and `Overlooked` are
  the forms of the others.
* **`Assigns`** — a statement assigns an expression to a bare name.
* **`get?_of_update`** — the step: what a statement that is heeded does to its name.
* **`comesFrom_of_get?`** — the run: by induction on the script from its end, a constant comes from
  the last statement that is heeded.
-/

namespace Addon.Static

open Script

variable {front : List Expr} {e : Expr}

/-! ## Names that a statement binds -/

mutual

/-- The names in a target, at every depth. -/
def boundIn : Expr → List String
  | .name _ id => [id]
  | .tuple _ items | .list _ items => boundInAll items
  | .starred _ value => boundIn value
  | _ => []

def boundInAll : List Expr → List String
  | [] => []
  | e :: rest => boundIn e ++ boundInAll rest

end

/-- The name that an import binds: of a dotted name only the first part. -/
def importedName (a : Alias) : String :=
  a.asName.getD (String.ofList (a.name.toList.takeWhile (· ≠ '.')))

/-- The names that a statement at the top of a script binds or unbinds. -/
def binds : Stmt → List String
  | .assign _ targets _ | .delete _ targets => boundInAll targets
  | .augAssign _ target _ _ | .for _ _ target _ _ _ => boundIn target
  | .annAssign _ (.name _ id) .. => [id]
  | .with _ _ items _ => boundInAll (items.filterMap (·.target))
  | .importNames _ names => names.map importedName
  | .importFrom _ _ names _ => names.map fun a => a.asName.getD a.name
  | .functionDef _ _ name .. => [name]
  | .classDef _ name .. => [name]
  | _ => []

/-- The ways to bind or unbind a name that the collection of constants does not heed. -/
inductive Overlooked (id : String) : Stmt → Prop where
  | nested {x : Extent} {targets : List Expr} {value : Expr} (hbound : id ∈ boundInAll targets)
      (hbare : id ∉ targetNames targets) : Overlooked id (.assign x targets value)
  | augmented {x : Extent} {target value : Expr} {op : BinaryOp} (h : id ∈ boundIn target) :
      Overlooked id (.augAssign x target op value)
  | deleted {x : Extent} {targets : List Expr} (h : id ∈ boundInAll targets) :
      Overlooked id (.delete x targets)
  | imported {x : Extent} {names : List Alias} (h : id ∈ names.map importedName) :
      Overlooked id (.importNames x names)
  | importedFrom {x : Extent} {path : Option String} {names : List Alias} {level : Nat}
      (h : id ∈ names.map fun a => a.asName.getD a.name) :
      Overlooked id (.importFrom x path names level)
  | looped {x : Extent} {isAsync : Bool} {target iter : Expr} {body orElse : List Stmt}
      (h : id ∈ boundIn target) : Overlooked id (.for x isAsync target iter body orElse)
  | managed {x : Extent} {isAsync : Bool} {items : List WithItem} {body : List Stmt}
      (h : id ∈ boundInAll (items.filterMap (·.target))) :
      Overlooked id (.with x isAsync items body)

theorem mem_boundInAll_of_mem_targetNames {id : String} {targets : List Expr}
    (h : id ∈ targetNames targets) :
    id ∈ boundInAll targets := by
  induction targets with
  | nil => cases h
  | cons e rest ih =>
    rw [boundInAll, List.mem_append]
    cases e with
    | name x other =>
      rw [targetNames_name, List.mem_cons] at h
      rw [boundIn, List.mem_singleton]
      exact h.imp_right ih
    | _ => exact .inr (ih h)

/-- What the collection heeds is bound. -/
theorem mem_binds_of_mem_rebinds {id : String} {s : Stmt} (h : id ∈ rebinds s) : id ∈ binds s := by
  unfold rebinds at h
  split at h
  · exact mem_boundInAll_of_mem_targetNames h
  · exact h
  · exact h
  · exact h
  · cases h

/-- The names that are bound and not heeded are bound in one of the other ways. -/
theorem overlooked_iff {id : String} {s : Stmt} :
    Overlooked id s ↔ id ∈ binds s ∧ id ∉ rebinds s := by
  constructor
  · intro h
    cases h with
    | nested hbound hbare => exact ⟨hbound, hbare⟩
    | augmented h | deleted h | imported h | importedFrom h | looped h | managed h =>
      exact ⟨h, List.not_mem_nil⟩
  · rintro ⟨hbinds, h⟩
    unfold binds at hbinds
    split at hbinds
    · exact .nested hbinds h
    · exact .deleted hbinds
    · exact .augmented hbinds
    · exact .looped hbinds
    · exact absurd hbinds h
    · exact .managed hbinds
    · exact .imported hbinds
    · exact .importedFrom hbinds
    · exact absurd hbinds h
    · exact absurd hbinds h
    · cases hbinds

/-! ## Assignments to a bare name -/

/-- The statement assigns the expression to a bare name, behind the targets `front`. -/
inductive Assigns : Stmt → List Expr → String → Expr → Prop where
  | plain {x y : Extent} {front rest : List Expr} {id : String} {e : Expr} (hlast : id ∉
      targetNames rest) :
      Assigns (.assign x (front ++ .name y id :: rest) e) front id e
  | annotated {x y : Extent} {id : String} {note e : Expr} {simple : Bool} :
      Assigns (.annAssign x (.name y id) note (some e) simple) [] id e

theorem Assigns.mem_rebinds {s : Stmt} {id : String} (h : Assigns s front id e) :
    id ∈ rebinds s := by
  cases h with
  | plain =>
    rw [rebinds_assign, targetNames_append, targetNames_name]
    exact List.mem_append_right _ List.mem_cons_self
  | annotated => exact List.mem_singleton_self id

/-- The expression that a statement assigns to a name has a value in its turn, in the environment
that the targets in front leave. The statement stands at a place. -/
def HasValue (env : Env) (place : Nat) (front : List Expr) (e : Expr) (v : Value) : Prop :=
  ∃ turn, bindTargets e place 0 front env = .ok turn ∧
    eval turn (targetWay place front.length) e = .ok v

section Step

variable {env env' : Env} {place : Nat} {s : Stmt} {id : String} {v : Value}

theorem toOption_eq_some {x : Eval Value} : x.toOption = some v ↔ x = .ok v := by
  cases x <;> simp [Except.toOption]

/-- An assignment gives its name the value that the expression has in its turn. -/
theorem get?_of_assigns (h : update env place s = .ok env')
    (hs : Assigns s front id e) : env'.get? id = some v ↔ HasValue env place front e v := by
  cases hs with
  | plain hlast =>
    obtain ⟨turn, hturn, hget⟩ := get?_of_bindTargets h hlast
    rw [hget, toOption_eq_some, Nat.zero_add]
    constructor
    · exact fun hv => ⟨turn, hturn, hv⟩
    · rintro ⟨other, hother, hv⟩
      obtain rfl : turn = other := Except.ok.inj (hturn.symm.trans hother)
      exact hv
  | annotated =>
    rw [get?_of_bind h, toOption_eq_some]
    constructor
    · exact fun hv => ⟨env, rfl, hv⟩
    · rintro ⟨other, hother, hv⟩
      obtain rfl : env = other := Except.ok.inj hother
      exact hv

/-- **The step.** A statement that is heeded assigns to its name, or the name is forgotten. -/
theorem get?_of_update (h : update env place s = .ok env') (hid : id ∈ rebinds s) :
    env'.get? id = none ∨ ∃ front e, Assigns s front id e := by
  unfold update at h
  split at h
  · obtain ⟨front, y, rest, rfl, hlast⟩ := exists_last_target hid
    exact .inr ⟨front, _, .plain hlast⟩
  · obtain rfl := List.mem_singleton.mp hid
    cases h
    exact .inl (Fields.get?_erase_self ..)
  · obtain rfl := List.mem_singleton.mp hid
    exact .inr ⟨[], _, .annotated⟩
  · obtain rfl := List.mem_singleton.mp hid
    cases h
    exact .inl (Fields.get?_erase_self ..)
  · obtain rfl := List.mem_singleton.mp hid
    cases h
    exact .inl (Fields.get?_erase_self ..)
  · next hassign hdeclare hannotate hfunction hclass =>
    -- no other statement is heeded
    unfold rebinds at hid
    split at hid
    · exact absurd rfl (hassign _ _ _)
    · next x y id note value simple =>
      cases value with
      | none => exact absurd rfl (hdeclare _ _ _ _ _)
      | some e => exact absurd rfl (hannotate _ _ _ _ _ _)
    · exact absurd rfl (hfunction _ _ _ _ _ _ _)
    · exact absurd rfl (hclass _ _ _ _ _ _)
    · cases hid

end Step

/-! ## Whole scripts -/

/-- A constant comes from a statement that assigns to its name, the last one in the script that is
heeded. `mid` is the environment that the statements before it leave. -/
structure ComesFrom (body : List Stmt) (id : String) (v : Value) (before : List Stmt) (s : Stmt)
    (after : List Stmt) (front : List Expr) (e : Expr) (mid : Env) : Prop where
  split : body = before ++ s :: after
  assigns : Assigns s front id e
  unheeded : ∀ t ∈ after, id ∉ rebinds t
  collected : environment ⟨before⟩ = .ok mid
  value : HasValue mid before.length front e v

section Run

variable {env : Env} {id : String} {v : Value}

/-- The environment of a script, taken apart at a statement. -/
theorem environment_eq_ok_iff {before after : List Stmt} {s : Stmt} :
    environment ⟨before ++ s :: after⟩ = .ok env ↔ ∃ mid next, environment ⟨before⟩ = .ok mid ∧
      update mid before.length s = .ok next ∧
        updateAll next (before.length + 1) after = .ok env := by
  simp only [environment, updateAll_append, bind_eq_ok, updateAll, Nat.zero_add]
  constructor
  · rintro ⟨mid, hmid, next, hnext, h⟩
    exact ⟨mid, next, hmid, hnext, h⟩
  · rintro ⟨mid, next, hmid, hnext, h⟩
    exact ⟨mid, hmid, next, hnext, h⟩

/-- **The run.** A constant comes from the last statement that is heeded. Induction from the end of
the script: a statement that is not heeded leaves the constant as it was. -/
theorem comesFrom_of_get? {body : List Stmt} (h : environment ⟨body⟩ = .ok env)
    (hv : env.get? id = some v) :
    ∃ before s after front e mid, ComesFrom body id v before s after front e mid := by
  induction body using List.reverseRecOn generalizing env with
  | nil =>
    cases h
    cases hv
  | append_singleton init s ih =>
    obtain ⟨mid, next, hmid, hnext, hrest⟩ := environment_eq_ok_iff.mp h
    obtain rfl : next = env := Except.ok.inj hrest
    -- either the last statement is heeded, or the constant was there before it
    by_cases hid : id ∈ rebinds s
    · rcases get?_of_update hnext hid with hnone | ⟨front, e, hs⟩
      · rw [hnone] at hv
        cases hv
      · exact ⟨init, s, [], front, e, mid, rfl, hs, by simp, hmid, (get?_of_assigns hnext hs).mp hv⟩
    · rw [get?_of_update_of_not_mem hnext hid] at hv
      obtain ⟨before, t, after, front, e, earlier, hsplit, ht, hafter, hcollected, hvalue⟩ :=
        ih hmid hv
      refine ⟨before, t, after ++ [s], front, e, earlier, by simp [hsplit], ht, ?_,
        hcollected, hvalue⟩
      simpa [or_imp, forall_and] using ⟨hafter, hid⟩

/-- What comes from the last statement that is heeded is a constant. -/
theorem ComesFrom.get? {body before after : List Stmt} {s : Stmt} {mid : Env}
    (hfrom : ComesFrom body id v before s after front e mid) (h : environment ⟨body⟩ = .ok env) :
    env.get? id = some v := by
  rw [hfrom.split, environment_eq_ok_iff] at h
  obtain ⟨other, next, hmid, hnext, hrest⟩ := h
  obtain rfl : mid = other := Except.ok.inj (hfrom.collected.symm.trans hmid)
  -- what stands behind the statement does not touch the name
  rw [get?_of_updateAll_of_not_mem hrest hfrom.unheeded]
  exact (get?_of_assigns hnext hfrom.assigns).mpr hfrom.value

/-- The value is that of the expression in the environment that the statements before leave, unless
a target in front is a name in it. -/
theorem HasValue.of_quiet {place : Nat} {mid : Env}
    (h : HasValue mid place front e v) (hquiet : ∀ other ∈ targetNames front, other ∉ reads e) :
    eval mid (targetWay place front.length) e = .ok v := by
  obtain ⟨turn, hturn, hv⟩ := h
  have hagree : Agree (reads e) mid turn := agree_bindTargets hturn fun x other hother =>
    hquiet other (mem_targetNames_of_mem hother)
  rw [eval_congr _ e hagree, hv]

/-- **Constants come from the last statement that is heeded.** Statements behind it can bind the
name only in ways that are overlooked; where there are none of those, it is the last statement that
binds or unbinds the name. -/
theorem constants_from_last_heeded {m : Module} (henv : environment m = .ok env) (id : String)
    (v : Value) : (env.get? id = some v ↔ ∃ before s after front e mid,
      ComesFrom m.body id v before s after front e mid) ∧
    ∀ before s after front e mid, ComesFrom m.body id v before s after front e mid →
      id ∈ binds s ∧ (∀ t ∈ after, id ∈ binds t → Overlooked id t) ∧
      ((∀ t ∈ m.body, ¬ Overlooked id t) → ∀ t ∈ after, id ∉ binds t) ∧
      ((∀ other ∈ targetNames front, other ∉ reads e) →
        eval mid (targetWay before.length front.length) e = .ok v) := by
  constructor
  · exact ⟨comesFrom_of_get? henv, fun ⟨_, _, _, _, _, _, h⟩ => h.get? henv⟩
  · intro before s after front e mid h
    have hafter : ∀ t ∈ after, id ∈ binds t → Overlooked id t := fun t ht hbinds =>
      overlooked_iff.mpr ⟨hbinds, h.unheeded t ht⟩
    refine ⟨mem_binds_of_mem_rebinds h.assigns.mem_rebinds, hafter,
      fun hnone t ht hbinds => hnone t ?_ (hafter t ht hbinds), h.value.of_quiet⟩
    rw [h.split]
    exact List.mem_append_right _ (List.mem_cons_of_mem _ ht)

end Run

section Examples

/-- An assignment of a number to a name. -/
def assignNumber (id : String) (n : Nat) : Stmt :=
  assignOnly [nameOnly id] (.constant ⟨⟨0, 0⟩, ⟨0, 0⟩⟩ (.int n))

/-- An augmented assignment to a name. -/
def augmentOnly (id : String) (n : Nat) : Stmt :=
  .augAssign ⟨⟨0, 0⟩, ⟨0, 0⟩⟩ (nameOnly id) .add (.constant ⟨⟨0, 0⟩, ⟨0, 0⟩⟩ (.int n))

/-- `X = 1`, `Y = X = X + 1`, `Z += 1`: the value of `X` is that of the second statement. -/
def rebound : Module :=
  ⟨[assignNumber "X" 1, assignOnly [nameOnly "Y", nameOnly "X"] (nameAnd "X" .add 1),
    augmentOnly "Z" 1]⟩

theorem constants_from_last_heeded_rebound :
    environment rebound = .ok [("X", .int 2), ("Y", .int 2)] ∧
    ∃ before s after front e mid, ComesFrom rebound.body "X" (.int 2) before s after front e mid ∧
      ∀ t ∈ after, "X" ∉ binds t := by
  have henv : environment rebound = .ok [("X", .int 2), ("Y", .int 2)] := rfl
  obtain ⟨hiff, hrest⟩ := constants_from_last_heeded henv "X" (.int 2)
  obtain ⟨before, s, after, front, e, mid, h⟩ := hiff.mp rfl
  refine ⟨henv, before, s, after, front, e, mid, h, (hrest _ _ _ _ _ _ h).2.2.1 ?_⟩
  simp only [overlooked_iff]
  decide

/-- `X = 1`, `X += 1`: the constant keeps the value of the first statement, though the
last one binds its name. -/
theorem augmented_constant_is_stale :
    environment ⟨[assignNumber "X" 1, augmentOnly "X" 1]⟩ = .ok [("X", .int 1)] ∧
      "X" ∈ binds (augmentOnly "X" 1) ∧ ∀ front e, ¬ Assigns (augmentOnly "X" 1) front "X" e := by
  refine ⟨rfl, by decide, fun front e h => ?_⟩
  cases h

end Examples

end Addon.Static
