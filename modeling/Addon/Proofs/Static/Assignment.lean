import Addon.Proofs.Static.Constants

/-!
# Assignment — what the targets of an assignment are bound to

The expression of an assignment is evaluated for each of its targets, in the environment that the
targets in front have left. So the first target gets the value that the expression had before the
statement, and so does every other one unless a target in front is a name that the expression reads.

## The architecture

* **`targetNames`** — the targets that are names; all others bind nothing.
* **`get?_of_bindTargets_of_not_mem`**, **`get?_of_updateAll_of_not_mem`** — the frame: names that
  are not bound keep their values.
* **`get?_of_bind`**, **`get?_of_bindTargets`** — the value of a target, in terms of the environment
  that the targets in front of it leave.
* **`exists_bindTargets`** — the run over the targets, which succeeds when no name that is read
  changes before the last one.
-/

namespace Addon.Static

open Script

variable {x : Extent} {targets : List Expr} {target : Nat}

/-! ## Targets -/

/-- The targets that are names, in order. -/
def targetNames (targets : List Expr) : List String :=
  targets.filterMap fun
    | .name _ id => some id
    | _ => none

theorem rebinds_assign (x : Extent) (targets : List Expr) (value : Expr) :
    rebinds (.assign x targets value) = targetNames targets := rfl

theorem targetNames_name (x : Extent) (id : String) (rest : List Expr) :
    targetNames (.name x id :: rest) = id :: targetNames rest := rfl

theorem targetNames_append (front rest : List Expr) :
    targetNames (front ++ rest) = targetNames front ++ targetNames rest :=
  List.filterMap_append

theorem mem_targetNames_of_mem {id : String} (h : .name x id ∈ targets) :
    id ∈ targetNames targets :=
  List.mem_filterMap.mpr ⟨_, h, rfl⟩

/-- A name among the targets has a last place there. -/
theorem exists_last_target {id : String} (h : id ∈ targetNames targets) :
    ∃ front x rest, targets = front ++ .name x id :: rest ∧ id ∉ targetNames rest := by
  induction targets with
  | nil => cases h
  | cons e rest ih =>
    by_cases hrest : id ∈ targetNames rest
    · obtain ⟨front, x, tail, rfl, htail⟩ := ih hrest
      exact ⟨e :: front, x, tail, rfl, htail⟩
    · cases e with
      | name x other =>
        rw [targetNames_name, List.mem_cons] at h
        obtain rfl := h.resolve_right hrest
        exact ⟨[], x, rest, rfl, hrest⟩
      | _ => exact absurd h hrest

/-! ## Names that are left alone -/

section Frame

variable {env env' : Env} {statement : Nat} {id : String}

theorem get?_of_bindTargets_of_not_mem {value : Expr}
    (h : bindTargets value statement target targets env = .ok env')
    (hid : id ∉ targetNames targets) :
    env'.get? id = env.get? id := by
  have hagree : Agree [id] env env' := by
    refine agree_bindTargets h fun x other hother hsame => ?_
    obtain rfl := List.mem_singleton.mp hsame
    exact hid (mem_targetNames_of_mem hother)
  exact (hagree id (List.mem_singleton_self id)).symm

theorem get?_of_updateAll_of_not_mem {stmts : List Stmt}
    (h : updateAll env statement stmts = .ok env')
    (hid : ∀ s ∈ stmts, id ∉ rebinds s) : env'.get? id = env.get? id := by
  have hagree : Agree [id] env env' := by
    refine agree_updateAll h fun s hs other hother hsame => ?_
    obtain rfl := List.mem_singleton.mp hsame
    exact hid s hs hother
  exact (hagree id (List.mem_singleton_self id)).symm

theorem get?_of_update_of_not_mem {s : Stmt} (h : update env statement s = .ok env')
    (hid : id ∉ rebinds s) :
    env'.get? id = env.get? id := by
  have hone : updateAll env statement [s] = .ok env' := by
    rw [updateAll, h]
    rfl
  exact get?_of_updateAll_of_not_mem hone (by simpa using hid)

end Frame

/-! ## Binding -/

section Binding

variable {env env' : Env} {value : Expr} {statement : Nat}

/-- A name is bound to the value of the expression, or forgotten if there is none. -/
theorem get?_of_bind {way : List Nat} {name : String} (h : bind env way name value = .ok env') :
    env'.get? name = (eval env way value).toOption := by
  unfold bind at h
  split at h
  · next v hv =>
    cases h
    rw [hv, Fields.get?_insert, if_pos rfl]
    rfl
  · next r hr =>
    cases h
    rw [hr, Fields.get?_erase_self]
    rfl
  · cases h

theorem bindTargets_append (target : Nat) (front rest : List Expr) (env : Env) :
    bindTargets value statement target (front ++ rest) env =
      bindTargets value statement target front env >>=
        bindTargets value statement (target + front.length) rest := by
  induction front generalizing target env with
  | nil => rfl
  | cons e front ih =>
    have hplace : target + (front.length + 1) = target + 1 + front.length := by omega
    rw [List.length_cons, hplace, List.cons_append]
    cases e with
    | name x id =>
      rw [bindTargets, bindTargets]
      cases bind env (targetWay statement target) id value with
      | error f => rfl
      | ok mid => exact ih (target + 1) mid
    | _ => exact ih (target + 1) env

/-- **The step.** A target has the value of the expression in the environment that the targets in
front of it leave, unless it is bound once more behind them. -/
theorem get?_of_bindTargets {front rest : List Expr} {id : String}
    (h : bindTargets value statement target (front ++ .name x id :: rest) env = .ok env')
    (hid : id ∉ targetNames rest) :
    ∃ mid, bindTargets value statement target front env = .ok mid ∧
      env'.get? id = (eval mid (targetWay statement (target + front.length)) value).toOption := by
  rw [bindTargets_append] at h
  obtain ⟨mid, hmid, h⟩ := bind_eq_ok.mp h
  obtain ⟨after, hafter, h⟩ := bind_eq_ok.mp h
  -- the targets behind it bind other names
  have hrest : env'.get? id = after.get? id := get?_of_bindTargets_of_not_mem h hid
  exact ⟨mid, hmid, hrest.trans (get?_of_bind hafter)⟩

/-- Targets that are no names bind nothing. -/
theorem bindTargets_of_targetNames_nil (h : targetNames targets = []) :
    bindTargets value statement target targets env = .ok env := by
  induction targets generalizing target with
  | nil => rfl
  | cons e rest ih =>
    cases e with
    | name x id => cases h
    | _ => exact ih h

/-- **The run.** An expression that has a value is evaluated to it for every target, as long as no
target but the last one is a name in it. -/
theorem exists_bindTargets {origin : Env} {v : Nat → Value}
    (hv : ∀ k, eval origin (targetWay statement k) value = .ok (v k))
    (hquiet : ∀ id ∈ (targetNames targets).dropLast, id ∉ reads value)
    (hagree : Agree (reads value) origin env) :
    ∃ env', bindTargets value statement target targets env = .ok env' := by
  induction targets generalizing target env with
  | nil => exact ⟨env, rfl⟩
  | cons e rest ih =>
    cases e with
    | name x id =>
      have heval : eval env (targetWay statement target) value = .ok (v target) := by
        rw [← eval_congr _ value hagree, hv]
      have hbind : bind env (targetWay statement target) id value =
          .ok (env.insert id (v target)) := by
        rw [bind, heval]
      rw [bindTargets, hbind]
      -- the last name may be read: nothing is evaluated behind it
      by_cases hrest : targetNames rest = []
      · exact ⟨_, bindTargets_of_targetNames_nil hrest⟩
      · rw [targetNames_name, List.dropLast_cons_of_ne_nil hrest, List.forall_mem_cons] at hquiet
        exact ih hquiet.2 (hagree.trans (agree_insert hquiet.1))
    | _ => exact ih hquiet hagree

/-- The targets in front of the last one leave the names alone that they do not bind. -/
theorem agree_front {front rest : List Expr} {id : String} {mid : Env} {names : List String}
    (h : bindTargets value statement 0 front env = .ok mid)
    (hquiet : ∀ other ∈ (targetNames (front ++ .name x id :: rest)).dropLast, other ∉ names) :
    Agree names env mid := by
  refine agree_bindTargets h fun y other hother => hquiet other ?_
  rw [targetNames_append, targetNames_name, List.dropLast_append_of_ne_nil (List.cons_ne_nil _ _)]
  exact List.mem_append_left _ (mem_targetNames_of_mem hother)

end Binding

/-! ## Whole statements -/

/-- **The targets of an assignment are bound in turn.** Let `v k` be the value that the expression
has before the statement, evaluated for the target at place `k`. The place matters only for the
origin of results that are no numbers. -/
theorem targets_bound_in_turn {env : Env} {statement : Nat} {x : Extent} {targets : List Expr}
    {value : Expr}
    {v : Nat → Value} (hv : ∀ k, eval env (targetWay statement k) value = .ok (v k)) :
    (∀ env', update env statement (.assign x targets value) = .ok env' →
      (∀ id ∉ targetNames targets, env'.get? id = env.get? id) ∧
      ∀ front y id rest, targets = front ++ .name y id :: rest → id ∉ targetNames rest →
        ∃ mid, bindTargets value statement 0 front env = .ok mid ∧
          env'.get? id = (eval mid (targetWay statement front.length) value).toOption ∧
          (Agree (reads value) env mid → env'.get? id = some (v front.length))) ∧
    ((∀ id ∈ (targetNames targets).dropLast, id ∉ reads value) →
      ∃ env', update env statement (.assign x targets value) = .ok env' ∧
        (∀ id ∉ targetNames targets, env'.get? id = env.get? id) ∧
        ∀ front y id rest, targets = front ++ .name y id :: rest → id ∉ targetNames rest →
          env'.get? id = some (v front.length)) := by
  have hturn : ∀ env', update env statement (.assign x targets value) = .ok env' →
      ∀ front y id rest, targets = front ++ .name y id :: rest → id ∉ targetNames rest →
        ∃ mid, bindTargets value statement 0 front env = .ok mid ∧
          env'.get? id = (eval mid (targetWay statement front.length) value).toOption ∧
          (Agree (reads value) env mid → env'.get? id = some (v front.length)) := by
    rintro env' h front y id rest rfl hid
    obtain ⟨mid, hmid, hget⟩ := get?_of_bindTargets h hid
    rw [Nat.zero_add] at hget
    refine ⟨mid, hmid, hget, fun hagree => ?_⟩
    rw [hget, ← eval_congr _ value hagree, hv]
    rfl
  refine ⟨fun env' h => ⟨fun id => get?_of_update_of_not_mem h, hturn env' h⟩, fun hquiet => ?_⟩
  -- where no name that is read changes, there is an outcome, and the first part applies to it
  obtain ⟨env', h⟩ : ∃ env', update env statement (.assign x targets value) = .ok env' :=
    exists_bindTargets hv hquiet agree_refl
  refine ⟨env', h, fun id => get?_of_update_of_not_mem h, fun front y id rest htargets hid => ?_⟩
  obtain ⟨mid, hmid, -, hvalue⟩ := hturn env' h front y id rest htargets hid
  exact hvalue (agree_front hmid (htargets ▸ hquiet))

section Examples

/-- A name that stands nowhere in particular. -/
def nameOnly (id : String) : Expr :=
  .name ⟨⟨0, 0⟩, ⟨0, 0⟩⟩ id

/-- A name combined with a number. -/
def nameAnd (id : String) (op : BinaryOp) (n : Nat) : Expr :=
  .binary ⟨⟨0, 0⟩, ⟨0, 0⟩⟩ (nameOnly id) op (.constant ⟨⟨0, 0⟩, ⟨0, 0⟩⟩ (.int n))

/-- An assignment that stands nowhere in particular. -/
def assignOnly (targets : List Expr) (value : Expr) : Stmt :=
  .assign ⟨⟨0, 0⟩, ⟨0, 0⟩⟩ targets value

/-- `A`, `(B, C)` and `X` as targets. -/
def threeTargets : List Expr :=
  [nameOnly "A", .tuple ⟨⟨0, 0⟩, ⟨0, 0⟩⟩ [nameOnly "B", nameOnly "C"], nameOnly "X"]

/-- `A = (B, C) = X = X * 2` where `X` is 3: the name in the expression is the last target. -/
theorem targets_bound_in_turn_lastRead :
    (∀ k, eval [("X", .int 3)] (targetWay 1 k) (nameAnd "X" .mult 2) = .ok (.int 6)) ∧
    ∃ env', update [("X", .int 3)] 1 (assignOnly threeTargets (nameAnd "X" .mult 2)) = .ok env' ∧
      env'.get? "A" = some (.int 6) ∧ env'.get? "X" = some (.int 6) ∧ env'.get? "B" = none := by
  have hv : ∀ k, eval [("X", .int 3)] (targetWay 1 k) (nameAnd "X" .mult 2) = .ok (.int 6) :=
    fun k => rfl
  have hquiet : ∀ id ∈ (targetNames threeTargets).dropLast, id ∉
      reads (nameAnd "X" .mult 2) := by decide
  obtain ⟨env', h, hothers, htargets⟩ := (targets_bound_in_turn hv).2 hquiet
  refine ⟨hv, env', h, htargets [] _ "A" _ rfl (by decide),
    htargets [_, _] _ "X" [] rfl (by decide), ?_⟩
  exact hothers "B" (by decide)

/-- `X = Y = X + 1` where `X` is 1: the second target sees the first. -/
theorem second_target_sees_first :
    (∀ k, eval [("X", .int 1)] (targetWay 1 k) (nameAnd "X" .add 1) = .ok (.int 2)) ∧
    update [("X", .int 1)] 1 (assignOnly [nameOnly "X", nameOnly "Y"] (nameAnd "X" .add 1)) =
      .ok [("X", .int 2), ("Y", .int 3)] :=
  ⟨fun _ => rfl, rfl⟩

end Examples

end Addon.Static
