import Addon.Proofs.Attempt
import Addon.Proofs.Fields
import Addon.Static.Environment

/-!
# Constants — what an evaluation sees of its environment

An evaluation looks up the names in its expression and nothing else. So two environments that agree
on those names give the same value, and statements that bind other names can be added to a module
without a change to it. A name without a value is never skipped over: where there is a value,
further constants do not change it.

## The architecture

* **`reads`** — the names that the evaluation of an expression can come to.
* **`Agree`** — two environments have the same values for some names.
* **`eval_lifts`** — two runs of an evaluation, by mutual induction along it: a relation that passes
  through chains of steps holds of the results if it holds of what is found under the names.
* **`eval_congr`**, **`eval_of_extends`** — the two relations: the results are equal; a value of the
  first is one of the second.
* **`rebinds`**, **`agree_updateAll`** — the names that a statement can bind or forget; a run of
  statements leaves all others alone.
-/

namespace Addon.Static

open Script

/-! ## Names in expressions -/

mutual

/-- The names that the evaluation of an expression can look up. That of a called function is none of
them. -/
def reads : Expr → List String
  | .name _ id => [id]
  | .list _ items | .tuple _ items | .boolOp _ _ items | .joined _ items => readsAll items
  | .dict _ items => readsEntries items
  | .unary _ _ operand => reads operand
  | .binary _ left _ right => reads left ++ reads right
  | .compare _ left rest => reads left ++ readsComparisons rest
  | .ifExp _ test body orElse => reads test ++ (reads body ++ reads orElse)
  | .subscript _ value index => reads value ++ reads index
  | .call _ _ args keywords => readsAll args ++ readsKeywords keywords
  | .formatted _ value _ none => reads value
  | .formatted _ value _ (some spec) => reads value ++ reads spec
  | _ => []

def readsAll : List Expr → List String
  | [] => []
  | e :: rest => reads e ++ readsAll rest

def readsEntries : List DictItem → List String
  | [] => []
  | ⟨none, value⟩ :: rest => reads value ++ readsEntries rest
  | ⟨some key, value⟩ :: rest => reads key ++ (reads value ++ readsEntries rest)

def readsComparisons : List Comparison → List String
  | [] => []
  | ⟨_, right⟩ :: rest => reads right ++ readsComparisons rest

def readsKeywords : List Keyword → List String
  | [] => []
  | ⟨_, value⟩ :: rest => reads value ++ readsKeywords rest

end

/-! ## Agreement -/

/-- Two environments have the same values for some names. -/
def Agree (names : List String) (env env' : Env) : Prop :=
  ∀ id ∈ names, env.get? id = env'.get? id

section Agree

variable {names others : List String} {env env' : Env}

theorem Agree.mono (h : Agree others env env') (hsub : names ⊆ others) : Agree names env env' :=
  fun id hid => h id (hsub hid)

theorem agree_refl : Agree names env env :=
  fun _ _ => rfl

theorem Agree.symm (h : Agree names env env') : Agree names env' env :=
  fun id hid => (h id hid).symm

theorem Agree.trans {env'' : Env} (h : Agree names env env') (h' : Agree names env' env'') :
    Agree names env env'' :=
  fun id hid => (h id hid).trans (h' id hid)

theorem agree_append : Agree (names ++ others) env env' ↔ Agree names env env' ∧
    Agree others env env' :=
  List.forall_mem_append

end Agree

/-! ## Evaluation

Two runs of an evaluation differ only in what they find under the names in the expression. Whatever
relates the two findings, and passes through chains of steps, relates the two results. Equality
does, and so does persistence. -/

/-- What an evaluation finds under a name. -/
def found (env : Env) (id : String) : Eval Value :=
  match env.get? id with
  | some v => .ok v
  | none => refuse (.unknownName id)

/-- A relation between two runs that passes through chains of steps. -/
structure Lifts (R : ∀ α : Type, Eval α → Eval α → Prop) : Prop where
  refl {α : Type} (x : Eval α) : R α x x
  bind {α β : Type} {x y : Eval α} {f g : α → Eval β} (hx : R α x y) (hf : ∀ a, R β (f a) (g a)) :
    R β (x >>= f) (y >>= g)

section Lifts

variable {R : ∀ α : Type, Eval α → Eval α → Prop} {env env' : Env}

/-- What is found under some names is related. -/
def FoundAlike (R : ∀ α : Type, Eval α → Eval α → Prop) (env env' : Env) (names : List String) :
    Prop :=
  ∀ id ∈ names, R Value (found env id) (found env' id)

theorem foundAlike_append {names others : List String} : FoundAlike R env env' (names ++ others) ↔
    FoundAlike R env env' names ∧ FoundAlike R env env' others :=
  List.forall_mem_append

mutual

/-- **Two runs of an evaluation**, by mutual induction along it. -/
theorem eval_lifts (hR : Lifts R) (way : List Nat) (e : Expr)
    (h : FoundAlike R env env' (reads e)) :
    R Value (eval env way e) (eval env' way e) := by
  revert h
  unfold eval
  -- both runs take the same branch, since it depends on the form of the expression alone
  split <;> intro h
  · exact hR.refl _
  · exact h _ (List.mem_singleton.mpr rfl)
  · exact hR.bind (evalItems_lifts hR way 0 _ h) fun _ => hR.refl _
  · exact hR.bind (evalItems_lifts hR way 0 _ h) fun _ => hR.refl _
  · exact hR.bind (evalEntries_lifts hR way 0 _ [] h) fun _ => hR.refl _
  · exact hR.bind (evalParts_lifts hR way 0 _ h) fun _ => hR.refl _
  · exact hR.bind (eval_lifts hR _ _ h) fun _ => hR.refl _
  · rw [reads, foundAlike_append] at h
    exact hR.bind (eval_lifts hR _ _ h.1) fun _ => hR.bind (eval_lifts hR _ _ h.2) fun _ =>
      hR.refl _
  · exact hR.refl _
  · rw [reads, readsAll, foundAlike_append] at h
    exact hR.bind (eval_lifts hR _ _ h.1) fun v => evalChain_lifts hR way 1 _ v _ h.2
  · rw [reads, readsComparisons, foundAlike_append, foundAlike_append] at h
    exact hR.bind (eval_lifts hR _ _ h.1) fun _ => hR.bind (eval_lifts hR _ _ h.2.1) fun _ =>
      hR.refl _
  · exact hR.refl _
  · rw [reads, foundAlike_append, foundAlike_append] at h
    refine hR.bind (eval_lifts hR _ _ h.1) fun v => ?_
    split
    · exact eval_lifts hR _ _ h.2.1
    · exact eval_lifts hR _ _ h.2.2
  · rw [reads, foundAlike_append] at h
    exact hR.bind (eval_lifts hR _ _ h.1) fun _ => hR.bind (eval_lifts hR _ _ h.2) fun _ =>
      hR.refl _
  · rw [reads, foundAlike_append] at h
    exact hR.bind (evalItems_lifts hR way 0 _ h.1) fun _ => hR.refl _
  · exact hR.refl _
  · exact hR.refl _
termination_by sizeOf e
decreasing_by all_goals grind

theorem evalItems_lifts (hR : Lifts R) (way : List Nat) (place : Nat) (items : List Expr)
    (h : FoundAlike R env env' (readsAll items)) :
    R (List Value) (evalItems env way place items) (evalItems env' way place items) := by
  revert h
  unfold evalItems
  split <;> simp only [readsAll, foundAlike_append] <;> intro h
  · exact hR.refl _
  · exact hR.bind (eval_lifts hR _ _ h.1) fun _ => hR.bind (evalItems_lifts hR way _ _ h.2) fun _ =>
      hR.refl _
termination_by sizeOf items
decreasing_by all_goals grind

theorem evalEntries_lifts (hR : Lifts R) (way : List Nat) (place : Nat) (items : List DictItem)
    (fields : Fields Value) (h : FoundAlike R env env' (readsEntries items)) :
    R (Fields Value) (evalEntries env way place items fields)
      (evalEntries env' way place items fields) := by
  revert h
  unfold evalEntries
  split <;> simp only [readsEntries, foundAlike_append] <;> intro h
  · exact hR.refl _
  · refine hR.bind (eval_lifts hR _ _ h.1) fun v => ?_
    split
    · exact evalEntries_lifts hR way _ _ _ h.2
    · exact hR.refl _
  · refine hR.bind (eval_lifts hR _ _ h.1) fun k => ?_
    split
    · exact hR.bind (eval_lifts hR _ _ h.2.1) fun _ => evalEntries_lifts hR way _ _ _ h.2.2
    · exact hR.refl _
termination_by sizeOf items
decreasing_by all_goals grind

theorem evalChain_lifts (hR : Lifts R) (way : List Nat) (place : Nat) (op : BoolOp) (v : Value)
    (es : List Expr) (h : FoundAlike R env env' (readsAll es)) :
    R Value (evalChain env way place op v es) (evalChain env' way place op v es) := by
  revert h
  unfold evalChain
  split <;> simp only [readsAll, foundAlike_append] <;> intro h
  · exact hR.refl _
  · split
    · exact hR.refl _
    · exact hR.bind (eval_lifts hR _ _ h.1) fun w => evalChain_lifts hR way _ op w _ h.2
termination_by sizeOf es
decreasing_by all_goals grind

theorem evalParts_lifts (hR : Lifts R) (way : List Nat) (place : Nat) (parts : List Expr)
    (h : FoundAlike R env env' (readsAll parts)) :
    R (List String) (evalParts env way place parts) (evalParts env' way place parts) := by
  revert h
  unfold evalParts
  split <;> simp only [readsAll, reads, foundAlike_append] <;> intro h
  · exact hR.refl _
  · exact hR.bind (evalParts_lifts hR way _ _ h.2) fun _ => hR.refl _
  · exact hR.bind (eval_lifts hR _ _ h.1) fun _ => hR.bind (hR.refl _) fun _ =>
      hR.bind (evalParts_lifts hR way _ _ h.2) fun _ => hR.refl _
  · exact hR.bind (eval_lifts hR _ _ h.1.1) fun _ => hR.bind (eval_lifts hR _ _ h.1.2) fun _ =>
      hR.bind (hR.refl _) fun _ => hR.bind (hR.refl _) fun _ =>
        hR.bind (evalParts_lifts hR way _ _ h.2) fun _ => hR.refl _
  · exact hR.refl _
termination_by sizeOf parts
decreasing_by all_goals grind

end

end Lifts

/-- The value of an expression is the same in environments that agree on the names in it. -/
theorem eval_congr {env env' : Env} (way : List Nat) (e : Expr) (h : Agree (reads e) env env') :
    eval env way e = eval env' way e := by
  have hlifts : Lifts fun _ x y => x = y := ⟨fun _ => rfl, fun hx hf => by rw [hx, funext hf]⟩
  refine eval_lifts hlifts way e fun id hid => ?_
  rw [found, found, h id hid]

/-- The second environment has all constants of the first, with the same values. -/
def Extends (env env' : Env) : Prop :=
  ∀ id v, env.get? id = some v → env'.get? id = some v

/-- The value of an expression is the same in every environment that extends
the one it was found in. -/
theorem eval_of_extends {env env' : Env} {way : List Nat} {e : Expr} {v : Value}
    (h : Extends env env') (hv : eval env way e = .ok v) : eval env' way e = .ok v := by
  have hlifts : Lifts fun _ x y => ∀ a, x = .ok a → y = .ok a := by
    refine ⟨fun _ _ => id, fun hx hf b hb => ?_⟩
    obtain ⟨a, ha, hb⟩ := bind_eq_ok.mp hb
    exact bind_eq_ok.mpr ⟨a, hx a ha, hf a b hb⟩
  refine eval_lifts hlifts way e (fun id _ w hw => ?_) v hv
  unfold found at hw ⊢
  split at hw
  · next w' hget => rwa [h id w' hget]
  · cases hw

/-- **An evaluation sees the constants that its expression names, and nothing else.** Environments
that agree on these names give the same value, or the same error. An environment that extends
another one gives the values that the first one gives. -/
theorem evaluation_sees_named_constants (way : List Nat) (e : Expr) :
    (∀ env env', Agree (reads e) env env' → eval env way e = eval env' way e) ∧
    ∀ env env', Extends env env' → ∀ v, eval env way e = .ok v → eval env' way e = .ok v :=
  ⟨fun _ _ => eval_congr way e, fun _ _ h _ => eval_of_extends h⟩

/-- The choice between a conversion and a name: `bool(x) if x else y`. -/
def convertedOrNamed : Expr :=
  .ifExp default (.name default "x") (.call default (.name default "bool") [.name default "x"] [])
    (.name default "y")

/-- The name of the conversion is not looked up. That of the branch which is not taken may be
unknown; when it is known, the value is the same. -/
theorem evaluation_sees_named_constants_branch :
    eval [("x", .int 1)] [] convertedOrNamed =
      eval [("bool", .null), ("x", .int 1)] [] convertedOrNamed ∧
    eval [("x", .int 1)] [] convertedOrNamed = .ok (.bool true) ∧
    eval [("y", .null), ("x", .int 1)] [] convertedOrNamed = .ok (.bool true) := by
  obtain ⟨hsame, hmore⟩ := evaluation_sees_named_constants [] convertedOrNamed
  have hone : eval [("x", .int 1)] [] convertedOrNamed = .ok (.bool true) := by rfl
  refine ⟨hsame _ _ ?_, hone, hmore _ _ ?_ _ hone⟩
  · simp [Agree, convertedOrNamed, reads, readsAll, readsKeywords, Fields.get?]
  · simp [Extends, Fields.get?]

/-! ## Statements -/

/-- The names that a statement at the top of a module binds or forgets. -/
def rebinds : Stmt → List String
  | .assign _ targets _ => targets.filterMap fun
    | .name _ id => some id
    | _ => none
  | .annAssign _ (.name _ id) .. => [id]
  | .functionDef _ _ name .. => [name]
  | .classDef _ name .. => [name]
  | _ => []

section Statements

variable {names : List String} {env env' : Env}

theorem agree_insert {name : String} {v : Value} (hname : name ∉ names) :
    Agree names env (env.insert name v) := by
  intro id hid
  have hne : name ≠ id := fun heq => hname (heq ▸ hid)
  rw [Fields.get?_insert, if_neg hne]

theorem agree_erase {name : String} (hname : name ∉ names) : Agree names env (env.erase name) := by
  intro id hid
  have hne : name ≠ id := fun heq => hname (heq ▸ hid)
  rw [Fields.get?_erase_of_ne hne]

theorem agree_bind {way : List Nat} {name : String} {value : Expr}
    (h : bind env way name value = .ok env') (hname : name ∉ names) : Agree names env env' := by
  unfold bind at h
  split at h
  · cases h
    exact agree_insert hname
  · cases h
    exact agree_erase hname
  · cases h

theorem agree_bindTargets {value : Expr} {statement target : Nat} {targets : List Expr}
    (h : bindTargets value statement target targets env = .ok env')
    (htargets : ∀ x id, .name x id ∈ targets → id ∉ names) : Agree names env env' := by
  induction targets generalizing target env with
  | nil =>
    cases h
    exact agree_refl
  | cons e rest ih =>
    have hrest : ∀ x id, .name x id ∈ rest → id ∉ names := fun x id hid =>
      htargets x id (List.mem_cons_of_mem e hid)
    cases e with
    | name x id =>
      obtain ⟨mid, hmid, h⟩ := bind_eq_ok.mp h
      have hfirst : Agree names env mid := agree_bind hmid (htargets x id List.mem_cons_self)
      exact hfirst.trans (ih h hrest)
    -- other targets bind nothing
    | _ => exact ih h hrest

/-- **The step.** A statement leaves the names alone that it does not bind or forget. -/
theorem agree_update {statement : Nat} {s : Stmt} (h : update env statement s = .ok env')
    (hnames : ∀ id ∈ rebinds s, id ∉ names) : Agree names env env' := by
  unfold update at h
  split at h
  · next x targets value =>
    refine agree_bindTargets h fun x id hid => hnames id ?_
    exact List.mem_filterMap.mpr ⟨_, hid, rfl⟩
  · cases h
    exact agree_erase (hnames _ (List.mem_singleton.mpr rfl))
  · exact agree_bind h (hnames _ (List.mem_singleton.mpr rfl))
  · cases h
    exact agree_erase (hnames _ (List.mem_singleton.mpr rfl))
  · cases h
    exact agree_erase (hnames _ (List.mem_singleton.mpr rfl))
  · cases h
    exact agree_refl

/-- **The run** over the statements of a module, by induction on them. -/
theorem agree_updateAll {statement : Nat} {stmts : List Stmt}
    (h : updateAll env statement stmts = .ok env')
    (hnames : ∀ s ∈ stmts, ∀ id ∈ rebinds s, id ∉ names) : Agree names env env' := by
  induction stmts generalizing env statement with
  | nil =>
    cases h
    exact agree_refl
  | cons s rest ih =>
    obtain ⟨mid, hmid, h⟩ := bind_eq_ok.mp h
    have hfirst : Agree names env mid := agree_update hmid (hnames s List.mem_cons_self)
    exact hfirst.trans (ih h fun t ht => hnames t (List.mem_cons_of_mem s ht))

theorem updateAll_append (env : Env) (statement : Nat) (stmts rest : List Stmt) :
    updateAll env statement (stmts ++ rest) =
      updateAll env statement stmts >>= fun env =>
        updateAll env (statement + stmts.length) rest := by
  induction stmts generalizing env statement with
  | nil => rfl
  | cons s stmts ih =>
    rw [List.cons_append, updateAll, updateAll]
    cases update env statement s with
    | error f => rfl
    | ok mid =>
      have hplace : statement + (stmts.length + 1) = statement + 1 + stmts.length := by omega
      rw [List.length_cons, hplace]
      exact ih mid (statement + 1)

/-- **Two modules with the same beginning.** Their environments agree on the names that none of the
other statements binds or forgets. -/
theorem agree_environment {m m' : Module} {beginning rest rest' : List Stmt}
    (hbody : m.body = beginning ++ rest) (hbody' : m'.body = beginning ++ rest')
    (h : environment m = .ok env) (h' : environment m' = .ok env')
    (hnames : ∀ s ∈ rest ++ rest', ∀ id ∈ rebinds s, id ∉ names) : Agree names env env' := by
  rw [environment, hbody, updateAll_append, bind_eq_ok] at h
  rw [environment, hbody', updateAll_append, bind_eq_ok] at h'
  obtain ⟨mid, hmid, h⟩ := h
  obtain ⟨mid', hmid', h'⟩ := h'
  obtain rfl : mid = mid' := Except.ok.inj (hmid.symm.trans hmid')
  have hleft : Agree names mid env :=
    agree_updateAll h fun s hs => hnames s (List.mem_append_left _ hs)
  have hright : Agree names mid env' :=
    agree_updateAll h' fun s hs => hnames s (List.mem_append_right _ hs)
  exact hleft.symm.trans hright

end Statements

end Addon.Static
