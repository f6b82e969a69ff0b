import Addon.Config
import Addon.Proofs.Script.Statement
import Addon.Proofs.Static.LastBinding

/-!
# Config — which constants a configuration is evaluated with

A script can assign its configuration more than once, and then the last assignment counts. The
expression is evaluated with the constants at the end of the script. They are not those at the
assignment: a constant that is bound again behind it counts with its later value, and so does the
name of the configuration itself.

## The architecture

* **`AssignsConfig`** — a statement assigns an expression to a name of the configuration.
* **`Chosen`** — the last such statement of a script, with what stands before and behind it.
* **`expression?_append_of_assigns`**, **`expression?_append_of_not_assigns`** — the step: what one
  more statement does to the expression that is chosen.
* **`expression?_eq_some_iff`** — the run: by induction on the script from its end, the
  expression is the chosen one.
* **`evalIn_congr_of_environment`** — where the expression reads no name that is bound from the
  assignment on, the constants at the assignment give the same value as those at the end.
-/

namespace Addon.Config

open Script

/-! ## The statement that counts -/

/-- A statement assigns an expression to a name of the configuration. -/
def AssignsConfig (s : Stmt) (e : Expr) : Prop :=
  ∃ name ∈ configNames, assigned? s = some (name, e)

/-- The last statement of a script that assigns a configuration. -/
structure Chosen (body before : List Stmt) (s : Stmt) (after : List Stmt) (e : Expr) : Prop where
  split : body = before ++ s :: after
  assigns : AssignsConfig s e
  last : ∀ t ∈ after, ∀ other, ¬ AssignsConfig t other

section Choice

variable {body init : List Stmt} {s : Stmt} {e : Expr}

/-- **The step.** A statement that assigns a configuration takes the place of those before it. -/
theorem expression?_append_of_assigns (hs : AssignsConfig s e) :
    expression? ⟨init ++ [s]⟩ = some e := by
  obtain ⟨name, hname, hassigned⟩ := hs
  have hcontains : configNames.contains name = true := List.contains_iff_mem.mpr hname
  simp only [expression?, List.filterMap_append, List.filterMap_cons, hassigned, hcontains, if_true,
    List.filterMap_nil, List.getLast?_concat]

/-- **The step.** Any other statement leaves the expression as it is. -/
theorem expression?_append_of_not_assigns (hs : ∀ e, ¬ AssignsConfig s e) :
    expression? ⟨init ++ [s]⟩ = expression? ⟨init⟩ := by
  cases hassigned : assigned? s with
  | none =>
    simp only [expression?, List.filterMap_append, List.filterMap_cons, hassigned,
      List.filterMap_nil, List.append_nil]
  | some assigned =>
    obtain ⟨name, e⟩ := assigned
    have hcontains : configNames.contains name = false := by
      rw [Bool.eq_false_iff, ne_eq, List.contains_iff_mem]
      exact fun hname => hs e ⟨name, hname, hassigned⟩
    simp only [expression?, List.filterMap_append, List.filterMap_cons, hassigned, hcontains,
      Bool.false_eq_true, if_false, List.filterMap_nil, List.append_nil]

/-- **The run.** The expression of a script is that of the last statement which
assigns a configuration. -/
theorem expression?_eq_some_iff :
    expression? ⟨body⟩ = some e ↔ ∃ before s after, Chosen body before s after e := by
  constructor
  · intro h
    induction body using List.reverseRecOn with
    | nil => cases h
    | append_singleton init s ih =>
      -- the last statement assigns the configuration, or an earlier one does
      by_cases hs : ∃ other, AssignsConfig s other
      · obtain ⟨other, hs⟩ := hs
        rw [expression?_append_of_assigns hs] at h
        cases h
        exact ⟨init, s, [], rfl, hs, by simp⟩
      · rw [not_exists] at hs
        rw [expression?_append_of_not_assigns hs] at h
        obtain ⟨before, t, after, hsplit, ht, hlast⟩ := ih h
        refine ⟨before, t, after ++ [s], by simp [hsplit], ht, ?_⟩
        simpa [or_imp, forall_and] using ⟨hlast, hs⟩
  · rintro ⟨before, s, after, rfl, hs, hlast⟩
    -- the statements behind it fall away one by one, from the end
    induction after using List.reverseRecOn with
    | nil => exact expression?_append_of_assigns hs
    | append_singleton after t ih =>
      rw [← List.cons_append, ← List.append_assoc,
        expression?_append_of_not_assigns (hlast t (by simp))]
      exact ih fun u hu => hlast u (List.mem_append_left _ hu)

end Choice

/-! ## The value of the configuration -/

section Value

variable {source : String} {w : Value}

/-- A script is accepted when it assigns a configuration that has a value at its end. -/
theorem ofScript_eq_ok_iff : ofScript source = .ok w ↔ ∃ m env e v, parseModule source = .ok m ∧
    Static.environment m = .ok env ∧ expression? m = some e ∧ Static.evalIn env e = .ok v ∧
    v.safe = w := by
  unfold ofScript
  simp only [bind_eq_ok, Attempt.ofParse_eq_ok, Attempt.ofValue_eq_ok]
  constructor
  · rintro ⟨m, hm, env, henv, h⟩
    split at h
    · cases h
    · next e he =>
      split at h
      · next v hv => exact ⟨m, env, e, v, hm, henv, he, hv, Except.ok.inj h⟩
      · exact absurd h complain_ne_ok
      · cases h
  · rintro ⟨m, env, e, v, hm, henv, he, hv, rfl⟩
    refine ⟨m, hm, env, henv, ?_⟩
    simp only [he, hv]
    rfl

/-- An expression has the same value at a statement and at the end, unless it reads a name that is
bound or forgotten from the statement on. -/
theorem evalIn_congr_of_environment {before rest : List Stmt} {mid env : Static.Env} {e : Expr}
    (hmid : Static.environment ⟨before⟩ = .ok mid)
    (henv : Static.environment ⟨before ++ rest⟩ = .ok env)
    (hquiet : ∀ t ∈ rest, ∀ id ∈ Static.rebinds t, id ∉ Static.reads e) :
    Static.evalIn mid e = Static.evalIn env e :=
  Static.eval_congr [1] e <|
    Static.agree_environment (List.append_nil before).symm rfl hmid henv hquiet

/-- **The configuration is the last one that is assigned, evaluated with the constants at the end of
the script.** Those at the assignment give the same value where the expression reads no name that is
bound or forgotten from the assignment on. -/
theorem config_evaluated_at_end :
    ofScript source = .ok w ↔ ∃ m before s after e mid env v, parseModule source = .ok m ∧
      Chosen m.body before s after e ∧ Static.environment ⟨before⟩ = .ok mid ∧
      Static.environment m = .ok env ∧ Static.evalIn env e = .ok v ∧ v.safe = w ∧
      ((∀ t ∈ s :: after, ∀ id ∈ Static.rebinds t, id ∉ Static.reads e) →
        Static.evalIn mid e = .ok v) := by
  rw [ofScript_eq_ok_iff]
  constructor
  · rintro ⟨m, env, e, v, hm, henv, he, hv, hw⟩
    obtain ⟨before, s, after, hchosen⟩ := expression?_eq_some_iff.mp he
    have hbody : m = ⟨before ++ s :: after⟩ := congrArg Script.Module.mk hchosen.split
    -- the constants at the assignment exist, since those at the end do
    obtain ⟨mid, -, hmid, -⟩ := Static.environment_eq_ok_iff.mp (hbody ▸ henv)
    refine ⟨m, before, s, after, e, mid, env, v, hm, hchosen, hmid, henv, hv, hw, fun hquiet => ?_⟩
    rw [evalIn_congr_of_environment hmid (hbody ▸ henv) hquiet, hv]
  · rintro ⟨m, before, s, after, e, -, env, v, hm, hchosen, -, henv, hv, hw, -⟩
    exact ⟨m, env, e, v, hm, henv, expression?_eq_some_iff.mpr ⟨before, s, after, hchosen⟩, hv, hw⟩

end Value

/-! ### Constants that are bound from the configuration on -/

section Examples

/-- A line on which an expression is assigned to a name. -/
def lineStmt (line width : Nat) (id : String) (e : Expr) : Stmt :=
  .assign ⟨⟨line, 0⟩, e.extent.stop⟩ [.name ⟨⟨line, 0⟩, ⟨line, width⟩⟩ id] e

/-- A line on which a digit is assigned to a name. -/
def digitStmt (line width : Nat) (id : String) (n : Nat) : Stmt :=
  lineStmt line width id (.constant ⟨⟨line, width + 1⟩, ⟨line, width + 2⟩⟩ (.int n))

/-- The tokens of a line on which an expression, given by its tokens, is assigned to a name. -/
def lineTokens (line width : Nat) (id : String) (expr : List Token) (stop : Nat) : List Token :=
  tokenAt line 0 width (.name id true) :: tokenAt line width 1 (.op "=") ::
    (expr ++ [tokenAt line stop 0 .newline])

/-- The tokens of a line on which a digit is assigned to a name. -/
def digitTokens (line width : Nat) (id : String) (n : Nat) : List Token :=
  lineTokens line width id [tokenAt line (width + 1) 1 (.number (.int n))] (width + 2)

/-- The configuration is a constant, which is bound again behind it. -/
def reboundBehind : String :=
  "v=1\nconfig=v\nv=2\n"

/-- The configuration is computed from the one before it. -/
def computedAnew : String :=
  "config=1\nconfig=-config\n"

theorem parseModule_reboundBehind : parseModule reboundBehind = .ok
    ⟨[digitStmt 1 1 "v" 1, lineStmt 2 6 "config" (.name ⟨⟨2, 7⟩, ⟨2, 8⟩⟩ "v"),
      digitStmt 3 1 "v" 2]⟩ :=
  parseModule_of_tokens
    (digitTokens 1 1 "v" 1 ++ (lineTokens 2 6 "config" [tokenAt 2 7 1 (.name "v" true)] 8 ++
      (digitTokens 3 1 "v" 2 ++ [tokenAt 4 0 0 .finish])))
    (by decide +kernel) (by rfl)

theorem parseModule_computedAnew : parseModule computedAnew = .ok
    ⟨[digitStmt 1 6 "config" 1, lineStmt 2 6 "config"
      (.unary ⟨⟨2, 7⟩, ⟨2, 14⟩⟩ .minus (.name ⟨⟨2, 8⟩, ⟨2, 14⟩⟩ "config"))]⟩ :=
  parseModule_of_tokens
    (digitTokens 1 6 "config" 1 ++
      (lineTokens 2 6 "config" [tokenAt 2 7 1 (.op "-"), tokenAt 2 8 6 (.name "config" true)] 14 ++
        [tokenAt 3 0 0 .finish]))
    (by decide +kernel) (by rfl)

/-- The constants at the assignment and those at the end give different configurations. A later
statement can make the difference, and so can the assignment itself. -/
theorem config_sees_later_constants :
    (ofScript reboundBehind = .ok (.int 2) ∧ ∃ m before s after e mid,
      parseModule reboundBehind = .ok m ∧
      Chosen m.body before s after e ∧ Static.environment ⟨before⟩ = .ok mid ∧
      Static.evalIn mid e = .ok (.int 1)) ∧
    ofScript computedAnew = .ok (.int 1) ∧ ∃ m before s after e mid,
      parseModule computedAnew = .ok m ∧
      Chosen m.body before s after e ∧ Static.environment ⟨before⟩ = .ok mid ∧
      Static.evalIn mid e = .ok (.int (-1)) := by
  refine ⟨⟨?_, ?_⟩, ?_, ?_⟩
  · exact ofScript_eq_ok_iff.mpr ⟨_, _, _, _, parseModule_reboundBehind, rfl, rfl, rfl, rfl⟩
  · refine ⟨_, [digitStmt 1 1 "v" 1], _, [digitStmt 3 1 "v" 2], _, _, parseModule_reboundBehind,
      ⟨rfl, ⟨"config", by decide, rfl⟩, ?_⟩, rfl, rfl⟩
    simp [AssignsConfig, assigned?, digitStmt, lineStmt, configNames]
  · exact ofScript_eq_ok_iff.mpr ⟨_, _, _, _, parseModule_computedAnew, rfl, rfl, rfl, rfl⟩
  · refine ⟨_, [digitStmt 1 6 "config" 1], _, [], _, _, parseModule_computedAnew,
      ⟨rfl, ⟨"config", by decide, rfl⟩, by simp⟩, rfl, rfl⟩

end Examples

end Addon.Config
