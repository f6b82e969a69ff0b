import Mathlib
import Addon.Proofs.Script.Statement
import Addon.Proofs.Value.Faults
import Addon.Static.Environment
import Addon.Static.Options

/-!
# Static evaluation — how it fails

An expression that has no static value is refused. Faults of operations on values are meant to
become refusals too, but each operation guards against some kinds of faults only, so that others
come through: results that are too large, steps of zero, formats that do not fit. They end the
collection of a module's constants and the reading of options as well.

## The architecture

* **`Escapes`** — the faults that can come through, by their causes.
* **`Tame`** — an evaluation fails with a refusal or with one of those.
* **`tame_binary`**, **`tame_compare`**, **`tame_call`** … — one statement for each operation: what
  its guard lets through escapes.
* **`tame_eval`** — the run, by mutual induction along the recursion of the evaluation.
-/

namespace Addon.Static

open Script

/-! ## Guards -/

/-- The faults that may get past the guards: no other fault does. -/
def Escapes (f : Fault) : Prop :=
  f = .overflow ∨ f = .outOfMemory ∨ f = .tooManyDigits ∨ f = .zeroStep ∨
    (∃ kind, f = .noFormat kind) ∨ ∃ g, f = .format g

theorem escapes_overflow : Escapes .overflow := .inl rfl

theorem escapes_outOfMemory : Escapes .outOfMemory := .inr (.inl rfl)

theorem escapes_tooManyDigits : Escapes .tooManyDigits := .inr (.inr (.inl rfl))

theorem escapes_of_isFormatFault {f : Fault} (h : Value.IsFormatFault f) : Escapes f := by
  rcases h with h | h | rfl | rfl | rfl
  · exact .inr (.inr (.inr (.inr (.inr h))))
  · exact .inr (.inr (.inr (.inr (.inl h))))
  · exact escapes_tooManyDigits
  · exact escapes_overflow
  · exact escapes_outOfMemory

/-- Why an evaluation may end early: its expression is refused, or a fault escapes. -/
def Tame : EvalError → Prop
  | .refused _ => True
  | .fault f => Escapes f

theorem tame_refuse {α : Type} (r : Refusal) : FailsOnly Tame (refuse r : Eval α) :=
  failsOnly_error trivial

/-- A guard catches some kinds of faults. All others have to be among those that escape. -/
theorem tame_guarded {α : Type} {caught : List FaultKind} {blame : Fault → Refusal}
    {x : Except Fault α} (h : FailsOnly (fun f => f.kind ∈ caught ∨ Escapes f) x) :
    FailsOnly Tame (guarded caught blame x) := by
  cases x with
  | ok a => exact failsOnly_ok a
  | error f =>
    rw [guarded]
    split
    · exact tame_refuse _
    · next hcaught =>
      have hmem : f.kind ∉ caught := by simpa using hcaught
      exact failsOnly_error ((h f rfl).resolve_left hmem)

theorem tame_unguarded {α : Type} {x : Except Fault α} (h : FailsOnly Escapes x) :
    FailsOnly Tame (unguarded x) :=
  tame_guarded (h.mono fun _ hf => .inr hf)

/-! ## Operations -/

theorem escapes_lift (ints : Int → Int → Int) (floats : Float → Float → Float)
    (a b : Number.Operand) : FailsOnly Escapes (Number.Operand.lift ints floats a b) := by
  refine (Number.Operand.failsOnly_lift ints floats a b).mono ?_
  rintro f rfl
  exact escapes_overflow

theorem tame_sum (v w : Value) : FailsOnly Tame (sum v w) := by
  unfold sum
  split
  · exact failsOnly_ok _
  · exact failsOnly_ok _
  · exact failsOnly_ok _
  · split
    · exact tame_unguarded (escapes_lift _ _ _ _)
    · exact tame_refuse _

/-- Repetition, where the fault of a result that is too long is one that escapes. -/
theorem escapes_repeated {α : Type} {tooLong : Fault} (h : Escapes tooLong) (items : List α)
    (count : Int) : FailsOnly Escapes (Value.repeated tooLong items count) := by
  refine (Value.failsOnly_repeated tooLong items count).mono ?_
  rintro f (rfl | rfl | rfl)
  · exact escapes_overflow
  · exact h
  · exact escapes_outOfMemory

theorem tame_product (v w : Value) : FailsOnly Tame (product v w) := by
  unfold product
  split
  · exact tame_unguarded (escapes_lift _ _ _ _)
  · split
    · refine (tame_unguarded ?_).bind fun _ => failsOnly_ok _
      exact escapes_repeated escapes_outOfMemory _ _
    · refine (tame_unguarded ?_).bind fun _ => failsOnly_ok _
      exact escapes_repeated escapes_overflow _ _
    · exact tame_refuse _

/-- A division by zero is caught, all else that arithmetic ends in escapes. -/
theorem tame_arithmetic (op : BinaryOp) (a b : Number.Operand) :
    FailsOnly Tame (arithmetic op a b) := by
  have hquotient : ∀ f, Number.Operand.IsQuotientFault f → f.kind ∈ [.zeroDivision] ∨
      Escapes f := by
    rintro f (rfl | rfl)
    · exact .inl (by decide)
    · exact .inr escapes_overflow
  have hpower : ∀ f, Number.Operand.IsPowerFault f → f.kind ∈ [.zeroDivision] ∨ Escapes f := by
    rintro f (rfl | rfl | rfl)
    · exact .inl (by decide)
    · exact .inr escapes_overflow
    · exact .inr escapes_outOfMemory
  unfold arithmetic
  dsimp only
  split
  · exact tame_guarded ((escapes_lift _ _ a b).mono fun _ hf => .inr hf)
  · exact tame_guarded ((Number.Operand.failsOnly_div a b).mono hquotient)
  · exact tame_guarded ((Number.Operand.failsOnly_floorDiv a b).mono hquotient)
  · exact tame_guarded ((Number.Operand.failsOnly_mod a b).mono hquotient)
  · exact tame_guarded ((Number.Operand.failsOnly_pow a b).mono hpower)
  · exact tame_refuse _

theorem tame_binary (op : BinaryOp) (v w : Value) : FailsOnly Tame (binary op v w) := by
  unfold binary
  split
  · exact tame_sum v w
  · exact tame_product v w
  · exact failsOnly_ok _
  · split
    · exact tame_arithmetic op _ _
    · exact tame_refuse _

theorem tame_unary (op : UnaryOp) (v : Value) : FailsOnly Tame (unary op v) := by
  unfold unary
  split
  · exact failsOnly_ok _
  · split
    · exact failsOnly_ok _
    · exact tame_refuse _
  · split
    · exact failsOnly_ok _
    · exact tame_refuse _
  · exact tame_refuse _

/-- Nothing escapes from a comparison. -/
theorem tame_compare (op : CompareOp) (v w : Value) : FailsOnly Tame (compare op v w) := by
  have hchecked : ∀ x : Except Fault Bool, FailsOnly (fun f => f.kind = .type) x →
      FailsOnly Tame (do
        let b ← guarded [.type] .incomparable x
        return .bool b : Eval Value) := by
    intro x hx
    refine (tame_guarded (hx.mono fun f hf => .inl ?_)).bind fun _ => failsOnly_ok _
    exact List.mem_singleton.mpr hf
  unfold compare
  dsimp only
  split
  · exact failsOnly_ok _
  · exact failsOnly_ok _
  · exact hchecked _ (Value.failsOnly_related .lt v w)
  · exact hchecked _ (Value.failsOnly_related .le v w)
  · exact hchecked _ (Value.failsOnly_related .gt v w)
  · exact hchecked _ (Value.failsOnly_related .ge v w)
  · exact hchecked _ (Value.failsOnly_isIn v w)
  · exact hchecked _ ((Value.failsOnly_isIn v w).map _)
  · exact tame_refuse _
  · exact tame_refuse _

theorem tame_subscript (container index : Value) : FailsOnly Tame (subscript container index) := by
  refine tame_guarded ((Value.failsOnly_subscript container index).mono ?_)
  rintro f (hf | hf | hf | rfl)
  · exact .inl (by simp [hf])
  · exact .inl (by simp [hf])
  · exact .inl (by simp [hf])
  · exact .inr escapes_tooManyDigits

theorem failsOnly_apply (c : Conversion) (v : Value) :
    FailsOnly Value.IsConversionFault (c.apply v) := by
  cases c with
  | str =>
    refine (FailsOnly.mono (Value.failsOnly_text v) ?_).map _
    rintro f rfl
    exact .inr (.inl rfl)
  | int => exact (Value.failsOnly_asInt v).map _
  | float =>
    unfold Conversion.apply
    dsimp only
    split
    · exact failsOnly_ok _
    · exact (Value.failsOnly_asFloat v).map _
  | bool => exact failsOnly_ok _
  | len => exact ((Value.failsOnly_length v).bind fun n => failsOnly_ok (n : Int)).map _

theorem tame_range (args : List Value) : FailsOnly Tame (range args) := by
  have hrange : ∀ start stop step, FailsOnly Escapes (Value.range start stop step) := by
    intro start stop step
    refine (Value.failsOnly_range start stop step).mono ?_
    rintro f (rfl | rfl | rfl)
    · exact .inr (.inr (.inr (.inl rfl)))
    · exact escapes_overflow
    · exact escapes_outOfMemory
  unfold range
  split
  · exact tame_unguarded (hrange _ _ _)
  · exact tame_unguarded (hrange _ _ _)
  · exact tame_unguarded (hrange _ _ _)
  · exact tame_refuse _

theorem tame_call (name : String) (args : List Value) : FailsOnly Tame (call name args) := by
  unfold call
  split
  · split
    · refine tame_guarded ((failsOnly_apply _ _).mono ?_)
      rintro f (hf | hf | rfl)
      · exact .inl (by simp [hf])
      · exact .inl (by simp [hf])
      · exact .inr escapes_overflow
    · exact tame_refuse _
  · exact (tame_range args).ite (tame_refuse _)

theorem escapes_text (v : Value) : FailsOnly Escapes v.text := by
  refine (Value.failsOnly_text v).mono ?_
  rintro f rfl
  exact escapes_tooManyDigits

theorem tame_fieldText (v : Value) (conversion : Option Script.Conversion) (spec : Option String) :
    FailsOnly Tame (fieldText v conversion spec) := by
  unfold fieldText
  split
  · exact tame_unguarded ((Value.failsOnly_format v _).mono fun _ => escapes_of_isFormatFault)
  · refine tame_unguarded ((Value.failsOnly_shown v).mono ?_)
    rintro f rfl
    exact escapes_tooManyDigits
  · exact tame_unguarded (escapes_text v)

theorem tame_literal (value : Literal) : FailsOnly Tame (literal value) := by
  cases value <;> first | exact failsOnly_ok _ | exact tame_refuse _

/-! ## Evaluation -/

mutual

theorem tame_eval (env : Env) (way : List Nat) (e : Expr) : FailsOnly Tame (eval env way e) := by
  unfold eval
  split
  · exact tame_literal _
  · split
    · exact failsOnly_ok _
    · exact tame_refuse _
  · exact (tame_evalItems env way 0 _).bind fun _ => failsOnly_ok _
  · exact (tame_evalItems env way 0 _).bind fun _ => failsOnly_ok _
  · exact (tame_evalEntries env way 0 _ _).bind fun _ => failsOnly_ok _
  · exact (tame_evalParts env way 0 _).bind fun _ => failsOnly_ok _
  · refine (tame_eval env _ _).bind fun v => ?_
    exact (tame_unary _ v).bind fun _ => failsOnly_ok _
  · refine (tame_eval env _ _).bind fun v => (tame_eval env _ _).bind fun w => ?_
    exact (tame_binary _ v w).bind fun _ => failsOnly_ok _
  · exact tame_refuse _
  · exact (tame_eval env _ _).bind fun v => tame_evalChain env way 1 _ v _
  · exact (tame_eval env _ _).bind fun v => (tame_eval env _ _).bind fun w => tame_compare _ v w
  · exact tame_refuse _
  · exact (tame_eval env _ _).bind fun v => (tame_eval env _ _).ite (tame_eval env _ _)
  · exact (tame_eval env _ _).bind fun v => (tame_eval env _ _).bind fun w => tame_subscript v w
  · refine (tame_evalItems env way 0 _).bind fun args => ?_
    exact (tame_call _ args).bind fun _ => failsOnly_ok _
  · exact tame_refuse _
  · exact tame_refuse _
termination_by sizeOf e
decreasing_by all_goals grind

theorem tame_evalItems (env : Env) (way : List Nat) (place : Nat) (items : List Expr) :
    FailsOnly Tame (evalItems env way place items) := by
  unfold evalItems
  split
  · exact failsOnly_ok _
  · refine (tame_eval env _ _).bind fun _ => ?_
    exact (tame_evalItems env way (place + 1) _).bind fun _ => failsOnly_ok _
termination_by sizeOf items
decreasing_by all_goals grind

theorem tame_evalEntries (env : Env) (way : List Nat) (place : Nat) (items : List DictItem)
    (fields : Fields Value) : FailsOnly Tame (evalEntries env way place items fields) := by
  unfold evalEntries
  split
  · exact failsOnly_ok _
  · refine (tame_eval env _ _).bind fun v => ?_
    split
    · exact tame_evalEntries env way (place + 1) _ _
    · exact tame_refuse _
  · refine (tame_eval env _ _).bind fun v => ?_
    split
    · exact (tame_eval env _ _).bind fun _ => tame_evalEntries env way (place + 1) _ _
    · exact tame_refuse _
termination_by sizeOf items
decreasing_by all_goals grind

theorem tame_evalChain (env : Env) (way : List Nat) (place : Nat) (op : BoolOp) (v : Value)
    (es : List Expr) : FailsOnly Tame (evalChain env way place op v es) := by
  unfold evalChain
  split
  · exact failsOnly_ok _
  · refine (failsOnly_ok _).ite ?_
    exact (tame_eval env _ _).bind fun w => tame_evalChain env way (place + 1) op w _
termination_by sizeOf es
decreasing_by all_goals grind

theorem tame_evalParts (env : Env) (way : List Nat) (place : Nat) (parts : List Expr) :
    FailsOnly Tame (evalParts env way place parts) := by
  unfold evalParts
  split
  · exact failsOnly_ok _
  · exact (tame_evalParts env way (place + 1) _).bind fun _ => failsOnly_ok _
  · refine (tame_eval env _ _).bind fun v => (tame_fieldText v _ none).bind fun _ => ?_
    exact (tame_evalParts env way (place + 1) _).bind fun _ => failsOnly_ok _
  · refine (tame_eval env _ _).bind fun v => (tame_eval env _ _).bind fun spec => ?_
    refine (tame_unguarded (escapes_text spec)).bind fun text => ?_
    refine (tame_fieldText v _ (some text)).bind fun _ => ?_
    exact (tame_evalParts env way (place + 1) _).bind fun _ => failsOnly_ok _
  · exact tame_refuse _
termination_by sizeOf parts
decreasing_by all_goals grind

end

/-! ## Environments and options -/

/-- Binding a name fails when a fault escapes from its value. A refused value
only forgets the name. -/
theorem escapes_bind (env : Env) (way : List Nat) (name : String) (value : Expr) :
    FailsOnly Escapes (bind env way name value) := by
  unfold bind
  split
  · exact failsOnly_ok _
  · exact failsOnly_ok _
  · next f hf => exact failsOnly_error (tame_eval env way value _ hf)

theorem escapes_bindTargets (value : Expr) (statement target : Nat) (targets : List Expr)
    (env : Env) :
    FailsOnly Escapes (bindTargets value statement target targets env) := by
  fun_induction bindTargets value statement target targets env with
  | case1 => exact failsOnly_ok _
  | case2 target _ id rest env ih => exact (escapes_bind _ _ _ _).bind fun env => ih env
  | case3 target e rest env _ ih => exact ih

theorem escapes_update (env : Env) (statement : Nat) (s : Stmt) :
    FailsOnly Escapes (update env statement s) := by
  unfold update
  split
  · exact escapes_bindTargets _ _ _ _ _
  · exact failsOnly_ok _
  · exact escapes_bind _ _ _ _
  · exact failsOnly_ok _
  · exact failsOnly_ok _
  · exact failsOnly_ok _

/-- **The run** over the statements of a module, by induction on them. -/
theorem escapes_updateAll (env : Env) (statement : Nat) (stmts : List Stmt) :
    FailsOnly Escapes (updateAll env statement stmts) := by
  induction stmts generalizing env statement with
  | nil => exact failsOnly_ok env
  | cons s rest ih => exact (escapes_update env statement s).bind fun env => ih env _

/-- The failures of resolving an argument: the complaint that names its key, if the place of the
argument can be shown, or a fault that escapes. -/
def IsResolveFailure (scope : Scope) (key : String) (e : Expr) (f : Failure) : Prop :=
  (∃ location, scope.locate (some (.ofExtent e.extent)) = .ok location ∧
    f = .complaint ⟨.notStatic key, location⟩) ∨
  (∃ c, scope.locate (some (.ofExtent e.extent)) = .error c ∧ f = .cut c) ∨
  ∃ fault, Escapes fault ∧ f = .fault fault

theorem failsOnly_resolve (scope : Scope) (env : Env) (key : String) (e : Expr) :
    FailsOnly (IsResolveFailure scope key e) (resolve scope env key e) := by
  unfold resolve
  split
  · exact failsOnly_ok _
  · unfold complainAt complain
    split
    · next location h => exact failsOnly_error (.inl ⟨location, h, rfl⟩)
    · next c h => exact failsOnly_error (.inr (.inl ⟨c, h, rfl⟩))
  · next f hf => exact failsOnly_error (.inr (.inr ⟨f, tame_eval env [1] e _ hf, rfl⟩))

theorem ok_or_error {ε α : Type} {P : ε → Prop} {x : Except ε α} (h : FailsOnly P x) :
    (∃ a, x = .ok a) ∨ ∃ e, P e ∧ x = .error e := by
  cases x with
  | ok a => exact .inl ⟨a, rfl⟩
  | error e => exact .inr ⟨e, h e rfl, rfl⟩

/-- **How static evaluation fails.** Every expression has a value, is refused, or ends in a
fault that escapes. So the constants of every module are collected unless such a fault ends
the collection, and an argument that cannot be resolved is complained about by its key unless
such a fault comes first. -/
theorem evaluation_refuses_or_escapes (env : Env) (way : List Nat) (e : Expr) (m : Module)
    (scope : Scope) (key : String) :
    ((∃ v, eval env way e = .ok v) ∨ (∃ r, eval env way e = .error (.refused r)) ∨
      ∃ f, Escapes f ∧ eval env way e = .error (.fault f)) ∧
    ((∃ env, environment m = .ok env) ∨ ∃ f, Escapes f ∧ environment m = .error f) ∧
    ((∃ v, resolve scope env key e = .ok v) ∨
      ∃ f, IsResolveFailure scope key e f ∧ resolve scope env key e = .error f) := by
  refine ⟨?_, ok_or_error (escapes_updateAll [] 0 m.body),
    ok_or_error (failsOnly_resolve scope env key e)⟩
  rcases ok_or_error (tame_eval env way e) with hok | ⟨error, htame, herror⟩
  · exact .inl hok
  · cases error with
    | refused r => exact .inr (.inl ⟨r, herror⟩)
    | fault f => exact .inr (.inr ⟨f, htame, herror⟩)

/-! ### A step of zero -/

/-- A row of integers with a step of zero, as it is parsed. -/
def zeroStepRow : Expr :=
  .call ⟨⟨1, 2⟩, ⟨1, 14⟩⟩ (.name ⟨⟨1, 2⟩, ⟨1, 7⟩⟩ "range")
    [.constant ⟨⟨1, 8⟩, ⟨1, 9⟩⟩ (.int 0), .constant ⟨⟨1, 10⟩, ⟨1, 11⟩⟩ (.int 1),
      .constant ⟨⟨1, 12⟩, ⟨1, 13⟩⟩ (.int 0)] []

set_option maxRecDepth 100000 in
/-- A row with a step of zero is not refused: its fault ends the evaluation, the collection of the
constants of a module in which it stands, and the resolution of an argument. -/
theorem zero_step_escapes :
    eval [] [1] zeroStepRow = .error (.fault .zeroStep) ∧
    (∃ m, parseModule "x=range(0,1,0)" = .ok m ∧ environment m = .error .zeroStep) ∧
    resolve {} [] "name" zeroStepRow = .error (.fault .zeroStep) := by
  have hparse : parseModule "x=range(0,1,0)" =
      .ok ⟨[.assign ⟨⟨1, 0⟩, ⟨1, 14⟩⟩ [.name ⟨⟨1, 0⟩, ⟨1, 1⟩⟩ "x"] zeroStepRow]⟩ :=
    parseModule_of_tokens
      [tokenAt 1 0 1 (.name "x" true), tokenAt 1 1 1 (.op "="), tokenAt 1 2 5 (.name "range" true),
        tokenAt 1 7 1 (.op "("), tokenAt 1 8 1 (.number (.int 0)), tokenAt 1 9 1 (.op ","),
        tokenAt 1 10 1 (.number (.int 1)), tokenAt 1 11 1 (.op ","),
        tokenAt 1 12 1 (.number (.int 0)),
        tokenAt 1 13 1 (.op ")"), tokenAt 1 14 0 .newline, tokenAt 2 0 0 .finish]
      (by decide +kernel) (by rfl)
  exact ⟨by rfl, ⟨_, hparse, by rfl⟩, by rfl⟩

end Addon.Static
