import Addon.Proofs.Script.Statement

/-!
# Parameters — every parameter of a script stands in its text

`StmtsRead` knows the positional parameters of functions that stand in a script or in its classes.
Here all parameters of all functions are looked at, wherever a function stands: in another
function, in a branch, in a loop, in a handler or in a case. Lambdas are left out, since their
parameters have no annotations.

## The architecture

* **`Stmt.params`** — the parameters of the functions in a statement, at every depth.
* **`Stands start p`** — the parameter was read from a place behind `start`.
* **`Finds start P p`** — from every place behind `start` the parser moves on, and what it reads
  has a property. Parsers are taken apart by `Finds.bind` where the result matters, and by
  `Moves.finds` where it does not.
* **`finds_rule`** — blocks have parameters that stand in the text, by induction
  on the depth of the rules.
-/

namespace Addon.Script

open Addon.Script.Parser Cursor

/-! ## Parameters at every depth -/

/-- The parameters of a function. -/
def Parameters.all (ps : Parameters) : List Param :=
  ps.positionalOnly ++ ps.ordinary ++ ps.variadic.toList ++ ps.keywordOnly.map (·.param) ++
    ps.keywords.toList

mutual

/-- The parameters of the functions in a statement, at every depth. -/
def Stmt.params : Stmt → List Param
  | .functionDef _ _ _ ps body _ _ => ps.all ++ paramsIn body
  | .classDef _ _ _ _ body _ => paramsIn body
  | .for _ _ _ _ body orElse => paramsIn body ++ paramsIn orElse
  | .while _ _ body orElse => paramsIn body ++ paramsIn orElse
  | .if _ _ body orElse => paramsIn body ++ paramsIn orElse
  | .with _ _ _ body => paramsIn body
  | .match _ _ cases => paramsInCases cases
  | .try _ _ body handlers orElse atEnd =>
    paramsIn body ++ paramsInHandlers handlers ++ paramsIn orElse ++ paramsIn atEnd
  | .return .. | .delete .. | .assign .. | .augAssign .. | .annAssign .. | .raise .. | .assert ..
  | .importNames .. | .importFrom .. | .global .. | .nonlocal .. | .expr .. | .pass .. | .break ..
  | .continue .. => []

def paramsIn : List Stmt → List Param
  | [] => []
  | s :: rest => s.params ++ paramsIn rest

def paramsInHandlers : List Handler → List Param
  | [] => []
  | ⟨_, _, body⟩ :: rest => paramsIn body ++ paramsInHandlers rest

def paramsInCases : List MatchCase → List Param
  | [] => []
  | ⟨_, _, body⟩ :: rest => paramsIn body ++ paramsInCases rest

end

/-- The parameters of a script. -/
def Module.params (m : Module) : List Param :=
  paramsIn m.body

theorem paramsIn_eq_flatMap (stmts : List Stmt) : paramsIn stmts = stmts.flatMap Stmt.params := by
  induction stmts with
  | nil => rfl
  | cons s rest ih =>
    rw [List.flatMap_cons, ← ih]
    rfl

theorem paramsInHandlers_eq_flatMap (handlers : List Handler) :
    paramsInHandlers handlers = handlers.flatMap fun h => paramsIn h.body := by
  induction handlers with
  | nil => rfl
  | cons h rest ih =>
    cases h
    rw [List.flatMap_cons, ← ih]
    rfl

theorem paramsInCases_eq_flatMap (cases : List MatchCase) :
    paramsInCases cases = cases.flatMap fun c => paramsIn c.body := by
  induction cases with
  | nil => rfl
  | cons c rest ih =>
    cases c
    rw [List.flatMap_cons, ← ih]
    rfl

/-! ## Places behind a start -/

/-- The parameter was read behind a cursor. -/
def Stands (start : Cursor) (p : Param) : Prop :=
  ∃ a b, start.Advances a ∧ ParamParsed a p b

/-- The parameters of statements were read behind a cursor. -/
def Known (start : Cursor) (stmts : List Stmt) : Prop :=
  ∀ p ∈ paramsIn stmts, Stands start p

/-- From every place behind `start` the parser moves on, and what it reads has a property. -/
def Finds {α : Type} (start : Cursor) (P : α → Prop) (p : Parser α) : Prop :=
  ∀ c, start.Advances c → Ensures p c (fun a d => start.Advances d ∧ P a)

section Finds

variable {α β : Type} {start : Cursor} {P : α → Prop} {Q : β → Prop} {p q : Parser α}
  {f : α → Parser β}

theorem Finds.bind (hp : Finds start P p) (hf : ∀ a, P a → Finds start Q (f a)) :
    Finds start Q (p >>= f) :=
  fun c hc => (hp c hc).bind fun a d h => hf a h.2 d h.1

theorem Parser.Moves.finds (hp : Moves p) (hf : ∀ a, Finds start Q (f a)) :
    Finds start Q (p >>= f) :=
  fun c hc => (hp c).bind fun a d hcd => hf a d (hc.trans hcd)

theorem finds_pure {a : α} (h : P a) : Finds start P (pure a) :=
  fun _ hc => ensures_pure ⟨hc, h⟩

theorem finds_failure : Finds start P failure :=
  fun _ _ => ensures_failure

theorem Finds.ite {b : Prop} [Decidable b] (hp : Finds start P p) (hq : Finds start P q) :
    Finds start P (if b then p else q) := by
  split
  · exact hp
  · exact hq

theorem Finds.orElse (hp : Finds start P p) (hq : Finds start P q) : Finds start P (p <|> q) :=
  fun c hc => ensures_orElse (hp c hc) (hq c hc)

theorem finds_iterate {step : α → Parser (Option α)}
    (hstep : ∀ a, P a → Finds start (fun r => ∀ b ∈ r, P b) (step a))
    (bound : Nat) {a : α} (ha : P a) : Finds start P (iterate step bound a) := by
  intro c hc
  refine ensures_iterate (fun a d => start.Advances d ∧ P a) ?_ bound ⟨hc, ha⟩
  rintro a c ⟨hc, ha⟩
  refine (hstep a ha c hc).mono fun r d hr => ?_
  cases r with
  | some b => exact ⟨hr.1, hr.2 b rfl⟩
  | none => exact ⟨hr.1, ha⟩

theorem finds_many {rules : Rules} {more : Parser Bool} (hmore : Moves more)
    (hp : Finds start P p) :
    Finds start (fun as => ∀ a ∈ as, P a) (many rules more p) := by
  refine Finds.bind (P := fun as => ∀ a ∈ as, P a) ?_ fun seen hseen =>
    finds_pure (by simpa using hseen)
  refine finds_iterate (fun seen hseen => hmore.finds fun _ =>
    .ite ?_ (finds_pure (by simp))) _ (by simp)
  refine hp.bind fun a ha => finds_pure ?_
  simpa using ⟨ha, hseen⟩

/-- An expression that was placed was passed over. -/
theorem Parser.Moves.of_parsed {p : Parser Expr} (h : ∀ c, Ensures p c (Parsed c)) : Moves p :=
  fun c => (h c).mono fun _ _ he => he.advances

end Finds

namespace Parser

/-! ## Lists of parameters -/

section Parameters

theorem mem_all_finish {s : ParameterState} {p : Param} :
    p ∈ s.finish.all ↔ p ∈ s.positionalOnly ∨ p ∈ s.ordinary ∨ s.variadic = some p ∨
      (∃ k ∈ s.keywordOnly, k.param = p) ∨ s.keywords = some p := by
  simp [ParameterState.finish, Parameters.all]

variable {rules : Rules} (hr : rules.Sound) {start : Cursor}

include hr

theorem finds_param (isLambda mayStar : Bool) :
    Finds start (Stands start) (param rules isLambda mayStar) :=
  fun c hc => (ensures_param hr isLambda mayStar c).mono fun _ d hp =>
    ⟨hc.trans hp.advances, c, d, hc, hp⟩

/-- One more item adds at most a parameter that was just read. -/
theorem finds_parameterItem (isLambda : Bool) {s : ParameterState}
    (hs : ∀ p ∈ s.finish.all, Stands start p) :
    Finds start (fun s' => ∀ p ∈ s'.finish.all,
      Stands start p) (parameterItem rules isLambda s) := by
  have hdefault : Moves (defaultValue rules) := ensures_defaultValue hr
  refine (moves_guard _).finds fun _ => moves_peek.finds fun k => ?_
  simp only [mem_all_finish] at hs ⊢
  split
  · refine moves_take.finds fun _ => (moves_guard _).finds fun _ => finds_pure ?_
    grind
  · refine moves_take.finds fun _ => (moves_guard _).finds fun _ => moves_peek.finds fun l => ?_
    split
    · refine (finds_param hr _ _).bind fun p hp => finds_pure ?_
      grind
    · exact finds_pure hs
  · refine moves_take.finds fun _ => (moves_guard _).finds fun _ => ?_
    refine (finds_param hr _ _).bind fun p hp => finds_pure ?_
    grind
  · refine (finds_param hr _ _).bind fun p hp => hdefault.finds fun value => ?_
    split
    · refine finds_pure ?_
      grind
    · split
      · refine finds_pure ?_
        grind
      · refine (moves_guard _).finds fun _ => finds_pure ?_
        grind

theorem finds_parameters (isLambda : Bool) (close : TokenKind) :
    Finds start (fun ps => ∀ p ∈ Parameters.all ps,
      Stands start p) (parameters rules isLambda close) := by
  refine Finds.bind (P := fun r : ParameterState × Bool => ∀ p ∈ r.1.finish.all,
    Stands start p) ?_ ?_
  · refine finds_iterate ?_ _ (by simp [mem_all_finish])
    rintro ⟨s, more⟩ hs
    refine (still_nextIs close).moves.finds fun _ => .ite (finds_pure (by simp)) ?_
    refine (finds_parameterItem hr isLambda hs).bind fun s' hs' => (moves_accept _).finds fun b =>
      finds_pure ?_
    simpa using hs'
  · rintro ⟨s, more⟩ hs
    refine (moves_guard _).finds fun _ => (still_nextIs close).moves.finds fun _ => ?_
    exact (moves_guard _).finds fun _ => finds_pure hs

end Parameters

/-! ## Simple statements

They are read by many small parsers, but what is returned in the end is never
a function or a block. -/

section Simple

variable {α : Type}

/-- Whatever the parser reads is a statement without parameters. -/
def Simple (p : Parser Stmt) : Prop :=
  ∀ c, Ensures p c (fun s _ => s.params = [])

theorem simple_bind {p : Parser α} {f : α → Parser Stmt} (hf : ∀ a, Simple (f a)) :
    Simple (p >>= f) :=
  fun _ => Ensures.bind (R := fun _ _ => True) (fun _ _ _ => trivial) fun a d _ => hf a d

theorem Simple.ite {b : Prop} [Decidable b] {p q : Parser Stmt} (hp : Simple p) (hq : Simple q) :
    Simple (if b then p else q) := by
  split
  · exact hp
  · exact hq

/-- The extent of a simple statement does not matter. -/
theorem simple_since {start : Position} {f : Extent → Stmt} (h : ∀ x, (f x).params = []) :
    Simple (do return f (← since start)) :=
  simple_bind fun x _ => ensures_pure (h x)

variable (rules : Rules) (start : Position)

theorem simple_importFrom : Simple (importFrom rules start) := by
  have hrest : ∀ level (path : Option String), Simple (do
      guard (path.isSome || 0 < level)
      expect (.reserved "import")
      let names ← importedNames rules
      return .importFrom (← since start) path names level) := fun level path =>
    simple_bind fun _ => simple_bind fun _ => simple_bind fun _ => simple_since fun _ => rfl
  refine simple_bind fun level => simple_bind fun _ => .ite ?_ (hrest level none)
  exact simple_bind fun _ => simple_bind fun path => hrest level path

theorem simple_annotated (target : Expr) (isSimple : Bool) :
    Simple (annotated rules start target isSimple) := by
  refine simple_bind fun _ => simple_bind fun note => simple_bind fun _ => .ite ?_ ?_
  · exact simple_bind fun _ => simple_bind fun _ => simple_since fun _ => rfl
  · exact simple_bind fun _ => simple_since fun _ => rfl

theorem simple_expressionStatement : Simple (expressionStatement rules) := by
  refine simple_bind fun start => simple_bind fun k => simple_bind fun l => ?_
  split
  · exact simple_bind fun _ => simple_bind fun _ => simple_annotated rules start _ _
  · exact simple_bind fun _ => simple_since fun _ => rfl
  · refine simple_bind fun e => simple_bind fun o => ?_
    split
    · exact simple_bind fun r => simple_since fun _ => rfl
    · exact simple_bind fun _ => simple_annotated rules start _ _
    · split
      · exact simple_bind fun _ => simple_bind fun _ => simple_bind fun _ =>
          simple_since fun _ => rfl
      · exact simple_since fun _ => rfl

theorem simple_simpleStatement : Simple (simpleStatement rules) := by
  refine simple_bind fun start => simple_bind fun k => ?_
  split
  · refine simple_bind fun _ => simple_bind fun _ =>
      .ite ?_ (simple_bind fun _ => simple_since fun _ => rfl)
    exact simple_bind fun _ => simple_bind fun _ => simple_since fun _ => rfl
  · exact simple_bind fun _ => simple_bind fun _ => simple_since fun _ => rfl
  · exact simple_bind fun _ => simple_importFrom rules start
  · refine simple_bind fun _ => simple_bind fun _ => .ite ?_ (simple_since fun _ => rfl)
    refine simple_bind fun _ => simple_bind fun _ =>
      .ite ?_ (simple_bind fun _ => simple_since fun _ => rfl)
    exact simple_bind fun _ => simple_bind fun _ => simple_since fun _ => rfl
  · exact simple_bind fun _ => simple_since fun _ => rfl
  · exact simple_bind fun _ => simple_bind fun _ => simple_bind fun _ => simple_bind fun _ =>
      simple_since fun _ => rfl
  · refine simple_bind fun _ => simple_bind fun _ => simple_bind fun _ => .ite ?_
      (simple_bind fun _ => simple_since fun _ => rfl)
    exact simple_bind fun _ => simple_bind fun _ => simple_since fun _ => rfl
  · exact simple_bind fun _ => simple_since fun _ => rfl
  · exact simple_bind fun _ => simple_since fun _ => rfl
  · exact simple_bind fun _ => simple_bind fun _ => simple_since fun _ => rfl
  · exact simple_bind fun _ => simple_bind fun _ => simple_since fun _ => rfl
  · exact simple_expressionStatement rules

end Simple

section Statements

variable {rules : Rules} {start : Cursor}

theorem known_nil : Known start [] := by
  simp [Known, paramsIn_eq_flatMap]

theorem known_append {stmts others : List Stmt} :
    Known start (stmts ++ others) ↔ Known start stmts ∧ Known start others := by
  simp only [Known, paramsIn_eq_flatMap, List.flatMap_append, List.forall_mem_append]

theorem known_singleton {s : Stmt} : Known start [s] ↔ ∀ p ∈ s.params, Stands start p := by
  simp [Known, paramsIn_eq_flatMap]

/-- The parameters of two blocks. -/
theorem known_blocks {s : Stmt} {stmts others : List Stmt}
    (h : s.params = paramsIn stmts ++ paramsIn others) :
    Known start [s] ↔ Known start stmts ∧ Known start others := by
  rw [known_singleton, h, List.forall_mem_append]
  rfl

theorem finds_simpleLine (hr : rules.Sound) : Finds start (Known start) (simpleLine rules) := by
  have hstatement : Finds start (fun s => s.params = []) (simpleStatement rules) :=
    fun c hc s d h =>
    ⟨hc.trans (readsPlain_simpleStatement hr c s d h).2, simple_simpleStatement rules c s d h⟩
  refine hstatement.bind fun first hfirst => ?_
  refine Finds.bind (P := fun r : List Stmt × Bool => ∀ s ∈ r.1, s.params = []) ?_ ?_
  · refine finds_iterate ?_ _ (by simpa using hfirst)
    rintro ⟨seen, more⟩ hseen
    refine .ite (finds_pure (by simp)) ((moves_accept _).finds fun _ =>
      .ite ?_ (finds_pure (by simp)))
    refine (still_nextIs _).moves.finds fun _ => .ite (finds_pure (by simpa using hseen)) ?_
    refine hstatement.bind fun s hs => finds_pure ?_
    simpa using ⟨hs, hseen⟩
  · rintro ⟨seen, more⟩ hseen
    refine (moves_expect _).finds fun _ => finds_pure ?_
    simp only [Known, paramsIn_eq_flatMap, List.mem_flatMap, List.mem_reverse]
    rintro p ⟨s, hs, hp⟩
    rw [hseen s hs] at hp
    cases hp

variable (hr : rules.Reads) (hblock : Finds start (Known start) (rules.parse .block))

include hblock

theorem finds_body : Finds start (Known start) (body rules) :=
  (moves_expect _).finds fun _ => hblock

theorem finds_bodyAfter (word : String) : Finds start (Known start) (bodyAfter rules word) :=
  (moves_accept _).finds fun _ => .ite (finds_body hblock) (finds_pure known_nil)

include hr

theorem finds_elifBranches :
    Finds start (fun branches => ∀ b ∈ branches, Known start b.2.2) (elifBranches rules) := by
  refine finds_many (still_nextIs _).moves (moves_here.finds fun _ => moves_take.finds fun _ => ?_)
  refine (Moves.of_parsed (ensures_named hr.toSound)).finds fun test => ?_
  exact (finds_body hblock).bind fun block hknown => finds_pure hknown

omit hblock hr in
/-- Further branches stand in the last block of the one before. -/
theorem known_foldr {branches : List (Position × Expr × List Stmt)} {last : List Stmt}
    {stop : Position} (hbranches : ∀ b ∈ branches, Known start b.2.2) (hlast : Known start last) :
    Known start (branches.foldr (fun b orElse => [Stmt.if ⟨b.1, stop⟩ b.2.1 b.2.2 orElse])
      last) := by
  induction branches with
  | nil => exact hlast
  | cons b rest ih =>
    rw [List.forall_mem_cons] at hbranches
    exact (known_blocks rfl).mpr ⟨hbranches.1, ih hbranches.2⟩

theorem finds_ifStatement : Finds start (fun s => Known start [s]) (ifStatement rules) := by
  refine moves_here.finds fun _ => (moves_expect _).finds fun _ => ?_
  refine (Moves.of_parsed (ensures_named hr.toSound)).finds fun test => ?_
  refine (finds_body hblock).bind fun block hknown => ?_
  refine (finds_elifBranches hr hblock).bind fun branches hbranches => ?_
  refine (finds_bodyAfter hblock _).bind fun last hlast => (moves_since _).finds fun x =>
    finds_pure ?_
  exact (known_blocks rfl).mpr ⟨hknown, known_foldr hbranches hlast⟩

theorem finds_whileStatement : Finds start (fun s => Known start [s]) (whileStatement rules) := by
  refine moves_here.finds fun _ => (moves_expect _).finds fun _ => ?_
  refine (Moves.of_parsed (ensures_named hr.toSound)).finds fun test => ?_
  refine (finds_body hblock).bind fun block hknown =>
    (finds_bodyAfter hblock _).bind fun orElse horElse => ?_
  refine (moves_since _).finds fun x => finds_pure ?_
  exact (known_blocks rfl).mpr ⟨hknown, horElse⟩

theorem finds_forStatement (place : Position) (isAsync : Bool) :
    Finds start (fun s => Known start [s]) (forStatement rules place isAsync) := by
  refine (moves_expect _).finds fun _ =>
    (Moves.of_parsed (ensures_starTargets hr.toSound)).finds fun _ => ?_
  refine (moves_expect _).finds fun _ => hr.moves_starExpressions.finds fun _ => ?_
  refine (finds_body hblock).bind fun block hknown =>
    (finds_bodyAfter hblock _).bind fun orElse horElse => ?_
  refine (moves_since _).finds fun x => finds_pure ?_
  exact (known_blocks rfl).mpr ⟨hknown, horElse⟩

theorem finds_withStatement (place : Position) (isAsync : Bool) :
    Finds start (fun s => Known start [s]) (withStatement rules place isAsync) := by
  refine (moves_expect _).finds fun _ =>
    ((moves_withItemsInParens hr).orElse (moves_withItems hr)).finds fun _ => ?_
  refine hblock.bind fun block hknown => (moves_since _).finds fun x => finds_pure ?_
  exact known_singleton.mpr hknown

theorem finds_handler (isGroup : Bool) :
    Finds start (fun h => Known start h.body) (handler rules isGroup) := by
  have hrest : Finds start (fun h => Known start (Handler.body h)) (do
      if !isGroup && (← nextIs (.op ":")) then return ⟨none, none, ← body rules⟩
      else
        let type ← rules.parse .expression
        let name ← asName
        return ⟨some type, name, ← body rules⟩ : Parser Handler) := by
    refine (still_nextIs _).moves.finds fun _ => .ite ?_ ?_
    · exact (finds_body hblock).bind fun block hknown => finds_pure hknown
    · refine hr.moves_expression.finds fun _ => moves_asName.finds fun _ => ?_
      exact (finds_body hblock).bind fun block hknown => finds_pure hknown
  refine (moves_expect _).finds fun _ => ?_
  dsimp only
  split
  · exact (moves_expect _).finds fun _ => hrest
  · exact hrest

theorem finds_tryStatement : Finds start (fun s => Known start [s]) (tryStatement rules) := by
  refine moves_here.finds fun place => (moves_expect _).finds fun _ => ?_
  refine (finds_body hblock).bind fun block hknown => moves_peekSecond.finds fun k => ?_
  refine (finds_many (still_nextIs _).moves (finds_handler hr hblock _)).bind
    fun handlers hhandlers => ?_
  have hrest : ∀ orElse, Known start orElse → Finds start (fun s => Known start [s]) (do
      let hasLast ← nextIs (.reserved "finally")
      guard (hasLast || !handlers.isEmpty)
      let atEnd ← bodyAfter rules "finally"
      return .try (← since place) (decide (k = .op "*") && !handlers.isEmpty) block handlers orElse
        atEnd) := by
    intro orElse horElse
    refine (still_nextIs _).moves.finds fun _ => (moves_guard _).finds fun _ => ?_
    refine (finds_bodyAfter hblock _).bind fun atEnd hatEnd => (moves_since _).finds fun x =>
      finds_pure ?_
    rw [known_singleton]
    show ∀ p ∈ paramsIn block ++ paramsInHandlers handlers ++ paramsIn orElse ++ paramsIn atEnd,
      Stands start p
    simp only [List.forall_mem_append, paramsInHandlers_eq_flatMap, List.mem_flatMap]
    exact ⟨⟨⟨hknown, fun p ⟨h, hh, hp⟩ => hhandlers h hh p hp⟩, horElse⟩, hatEnd⟩
  dsimp only
  split
  · rw [pure_bind]
    exact hrest [] known_nil
  · exact (finds_bodyAfter hblock _).bind hrest

theorem finds_caseBlock : Finds start (fun c => Known start c.body) (caseBlock rules) := by
  refine (moves_expect _).finds fun _ => (moves_casePattern hr).finds fun p =>
    (moves_accept _).finds fun _ => .ite ?_ ?_
  · refine (Moves.of_parsed (ensures_named hr.toSound)).finds fun _ =>
      (moves_pure _).finds fun _ => ?_
    exact (finds_body hblock).bind fun block hknown => finds_pure hknown
  · exact (moves_pure _).finds fun _ => (finds_body hblock).bind fun block hknown =>
      finds_pure hknown

theorem finds_matchStatement : Finds start (fun s => Known start [s]) (matchStatement rules) := by
  refine moves_here.finds fun _ => (moves_expect _).finds fun _ =>
    (moves_matchSubject hr).finds fun _ => ?_
  refine (moves_expect _).finds fun _ => (moves_expect _).finds fun _ =>
    (moves_expect _).finds fun _ => ?_
  refine (finds_many (still_nextIs _).moves (finds_caseBlock hr hblock)).bind fun cases hcases => ?_
  refine (moves_guard _).finds fun _ => (moves_expect _).finds fun _ =>
    (moves_since _).finds fun x => finds_pure ?_
  rw [known_singleton]
  show ∀ p ∈ paramsInCases cases, Stands start p
  simp only [paramsInCases_eq_flatMap, List.mem_flatMap]
  exact fun p ⟨c, hc, hp⟩ => hcases c hc p hp

/-! ## Functions and classes -/

theorem finds_functionDef (place : Position) (isAsync : Bool) (decorators : List Expr) :
    Finds start (fun s => Known start [s]) (functionDef rules place isAsync decorators) := by
  refine (moves_expect _).finds fun _ => moves_identifier.finds fun name =>
    (moves_expect _).finds fun _ => ?_
  refine (finds_parameters hr.toSound _ _).bind fun ps hps => (moves_expect _).finds fun _ => ?_
  refine (moves_accept _).finds fun _ => ?_
  have hrest : ∀ returns : Option Expr, Finds start (fun s => Known start [s]) (do
      let block ← body rules
      return .functionDef (← since place) isAsync name ps block decorators returns) := by
    intro returns
    refine (finds_body hblock).bind fun block hknown => (moves_since _).finds fun x => finds_pure ?_
    rw [known_singleton]
    exact List.forall_mem_append.mpr ⟨hps, hknown⟩
  refine .ite ?_ ((moves_pure _).finds hrest)
  exact hr.moves_expression.finds fun _ => (moves_pure _).finds hrest

theorem finds_classDef (decorators : List Expr) :
    Finds start (fun s => Known start [s]) (classDef rules decorators) := by
  refine moves_here.finds fun place => (moves_expect _).finds fun _ =>
    moves_identifier.finds fun name => ?_
  have hrest : ∀ args : ArgumentState, Finds start (fun s => Known start [s]) (do
      let block ← body rules
      return .classDef (← since place) name args.args.reverse args.keywords.reverse block
        decorators) := by
    intro args
    refine (finds_body hblock).bind fun block hknown => (moves_since _).finds fun x => finds_pure ?_
    exact known_singleton.mpr hknown
  have harguments : Moves (arguments rules {} true) := fun c => ensures_arguments hr.toSound c _ _
  refine (moves_accept _).finds fun _ => .ite ?_ ((moves_pure _).finds hrest)
  exact harguments.finds fun _ => (moves_expect _).finds fun _ => (moves_pure _).finds hrest

theorem finds_asyncStatement (decorators : List Expr) :
    Finds start (fun s => Known start [s]) (asyncStatement rules decorators) := by
  refine moves_here.finds fun place => (moves_expect _).finds fun _ => moves_peek.finds fun k => ?_
  split
  · exact finds_functionDef hr hblock _ _ _
  · exact (moves_guard _).finds fun _ => finds_forStatement hr hblock _ _
  · exact (moves_guard _).finds fun _ => finds_withStatement hr hblock _ _
  · exact finds_failure

theorem finds_decorated : Finds start (fun s => Known start [s]) (decorated rules) := by
  have hdecorators : Moves (many rules (nextIs (.op "@")) (decorator rules)) := fun c =>
    (ensures_decorators hr c).mono fun _ _ h => h.lines.advances
  refine hdecorators.finds fun decorators => moves_peek.finds fun k => ?_
  split
  · exact moves_here.finds fun _ => finds_functionDef hr hblock _ _ _
  · exact finds_classDef hr hblock _
  · exact finds_asyncStatement hr hblock _

/-! ## Blocks -/

theorem finds_statement : Finds start (Known start) (statement rules) := by
  have hsingle : ∀ {p : Parser Stmt}, Finds start (fun s => Known start [s]) p →
      Finds start (Known start) (statement.single p) := fun hp => hp.bind fun _ hs => finds_pure hs
  refine moves_peek.finds fun k => ?_
  split
  · exact hsingle (finds_ifStatement hr hblock)
  · exact hsingle (finds_whileStatement hr hblock)
  · exact hsingle (moves_here.finds fun _ => finds_forStatement hr hblock _ _)
  · exact hsingle (moves_here.finds fun _ => finds_withStatement hr hblock _ _)
  · exact hsingle (finds_tryStatement hr hblock)
  · exact hsingle (moves_here.finds fun _ => finds_functionDef hr hblock _ _ _)
  · exact hsingle (finds_classDef hr hblock _)
  · exact hsingle (finds_asyncStatement hr hblock _)
  · exact hsingle (finds_decorated hr hblock)
  · exact (hsingle (finds_matchStatement hr hblock)).orElse (finds_simpleLine hr.toSound)
  · exact finds_simpleLine hr.toSound

theorem finds_statementsUpTo (close : TokenKind) :
    Finds start (Known start) (statementsUpTo rules close) := by
  have hmore : Moves (do return !(← nextIs close)) :=
    (still_nextIs close).moves.bind fun _ => moves_pure _
  refine (finds_many hmore (finds_statement hr hblock)).bind fun groups hgroups => finds_pure ?_
  induction groups with
  | nil => exact known_nil
  | cons stmts rest ih =>
    rw [List.forall_mem_cons] at hgroups
    rw [List.flatten_cons, known_append]
    exact ⟨hgroups.1, ih hgroups.2⟩

theorem finds_block : Finds start (Known start) (block rules) := by
  refine (moves_accept _).finds fun _ => .ite ?_ (finds_simpleLine hr.toSound)
  refine (moves_expect _).finds fun _ =>
    (finds_statementsUpTo hr hblock _).bind fun stmts hstmts => ?_
  exact (moves_expect _).finds fun _ => finds_pure hstmts

end Statements

/-- Blocks of every depth have parameters that stand in the text. -/
theorem finds_rule (start : Cursor) (depth : Nat) :
    Finds start (Known start) (rule depth .block) := by
  induction depth with
  | zero => exact finds_failure
  | succ depth ih => exact finds_block (reads_rule depth) ih

end Parser

/-! ## Whole scripts -/

/-- Every parameter of a script that can be read stands in its text. -/
theorem stands_parseModule {source : String} {m : Module} (h : parseModule source = .ok m) :
    ∃ c, c.Within (withFinalNewline (Text.unifyLineEnds source.toList)) ∧
    ∀ p ∈ m.params, Stands c p := by
  obtain ⟨c, d, length, hwithin, -, hscript⟩ := script_of_parseModule h
  have hfinds : Finds c (fun m => Known c (Module.body m)) (script (rulesFor length)) :=
    (finds_statementsUpTo (reads_rule _) (finds_rule c _) _).bind fun _ hstmts => finds_pure hstmts
  exact ⟨c, hwithin, (hfinds c (.refl c) m d hscript).2⟩

end Addon.Script
