import Addon.Script.Parser
import Addon.Proofs.Script.Expression

/-!
# Statement — where functions and classes stand among the tokens

Of the statements of a script only functions and classes matter here: their decorators, the
parameters of a function, and what stands in a class.

## The architecture

* **`EndsLine c d`** — the cursor moves on and takes the end of a logical line last.
* **`Lines c d`** — the cursor moves over whole logical lines and layout, so that `d` stands at the
  start of a line if `c` does.
* **`Decorated c decorators k`** — decorators in a row, each on a logical line that starts with its
  sign.
* **`StmtsRead c stmts d`** — the statements were read between the two cursors. Statements other
  than functions and classes are passed over.
* **`Rules.Reads`** — the recursive rules place what they read. Each piece of the grammar does,
  given that the rules do, and by induction on their depth all rules do (`reads_rule`).
-/

namespace Addon.Script

open Addon.Script.Parser Cursor

variable {source : String} {m : Module}

/-! ## Lines -/

namespace Cursor

/-- The cursor moves on and takes the end of a logical line last. -/
def EndsLine (c d : Cursor) : Prop :=
  ∃ m t, c.Advances m ∧ m.Takes t d ∧ t.kind = .newline

/-- The cursor moves over whole logical lines and layout. -/
inductive Lines : Cursor → Cursor → Prop where
  | refl (c : Cursor) : Lines c c
  | layout {c d e : Cursor} {t : Token} (h : Lines c d) (ht : d.Takes t e)
      (hk : t.kind.isLayout = true) : Lines c e
  | line {c d : Cursor} (h : c.EndsLine d) : Lines c d

variable {c d e : Cursor}

theorem EndsLine.advances (h : c.EndsLine d) : c.Advances d := by
  obtain ⟨m, t, hcm, ht, -⟩ := h
  exact hcm.trans ht.advances

theorem EndsLine.of_advances (hcd : c.Advances d) (h : d.EndsLine e) : c.EndsLine e := by
  obtain ⟨m, t, hdm, ht, hk⟩ := h
  exact ⟨m, t, hcd.trans hdm, ht, hk⟩

theorem Lines.advances (h : c.Lines d) : c.Advances d := by
  induction h with
  | refl => exact .refl _
  | layout _ ht _ ih => exact ih.trans ht.advances
  | line h => exact h.advances

theorem Lines.trans (hcd : c.Lines d) (hde : d.Lines e) : c.Lines e := by
  induction hde with
  | refl => exact hcd
  | layout _ ht hk ih => exact ih.layout ht hk
  | line h => exact .line (h.of_advances hcd.advances)

/-- The cursor moves on to the end of a logical line and over whole lines behind it. -/
def Ends (c d : Cursor) : Prop :=
  ∃ b, c.EndsLine b ∧ b.Lines d

theorem Ends.of_advances (hcd : c.Advances d) (h : d.Ends e) : c.Ends e := by
  obtain ⟨b, hdb, hbe⟩ := h
  exact ⟨b, hdb.of_advances hcd, hbe⟩

theorem Ends.trans (hcd : c.Ends d) (hde : d.Lines e) : c.Ends e := by
  obtain ⟨b, hcb, hbd⟩ := hcd
  exact ⟨b, hcb, hbd.trans hde⟩

theorem Ends.lines (h : c.Ends d) : c.Lines d := by
  obtain ⟨b, hcb, hbd⟩ := h
  exact Lines.trans (.line hcb) hbd

end Cursor

/-! ## What is read -/

/-- The statement is neither a function nor a class. -/
def Stmt.isPlain : Stmt → Bool
  | .functionDef .. | .classDef .. => false
  | _ => true

/-- Decorators in a row, each on a logical line that starts with its sign. -/
inductive Decorated : Cursor → List Expr → Cursor → Prop where
  | nil (c : Cursor) : Decorated c [] c
  | cons {c d f g k : Cursor} {t : Token} {e : Expr} {rest : List Expr} (ht : c.Takes t d)
      (hsign : t.kind = .op "@") (he : Parsed d e f) (hline : f.EndsLine g)
      (hrest : Decorated g rest k) : Decorated c (e :: rest) k

theorem Decorated.append_singleton {c k d f g : Cursor} {es : List Expr} {e : Expr} {t : Token}
    (h : Decorated c es k) (ht : k.Takes t d) (hsign : t.kind = .op "@") (he : Parsed d e f)
    (hline : f.EndsLine g) : Decorated c (es ++ [e]) g := by
  induction h with
  | nil c => exact .cons ht hsign he hline (.nil g)
  | cons ht' hsign' he' hline' _ ih => exact .cons ht' hsign' he' hline' (ih ht)

theorem Decorated.lines {c k : Cursor} {es : List Expr} (h : Decorated c es k) : c.Lines k := by
  induction h with
  | nil c => exact .refl c
  | cons ht _ he hline _ ih =>
    exact Lines.trans (.line (hline.of_advances (ht.advances.trans he.advances))) ih

/-- The statements were read between the two cursors. -/
inductive StmtsRead : Cursor → List Stmt → Cursor → Prop where
  | nil (c : Cursor) : StmtsRead c [] c
  | skip {c d e : Cursor} {rest : List Stmt} (h : c.Lines d) (hrest : StmtsRead d rest e) :
      StmtsRead c rest e
  | plain {c e : Cursor} {s : Stmt} {rest : List Stmt} (hs : s.isPlain = true)
      (hrest : StmtsRead c rest e) : StmtsRead c (s :: rest) e
  | functionDef {c k a b d e : Cursor} {x : Extent} {isAsync : Bool} {name : String}
      {ps : Parameters}
      {body rest : List Stmt} {decorators : List Expr} {returns : Option Expr}
      (hdecorators : Decorated c decorators k) (hka : k.Past a)
      (hps : ParametersRead a (ps.positionalOnly ++ ps.ordinary) ps.defaults b)
      (hline : b.EndsLine d)
      (hrest : StmtsRead d rest e) :
      StmtsRead c (.functionDef x isAsync name ps body decorators returns :: rest) e
  | classDef {c k b d e : Cursor} {x : Extent} {name : String} {bases : List Expr}
      {keywords : List Keyword} {body rest : List Stmt} {decorators : List Expr}
      (hdecorators : Decorated c decorators k) (hpast : k.Past b) (hline : k.EndsLine b)
      (hbody : StmtsRead b body d) (hx : x = ⟨k.pos, d.last⟩) (hrest : StmtsRead d rest e) :
      StmtsRead c (.classDef x name bases keywords body decorators :: rest) e

namespace StmtsRead

variable {c d e : Cursor} {stmts others : List Stmt} {s : Stmt}

theorem lines (h : StmtsRead c stmts d) : c.Lines d := by
  induction h with
  | nil c => exact .refl c
  | skip h _ ih => exact h.trans ih
  | plain _ _ ih => exact ih
  | functionDef hdecorators hka hps hline _ ih =>
    have hab := hps.1.advances fun _ _ _ hp => hp.advances
    exact hdecorators.lines.trans
      (Lines.trans (.line (hline.of_advances (hka.advances.trans hab))) ih)
  | classDef hdecorators _ hline _ _ _ ihbody ih =>
    exact hdecorators.lines.trans (Lines.trans (.line hline) (ihbody.trans ih))

theorem append (h : StmtsRead c stmts d) (h' : StmtsRead d others e) :
    StmtsRead c (stmts ++ others) e := by
  induction h with
  | nil c => exact h'
  | skip h _ ih => exact .skip h (ih h')
  | plain hs _ ih => exact .plain hs (ih h')
  | functionDef hdecorators hka hps hline _ ih =>
    exact .functionDef hdecorators hka hps hline (ih h')
  | classDef hdecorators hpast hline hbody hx _ _ ih =>
    exact .classDef hdecorators hpast hline hbody hx (ih h')

theorem of_plain (hplain : ∀ s ∈ stmts, s.isPlain = true) (h : c.Lines d) :
    StmtsRead c stmts d := by
  refine .skip h ?_
  induction stmts with
  | nil => exact .nil d
  | cons s rest ih =>
    exact .plain (hplain s List.mem_cons_self) (ih fun s hs => hplain s (List.mem_cons_of_mem _ hs))

end StmtsRead

/-- The recursive rules place what they read. -/
structure Rules.Reads (rules : Rules) : Prop extends rules.Sound where
  block : ∀ c, Ensures (rules.parse .block) c (fun stmts d => ∃ b, c.EndsLine b ∧
    StmtsRead b stmts d)
  pattern : Moves (rules.parse .pattern)

namespace Rules.Sound

variable {rules : Rules} (hr : rules.Sound)

include hr

theorem moves_expression : Moves (rules.parse .expression) :=
  fun c => (hr.expression c).mono fun _ _ h => h.advances

theorem moves_starExpressions : Moves (starExpressions rules) :=
  fun c => (ensures_starExpressions hr c).mono fun _ _ h => h.advances

end Rules.Sound

namespace Parser

variable {α : Type} {p : Parser Stmt} {a k : Cursor} {decorators : List Expr}

/-! ## Patterns -/

section Patterns

theorem moves_captureName : Moves captureName := by
  refine moves_identifier.bind fun id => (moves_guard _).bind fun _ => still_peekOp.moves.bind ?_
  intro o
  split
  · exact moves_failure
  · exact moves_failure
  · exact moves_failure
  · exact moves_pure _

theorem moves_signedNumber : Moves signedNumber := by
  refine moves_here.bind fun start => (moves_accept _).bind fun minus =>
    moves_here.bind fun inner => ?_
  refine moves_peek.bind fun k => ?_
  split
  · refine moves_take.bind fun _ => (moves_since _).bind fun x => .ite ?_ (moves_pure _)
    exact (moves_since _).bind fun y => moves_pure _
  · exact moves_failure

theorem moves_complex (start : Position) (left : Expr) (isImaginary : Bool) (op : BinaryOp) :
    Moves (numberPattern.complex start left isImaginary op) := by
  refine (moves_guard _).bind fun _ => moves_take.bind fun _ => moves_peek.bind fun k => ?_
  split
  · refine moves_signedNumber.bind fun right => (moves_guard _).bind fun _ => ?_
    exact (moves_since start).bind fun x => moves_pure _
  · exact moves_failure

theorem moves_numberPattern : Moves numberPattern := by
  refine moves_here.bind fun start => moves_signedNumber.bind fun left => ?_
  refine still_peekOp.moves.bind fun o => ?_
  split
  · exact moves_complex _ _ _ _
  · exact moves_complex _ _ _ _
  · exact moves_pure _

theorem moves_dottedName (rules : Rules) : Moves (dottedName rules) := by
  refine moves_here.bind fun start => moves_identifier.bind fun id =>
    (moves_since start).bind fun x => ?_
  refine moves_iterate (fun e => (moves_accept _).bind fun b => .ite ?_ (moves_pure _)) _ _
  exact moves_identifier.bind fun attr => (moves_since start).bind fun y => moves_pure _

theorem still_atStarPattern : Still atStarPattern :=
  still_peek_bind fun _ => still_pure _

variable {rules : Rules} (hr : rules.Reads)

include hr

theorem moves_mappingKey : Moves (mappingKey rules) := by
  have hconstant : ∀ start value, Moves (mappingKey.constant start value) := fun start value =>
    moves_take.bind fun _ => (moves_since start).bind fun x => moves_pure _
  intro c
  refine here_bind (peek_bind ?_)
  split
  · exact moves_numberPattern c
  · exact moves_numberPattern c
  · next hkind => exact (ensures_strings hr.toSound hkind).mono fun _ _ h => h.advances
  · exact hconstant _ _ c
  · exact hconstant _ _ c
  · exact hconstant _ _ c
  · refine (moves_dottedName rules).bind (fun r => ?_) c
    exact (moves_guard _).bind fun _ => moves_pure _

theorem moves_starPattern : Moves (starPattern rules) := by
  refine (moves_accept _).bind fun star => .ite ?_ hr.pattern
  refine (moves_accept _).bind fun wild => .ite (moves_pure _) ?_
  exact moves_captureName.bind fun id => moves_pure _

theorem moves_patternsUpTo (close : TokenKind) : Moves (patternsUpTo rules close) := by
  refine (moves_accept _).bind fun none => .ite (moves_pure _) ?_
  refine (moves_starPattern hr).bind fun first => ?_
  refine (moves_commaTail still_atStarPattern.moves (moves_starPattern hr) first).bind fun r => ?_
  exact (moves_expect close).bind fun _ => moves_pure _

theorem moves_mappingPattern : Moves (mappingPattern rules) := by
  refine (moves_iterate ?_ _ _).bind fun r => (moves_expect _).bind fun _ => moves_pure _
  rintro ⟨s, more⟩
  have hcomma : ∀ s : MappingState, Moves (do return some (s, ← accept (.op ","))) := fun s =>
    (moves_accept _).bind fun _ => moves_pure _
  refine (still_nextIs _).moves.bind fun atEnd => .ite (moves_pure _) ?_
  refine (moves_guard _).bind fun _ => (moves_accept _).bind fun isRest => .ite ?_ ?_
  · exact moves_captureName.bind fun id => (moves_pure _).bind hcomma
  · refine (moves_mappingKey hr).bind fun key => (moves_expect _).bind fun _ => ?_
    exact hr.pattern.bind fun item => (moves_pure _).bind hcomma

theorem moves_classPattern (callee : Expr) : Moves (classPattern rules callee) := by
  refine (moves_iterate ?_ _ _).bind fun r => (moves_expect _).bind fun _ => moves_pure _
  rintro ⟨s, more⟩
  have hcomma : ∀ s : ClassState, Moves (do return some (s, ← accept (.op ","))) := fun s =>
    (moves_accept _).bind fun _ => moves_pure _
  refine (still_nextIs _).moves.bind fun atEnd => .ite (moves_pure _) ?_
  refine still_atKeyword.moves.bind fun isNamed => .ite ?_ ?_
  · refine moves_identifier.bind fun id => (moves_expect _).bind fun _ => ?_
    exact hr.pattern.bind fun item => (moves_pure _).bind hcomma
  · exact (moves_guard _).bind fun _ => hr.pattern.bind fun item => (moves_pure _).bind hcomma

theorem moves_closedPattern : Moves (closedPattern rules) := by
  have hconstant : ∀ value, Moves (closedPattern.constant value) := fun value =>
    moves_take.bind fun _ => moves_pure _
  intro c
  refine peek_bind ?_
  split
  · exact moves_numberPattern.bind (fun _ => moves_pure _) c
  · exact moves_numberPattern.bind (fun _ => moves_pure _) c
  · next hkind =>
    exact (ensures_strings hr.toSound hkind).bind fun e d he => ensures_pure he.advances
  · exact hconstant _ c
  · exact hconstant _ c
  · exact hconstant _ c
  · exact moves_take.bind (fun _ => moves_pure _) c
  · refine (moves_dottedName rules).bind (fun r => still_peekOp.moves.bind fun o => ?_) c
    split
    · exact moves_take.bind fun _ => moves_classPattern hr _
    · exact moves_failure
    · split
      · exact .ite (moves_pure _) (moves_pure _)
      · exact moves_pure _
  · refine moves_take.bind (fun _ => (still_nextIs _).moves.bind fun start => ?_) c
    refine (moves_patternsUpTo hr _).bind fun r => ?_
    dsimp only
    split
    · exact .ite (moves_pure _) (.ite moves_failure (moves_pure _))
    · exact moves_pure _
  · exact moves_take.bind (fun _ => (moves_patternsUpTo hr _).bind fun r => moves_pure _) c
  · exact moves_take.bind (fun _ => moves_mappingPattern hr) c
  · exact ensures_failure

theorem moves_pattern : Moves (pattern rules) := by
  refine (moves_closedPattern hr).bind fun first => ?_
  refine (moves_many (moves_accept _) (moves_closedPattern hr)).bind fun others => ?_
  refine (moves_accept _).bind fun isBound => .ite ?_ (moves_pure _)
  exact moves_captureName.bind fun id => moves_pure _

theorem moves_casePattern : Moves (casePattern rules) := by
  refine (still_nextIs _).moves.bind fun starred => (moves_starPattern hr).bind fun first => ?_
  refine (moves_commaTail still_atStarPattern.moves (moves_starPattern hr) first).bind fun r => ?_
  refine .ite ?_ (moves_pure _)
  exact (moves_guard _).bind fun _ => moves_pure _

end Patterns

/-! ## Simple statements -/

section Simple

theorem moves_modulePath (rules : Rules) : Moves (modulePath rules) :=
  moves_identifier.bind fun _ => (moves_many (moves_accept _) moves_identifier).bind fun _ =>
    moves_pure _

theorem moves_asName : Moves asName :=
  (moves_accept _).bind fun _ => .ite (moves_identifier.bind fun _ => moves_pure _) (moves_pure _)

theorem moves_importedModule (rules : Rules) : Moves (importedModule rules) :=
  (moves_modulePath rules).bind fun _ => moves_asName.bind fun _ => moves_pure _

theorem moves_importedName : Moves importedName :=
  moves_identifier.bind fun _ => moves_asName.bind fun _ => moves_pure _

theorem still_atIdentifier : Still atIdentifier := by
  refine still_peek_bind fun k => ?_
  split <;> exact still_pure _

theorem moves_relativeLevel (rules : Rules) : Moves (relativeLevel rules) := by
  refine moves_iterate (fun level => (moves_accept _).bind fun _ => .ite (moves_pure _) ?_) _ _
  exact (moves_accept _).bind fun _ => .ite (moves_pure _) (moves_pure _)

theorem moves_importedNames (rules : Rules) : Moves (importedNames rules) := by
  refine (moves_accept _).bind fun _ => .ite (moves_pure _) ?_
  refine (moves_accept _).bind fun inParens => moves_importedName.bind fun first => ?_
  refine (moves_commaTail still_atIdentifier.moves moves_importedName first).bind fun r => ?_
  refine .ite ?_ ?_
  · exact (moves_expect _).bind fun _ => moves_pure _
  · exact (moves_guard _).bind fun _ => moves_pure _

theorem moves_commaSeparated {rules : Rules} {item : Parser α} (hitem : Moves item) :
    Moves (commaSeparated rules item) :=
  hitem.bind fun _ => (moves_many (moves_accept _) hitem).bind fun _ => moves_pure _

/-- The parser reads a plain statement. -/
def ReadsPlain (p : Parser Stmt) : Prop :=
  ∀ c, Ensures p c (fun s d => s.isPlain = true ∧ c.Advances d)

theorem Moves.readsPlain {p : Parser α} {f : α → Parser Stmt} (hp : Moves p)
    (hf : ∀ a, ReadsPlain (f a)) : ReadsPlain (p >>= f) :=
  fun c => (hp c).bind fun a d hcd => (hf a d).mono fun _ _ hs => ⟨hs.1, hcd.trans hs.2⟩

theorem ReadsPlain.ite {b : Prop} [Decidable b] {q : Parser Stmt} (hp : ReadsPlain p)
    (hq : ReadsPlain q) : ReadsPlain (if b then p else q) := by
  split
  · exact hp
  · exact hq

theorem readsPlain_pure {s : Stmt} (hs : s.isPlain = true) : ReadsPlain (pure s) :=
  fun c => ensures_pure ⟨hs, .refl c⟩

/-- The extent of a plain statement does not matter. -/
theorem readsPlain_since {start : Position} {f : Extent → Stmt} (h : ∀ x, (f x).isPlain = true) :
    ReadsPlain (do return f (← since start)) :=
  (moves_since start).readsPlain fun x => readsPlain_pure (h x)

theorem readsPlain_importFrom (rules : Rules) (start : Position) :
    ReadsPlain (importFrom rules start) := by
  have hrest : ∀ level (path : Option String), ReadsPlain (do
      guard (path.isSome || 0 < level)
      expect (.reserved "import")
      let names ← importedNames rules
      return .importFrom (← since start) path names level) := fun level path =>
    (moves_guard _).readsPlain fun _ => (moves_expect _).readsPlain fun _ =>
      (moves_importedNames rules).readsPlain fun names => readsPlain_since fun _ => rfl
  refine (moves_relativeLevel rules).readsPlain fun level => ?_
  refine still_atIdentifier.moves.readsPlain fun _ => .ite ?_ (hrest level none)
  refine (moves_modulePath rules).readsPlain fun path => ?_
  exact (moves_pure _).readsPlain (hrest level)

variable {rules : Rules} (hr : rules.Sound)

include hr

theorem moves_assignedValue : Moves (assignedValue rules) := by
  refine (still_nextIs _).moves.bind fun _ => .ite ?_ hr.moves_starExpressions
  exact fun c => (ensures_yieldExpr hr c).mono fun _ _ h => h.advances

theorem readsPlain_annotated (start : Position) (target : Expr) (simple : Bool) :
    ReadsPlain (annotated rules start target simple) := by
  refine (moves_expect _).readsPlain fun _ => hr.moves_expression.readsPlain fun note => ?_
  have hrest : ∀ value, ReadsPlain (do
      return .annAssign (← since start) target note value simple) := fun value =>
    readsPlain_since fun _ => rfl
  refine (moves_accept _).readsPlain fun _ => .ite ?_ (hrest none)
  exact (moves_assignedValue hr).readsPlain fun value => (moves_pure _).readsPlain hrest

theorem readsPlain_assignment (start : Position) (first : Expr) :
    ReadsPlain (assignment rules start first) := by
  refine (moves_iterate ?_ _ _).readsPlain fun r => readsPlain_since fun _ => rfl
  rintro ⟨targets, value⟩
  refine (moves_accept _).bind fun _ => .ite ?_ (moves_pure _)
  exact (moves_guard _).bind fun _ => (moves_assignedValue hr).bind fun _ => moves_pure _

theorem readsPlain_expressionStatement : ReadsPlain (expressionStatement rules) := by
  refine moves_here.readsPlain fun start => moves_peek.readsPlain fun k => ?_
  refine moves_peekSecond.readsPlain fun l => ?_
  split
  · refine moves_take.readsPlain fun _ => (moves_since start).readsPlain fun x => ?_
    exact readsPlain_annotated hr _ _ _
  · refine Moves.readsPlain ?_ fun e => readsPlain_since fun _ => rfl
    exact fun c => (ensures_yieldExpr hr c).mono fun _ _ h => h.advances
  · refine hr.moves_starExpressions.readsPlain fun e => still_peekOp.moves.readsPlain fun o => ?_
    split
    · exact readsPlain_assignment hr _ _
    · exact (moves_guard _).readsPlain fun _ => readsPlain_annotated hr _ _ _
    · split
      · refine (moves_guard _).readsPlain fun _ => moves_take.readsPlain fun _ => ?_
        exact (moves_assignedValue hr).readsPlain fun value => readsPlain_since fun _ => rfl
      · exact readsPlain_since fun _ => rfl

theorem readsPlain_simpleStatement : ReadsPlain (simpleStatement rules) := by
  refine moves_here.readsPlain fun start => moves_peek.readsPlain fun k => ?_
  split
  · refine moves_take.readsPlain fun _ => still_atStarExpression.moves.readsPlain fun _ =>
      .ite ?_ ?_
    · refine hr.moves_starExpressions.readsPlain fun e => (moves_pure _).readsPlain fun value => ?_
      exact readsPlain_since fun _ => rfl
    · exact (moves_pure _).readsPlain fun value => readsPlain_since fun _ => rfl
  · refine moves_take.readsPlain fun _ => ?_
    refine (moves_commaSeparated (moves_importedModule rules)).readsPlain fun names => ?_
    exact readsPlain_since fun _ => rfl
  · exact moves_take.readsPlain fun _ => readsPlain_importFrom rules start
  · refine moves_take.readsPlain fun _ => still_atExpression.moves.readsPlain fun _ => .ite ?_ ?_
    · refine hr.moves_expression.readsPlain fun value => (moves_accept _).readsPlain fun _ =>
        .ite ?_ ?_
      · refine hr.moves_expression.readsPlain fun e => (moves_pure _).readsPlain fun cause => ?_
        exact readsPlain_since fun _ => rfl
      · exact (moves_pure _).readsPlain fun cause => readsPlain_since fun _ => rfl
    · exact readsPlain_since fun _ => rfl
  · exact moves_take.readsPlain fun _ => readsPlain_since fun _ => rfl
  · have hprimary : Moves (rules.parse .primary) :=
      fun c => (hr.primary c).mono fun _ _ h => h.advances
    refine moves_take.readsPlain fun _ => hprimary.readsPlain fun first => ?_
    refine (moves_commaTail still_atExpression.moves hprimary first).readsPlain fun r => ?_
    exact (moves_guard _).readsPlain fun _ => readsPlain_since fun _ => rfl
  · refine moves_take.readsPlain fun _ => hr.moves_expression.readsPlain fun test => ?_
    refine (moves_accept _).readsPlain fun _ => .ite ?_ ?_
    · refine hr.moves_expression.readsPlain fun e => (moves_pure _).readsPlain fun message => ?_
      exact readsPlain_since fun _ => rfl
    · exact (moves_pure _).readsPlain fun message => readsPlain_since fun _ => rfl
  · exact moves_take.readsPlain fun _ => readsPlain_since fun _ => rfl
  · exact moves_take.readsPlain fun _ => readsPlain_since fun _ => rfl
  · refine moves_take.readsPlain fun _ => ?_
    exact (moves_commaSeparated moves_identifier).readsPlain fun names =>
      readsPlain_since fun _ => rfl
  · refine moves_take.readsPlain fun _ => ?_
    exact (moves_commaSeparated moves_identifier).readsPlain fun names =>
      readsPlain_since fun _ => rfl
  · exact readsPlain_expressionStatement hr

/-- The statements of a line are plain, and the line is taken with its end. -/
theorem ensures_simpleLine (c : Cursor) :
    Ensures (simpleLine rules) c (fun stmts d => (∀ s ∈ stmts, s.isPlain = true) ∧
      c.EndsLine d) := by
  refine (readsPlain_simpleStatement hr c).bind fun first d hfirst => ?_
  refine Ensures.bind (R := fun r e => (∀ s ∈ r.1, s.isPlain = true) ∧ c.Advances e) ?_ ?_
  · refine ensures_iterate (fun r e => (∀ s ∈ r.1, s.isPlain = true) ∧ c.Advances e) ?_ rules.bound
      ⟨by simpa using hfirst.1, hfirst.2⟩
    rintro ⟨seen, more⟩ e ⟨hseen, hce⟩
    dsimp only
    split
    · exact ensures_pure ⟨hseen, hce⟩
    refine accept_ite (fun t f ht _ => ?_) (ensures_pure ⟨hseen, hce⟩)
    have hcf := hce.trans ht.advances
    refine (still_nextIs _).ite (ensures_pure ⟨hseen, hcf⟩) ?_
    refine (readsPlain_simpleStatement hr f).bind fun s g hs => ensures_pure ⟨?_, hcf.trans hs.2⟩
    simpa using ⟨hs.1, hseen⟩
  · rintro ⟨seen, more⟩ e ⟨hseen, hce⟩
    refine expect_bind fun t f ht hk => ensures_pure ⟨?_, e, t, hce, ht, hk⟩
    simpa using hseen

end Simple

/-! ## Compound statements -/

section Compound

variable {rules : Rules} (hr : rules.Reads) (c : Cursor)

/-- A plain statement that takes up whole lines. -/
abbrev PlainLines (c : Cursor) (s : Stmt) (d : Cursor) : Prop :=
  s.isPlain = true ∧ c.Ends d

/-- Items that take up whole lines do so together. -/
theorem lines_many {more : Parser Bool} {item : Parser α} (hmore : Still more)
    (hitem : ∀ c, Ensures item c (fun _ d => c.Lines d)) :
    Ensures (many rules more item) c (fun _ d => c.Lines d) := by
  refine ensures_many_of (.refl c) fun _ d hcd => (hmore d).mono ?_
  rintro b e rfl
  cases b with
  | true => exact (hitem e).mono fun _ _ hde => hcd.trans hde
  | false => exact hcd

include hr

theorem ensures_body :
    Ensures (body rules) c (fun stmts d => ∃ b, c.EndsLine b ∧ StmtsRead b stmts d) := by
  refine expect_bind fun t d ht _ => (hr.block d).mono ?_
  rintro stmts e ⟨b, hdb, hstmts⟩
  exact ⟨b, hdb.of_advances ht.advances, hstmts⟩

theorem ends_body : Ensures (body rules) c (fun _ d => c.Ends d) :=
  (ensures_body hr c).mono fun _ _ ⟨b, hcb, hstmts⟩ => ⟨b, hcb, hstmts.lines⟩

theorem lines_bodyAfter (word : String) :
    Ensures (bodyAfter rules word) c (fun _ d => c.Lines d) := by
  refine accept_ite (fun t d ht _ => ?_) (ensures_pure (.refl c))
  exact (ends_body hr d).mono fun _ e hde => (hde.of_advances ht.advances).lines

theorem lines_elifBranches : Ensures (elifBranches rules) c (fun _ d => c.Lines d) := by
  refine lines_many c (still_nextIs _) fun c => here_bind (take_bind fun t d ht => ?_)
  refine (ensures_named hr.toSound d).bind fun test e htest => ?_
  refine (ends_body hr e).bind fun block f hef => ensures_pure ?_
  exact (hef.of_advances (ht.advances.trans htest.advances)).lines

theorem plainLines_ifStatement : Ensures (ifStatement rules) c (PlainLines c) := by
  refine here_bind (expect_bind fun t d ht _ => ?_)
  refine (ensures_named hr.toSound d).bind fun test e htest => ?_
  refine (ends_body hr e).bind fun block f hef => ?_
  refine (lines_elifBranches hr f).bind fun branches g hfg => ?_
  refine (lines_bodyAfter hr g _).bind fun last h hgh => since_bind (ensures_pure ⟨rfl, ?_⟩)
  exact (hef.of_advances (ht.advances.trans htest.advances)).trans (hfg.trans hgh)

theorem plainLines_whileStatement : Ensures (whileStatement rules) c (PlainLines c) := by
  refine here_bind (expect_bind fun t d ht _ => ?_)
  refine (ensures_named hr.toSound d).bind fun test e htest => ?_
  refine (ends_body hr e).bind fun block f hef => ?_
  refine (lines_bodyAfter hr f _).bind fun orElse g hfg => since_bind (ensures_pure ⟨rfl, ?_⟩)
  exact (hef.of_advances (ht.advances.trans htest.advances)).trans hfg

theorem plainLines_forStatement (start : Position) (isAsync : Bool) :
    Ensures (forStatement rules start isAsync) c (PlainLines c) := by
  refine expect_bind fun t d ht _ => ?_
  refine (ensures_starTargets hr.toSound d).bind fun target e htarget =>
    expect_bind fun u f hu _ => ?_
  refine (ensures_starExpressions hr.toSound f).bind fun iter g hiter => ?_
  refine (ends_body hr g).bind fun block h hgh => ?_
  refine (lines_bodyAfter hr h _).bind fun orElse i hhi => since_bind (ensures_pure ⟨rfl, ?_⟩)
  refine (hgh.of_advances ?_).trans hhi
  exact ht.advances.trans (htarget.advances.trans (hu.advances.trans hiter.advances))

theorem moves_withItem : Moves (withItem rules) := by
  refine hr.moves_expression.bind fun value => (moves_accept _).bind fun _ => .ite ?_ (moves_pure _)
  refine Moves.bind ?_ fun target => moves_pure _
  exact fun c => (ensures_starTarget hr.toSound c).mono fun _ _ h => h.advances

theorem moves_withItemsInParens : Moves (withItemsInParens rules) := by
  refine (moves_expect _).bind fun _ => (moves_withItem hr).bind fun first => ?_
  refine (moves_commaTail still_atExpression.moves (moves_withItem hr) first).bind fun r => ?_
  exact (moves_expect _).bind fun _ => (moves_expect _).bind fun _ => moves_pure _

theorem moves_withItems : Moves (withItems rules) :=
  (moves_commaSeparated (moves_withItem hr)).bind fun _ => (moves_expect _).bind fun _ =>
    moves_pure _

theorem plainLines_withStatement (start : Position) (isAsync : Bool) :
    Ensures (withStatement rules start isAsync) c (PlainLines c) := by
  refine expect_bind fun t d ht _ => ?_
  refine ((moves_withItemsInParens hr).orElse (moves_withItems hr) d).bind fun items e hde => ?_
  refine (hr.block e).bind ?_
  rintro block f ⟨b, heb, hblock⟩
  refine since_bind (ensures_pure ⟨rfl, Ends.of_advances (ht.advances.trans hde) ?_⟩)
  exact ⟨b, heb, hblock.lines⟩

theorem ends_handler (isGroup : Bool) :
    Ensures (handler rules isGroup) c (fun _ d => c.Ends d) := by
  have hrest : ∀ d, c.Advances d → Ensures (do
      if !isGroup && (← nextIs (.op ":")) then return ⟨none, none, ← body rules⟩
      else
        let type ← rules.parse .expression
        let name ← asName
        return ⟨some type, name, ← body rules⟩ : Parser Handler) d (fun _ e => c.Ends e) := by
    intro d hcd
    refine (still_nextIs _).bind fun _ => ?_
    split
    · exact (ends_body hr d).bind fun block e hde => ensures_pure (hde.of_advances hcd)
    · refine (hr.moves_expression d).bind fun type e hde =>
        (moves_asName e).bind fun name f hef => ?_
      refine (ends_body hr f).bind fun block g hfg => ensures_pure ?_
      exact hfg.of_advances (hcd.trans (hde.trans hef))
  refine expect_bind fun t d ht _ => ?_
  dsimp only
  split
  · exact expect_bind fun u e hu _ => hrest e (ht.advances.trans hu.advances)
  · exact hrest d ht.advances

theorem plainLines_tryStatement : Ensures (tryStatement rules) c (PlainLines c) := by
  refine here_bind (expect_bind fun t d ht _ => (ends_body hr d).bind fun block e hde => ?_)
  refine peekSecond_bind fun k => ?_
  refine (lines_many e (still_nextIs _) fun c => ?_).bind fun handlers f hef => ?_
  · exact (ends_handler hr c _).mono fun _ _ hends => hends.lines
  have hce : c.Ends f := (hde.of_advances ht.advances).trans hef
  have hrest : ∀ orElse g, f.Lines g → Ensures (do
      let hasLast ← nextIs (.reserved "finally")
      guard (hasLast || !handlers.isEmpty)
      let atEnd ← bodyAfter rules "finally"
      return .try (← since c.pos) (decide (k = .op "*") && !handlers.isEmpty) block handlers orElse
        atEnd) g (PlainLines c) := by
    intro orElse g hfg
    refine (still_nextIs _).bind fun _ => guard_bind fun _ => ?_
    refine (lines_bodyAfter hr g _).bind fun atEnd h hgh => since_bind (ensures_pure ⟨rfl, ?_⟩)
    exact hce.trans (hfg.trans hgh)
  dsimp only
  split
  · rw [pure_bind]
    exact hrest [] f (.refl f)
  · exact (lines_bodyAfter hr f _).bind fun orElse g hfg => hrest orElse g hfg

theorem ends_caseBlock : Ensures (caseBlock rules) c (fun _ d => c.Ends d) := by
  refine expect_bind fun t d ht _ => (moves_casePattern hr d).bind fun p e hde => ?_
  have hbody : ∀ (condition : Option Expr) f, c.Advances f → Ensures (do
      return (⟨p, condition, ← body rules⟩ : MatchCase)) f (fun _ g => c.Ends g) := by
    intro condition f hcf
    exact (ends_body hr f).bind fun block g hfg => ensures_pure (hfg.of_advances hcf)
  have hce := ht.advances.trans hde
  refine accept_ite (fun u f hu _ => ?_) ?_
  · refine (ensures_named hr.toSound f).bind fun condition g hcondition => ?_
    rw [pure_bind]
    exact hbody _ g (hce.trans (hu.advances.trans hcondition.advances))
  · rw [pure_bind]
    exact hbody _ e hce

theorem moves_matchSubject : Moves (matchSubject rules) := by
  have hitem : Moves (displayItem rules) := fun c =>
    (ensures_displayItem hr.toSound c).mono fun _ _ h => h.advances
  refine moves_here.bind fun start => hitem.bind fun first => ?_
  refine (moves_commaTail still_atStarExpression.moves hitem first).bind fun r => .ite ?_ ?_
  · exact (moves_guard _).bind fun _ => moves_pure _
  · exact (moves_since start).bind fun x => moves_pure _

theorem plainLines_matchStatement : Ensures (matchStatement rules) c (PlainLines c) := by
  refine here_bind (expect_bind fun t d ht _ => ?_)
  refine (moves_matchSubject hr d).bind fun subject e hde => expect_bind fun u f hu _ => ?_
  refine expect_bind fun v g hv hnewline => expect_bind fun w h hw hindent => ?_
  refine (lines_many h (still_nextIs _) fun c => ?_).bind fun cases i hi => ?_
  · exact (ends_caseBlock hr c).mono fun _ _ hends => hends.lines
  refine guard_bind fun _ => expect_bind fun x j hx hdedent => since_bind (ensures_pure ⟨rfl, ?_⟩)
  refine ⟨g, ⟨f, v, ht.advances.trans (hde.trans hu.advances), hv, hnewline⟩, ?_⟩
  have hgh : g.Lines h := .layout (.refl g) hw (hindent ▸ rfl)
  exact (hgh.trans hi).layout hx (hdedent ▸ rfl)

end Compound

/-! ## Functions and classes -/

section Definitions

variable {rules : Rules} (hr : rules.Reads)

include hr

/-- A function behind its decorators. The cursor `k` stands at its first word. -/
theorem ensures_functionDef {c : Cursor} (isAsync : Bool)
    (hdecorators : Decorated a decorators k) (hkc : k.Advances c) :
    Ensures (functionDef rules k.pos isAsync decorators) c (fun s d => StmtsRead a [s] d) := by
  refine expect_bind fun t d ht hk => identifier_bind fun name u e plain hu _ => ?_
  refine expect_bind fun v f hv _ =>
    (ensures_parameters hr.toSound false _ f).bind fun ps g hps => ?_
  refine expect_bind fun w h hw _ => ?_
  have hkf : k.Past f :=
    hkc.past ((ht.past (hk ▸ rfl)).trans (hu.advances.trans hv.advances))
  have hrest : ∀ (returns : Option Expr) i, h.Advances i → Ensures (do
      let block ← body rules
      return .functionDef (← since k.pos) isAsync name ps block decorators returns) i
      (fun s d => StmtsRead a [s] d) := by
    intro returns i hhi
    refine (ensures_body hr i).bind ?_
    rintro block j ⟨b, hib, hblock⟩
    refine since_bind
      (ensures_pure (.functionDef hdecorators hkf hps ?_ (.skip hblock.lines (.nil j))))
    exact hib.of_advances (hw.advances.trans hhi)
  refine accept_ite (fun x i hx _ => ?_) ?_
  · refine (hr.expression i).bind fun returns j hreturns => ?_
    rw [pure_bind]
    exact hrest _ j (hx.advances.trans hreturns.advances)
  · rw [pure_bind]
    exact hrest _ h (.refl h)

/-- A class behind its decorators. -/
theorem ensures_classDef (hdecorators : Decorated a decorators k) :
    Ensures (classDef rules decorators) k (fun s d => StmtsRead a [s] d) := by
  refine here_bind (expect_bind fun t d ht hk => identifier_bind fun name u e plain hu _ => ?_)
  have hke : k.Past e := (ht.past (hk ▸ rfl)).trans hu.advances
  have hrest : ∀ (args : ArgumentState) f, e.Advances f → Ensures (do
      let block ← body rules
      return .classDef (← since k.pos) name args.args.reverse args.keywords.reverse block
        decorators) f
      (fun s d => StmtsRead a [s] d) := by
    intro args f hef
    refine (ensures_body hr f).bind ?_
    rintro block g ⟨b, hfb, hblock⟩
    refine since_bind (ensures_pure (.classDef hdecorators ?_ ?_ hblock rfl (.nil g)))
    · exact hke.trans (hef.trans hfb.advances)
    · exact hfb.of_advances (hke.advances.trans hef)
  refine accept_ite (fun v f hv _ => ?_) ?_
  · refine (ensures_arguments hr.toSound f _ _).bind fun args g hfg =>
      expect_bind fun w h hw _ => ?_
    rw [pure_bind]
    exact hrest args h (hv.advances.trans (hfg.trans hw.advances))
  · rw [pure_bind]
    exact hrest _ e (.refl e)

/-- A decorator at its sign. -/
theorem ensures_decorator {c : Cursor} (hc : c.kind = .op "@") :
    Ensures (decorator rules) c (fun e g => ∃ t d f, c.Takes t d ∧ t.kind = .op "@" ∧ Parsed d e f ∧
      f.EndsLine g) := by
  refine take_bind fun t d ht => (ensures_named hr.toSound d).bind fun e f he => ?_
  refine expect_bind fun u g hu hnewline =>
    ensures_pure ⟨t, d, f, ht, ?_, he, f, u, .refl f, hu, hnewline⟩
  rw [← ht.kind, hc]

theorem ensures_decorators (c : Cursor) :
    Ensures (many rules (nextIs (.op "@")) (decorator rules)) c (Decorated c) := by
  refine ensures_many_of (.nil c) fun es k hes => ?_
  rw [← bind_pure (nextIs _)]
  refine nextIs_bind (ensures_pure ?_)
  by_cases hk : k.kind = .op "@"
  · rw [if_pos (decide_eq_true hk)]
    refine (ensures_decorator hr hk).mono ?_
    rintro e g ⟨t, d, f, ht, hsign, he, hline⟩
    exact hes.append_singleton ht hsign he hline
  · rw [if_neg (by simpa using hk)]
    exact hes

theorem ensures_asyncStatement (hdecorators : Decorated a decorators k) :
    Ensures (asyncStatement rules decorators) k (fun s d => StmtsRead a [s] d) := by
  refine here_bind (expect_bind fun t d ht _ => peek_bind ?_)
  have hplain : ∀ {s : Stmt} {e : Cursor}, PlainLines d s e → StmtsRead a [s] e := by
    rintro s e ⟨hs, hde⟩
    refine .of_plain (by simpa using hs) (hdecorators.lines.trans ?_)
    exact (hde.of_advances ht.advances).lines
  split
  · exact ensures_functionDef hr true hdecorators ht.advances
  · exact guard_bind fun _ => (plainLines_forStatement hr d _ _).mono fun _ _ => hplain
  · exact guard_bind fun _ => (plainLines_withStatement hr d _ _).mono fun _ _ => hplain
  · exact ensures_failure

theorem ensures_decorated (c : Cursor) :
    Ensures (decorated rules) c (fun s d => StmtsRead c [s] d) := by
  refine (ensures_decorators hr c).bind fun decorators k hdecorators => peek_bind ?_
  split
  · exact here_bind (ensures_functionDef hr false hdecorators (.refl k))
  · exact ensures_classDef hr hdecorators
  · exact ensures_asyncStatement hr hdecorators

end Definitions

/-! ## Blocks -/

section Blocks

variable {rules : Rules} (hr : rules.Reads) (c : Cursor)

theorem ensures_single (h : Ensures p c (fun s d => StmtsRead c [s] d)) :
    Ensures (statement.single p) c (StmtsRead c) :=
  h.bind fun _ _ hs => ensures_pure hs

theorem ensures_singlePlain (h : Ensures p c (PlainLines c)) :
    Ensures (statement.single p) c (StmtsRead c) :=
  ensures_single c (h.mono fun _ _ hs => .of_plain (by simpa using hs.1) hs.2.lines)

include hr

theorem ensures_statement : Ensures (statement rules) c (StmtsRead c) := by
  have hline : Ensures (simpleLine rules) c (StmtsRead c) :=
    (ensures_simpleLine hr.toSound c).mono fun _ _ h => .of_plain h.1 (.line h.2)
  refine peek_bind ?_
  split
  · exact ensures_singlePlain c (plainLines_ifStatement hr c)
  · exact ensures_singlePlain c (plainLines_whileStatement hr c)
  · exact ensures_singlePlain c (here_bind (plainLines_forStatement hr c _ _))
  · exact ensures_singlePlain c (here_bind (plainLines_withStatement hr c _ _))
  · exact ensures_singlePlain c (plainLines_tryStatement hr c)
  · exact ensures_single c (here_bind (ensures_functionDef hr false (.nil c) (.refl c)))
  · exact ensures_single c (ensures_classDef hr (.nil c))
  · exact ensures_single c (ensures_asyncStatement hr (.nil c))
  · exact ensures_single c (ensures_decorated hr c)
  · exact ensures_orElse (ensures_singlePlain c (plainLines_matchStatement hr c)) hline
  · exact hline

theorem ensures_statementsUpTo (close : TokenKind) :
    Ensures (statementsUpTo rules close) c (StmtsRead c) := by
  refine Ensures.bind (R := fun groups d => StmtsRead c groups.flatten d) ?_
    fun _ _ h => ensures_pure h
  refine ensures_many_of (.nil c) fun groups d hgroups => nextIs_bind (ensures_pure ?_)
  split
  · refine (ensures_statement hr d).mono fun stmts e hstmts => ?_
    rw [List.flatten_append, List.flatten_singleton]
    exact hgroups.append hstmts
  · exact hgroups

theorem ensures_block :
    Ensures (block rules) c (fun stmts d => ∃ b, c.EndsLine b ∧ StmtsRead b stmts d) := by
  refine accept_ite (fun t d ht hnewline => expect_bind fun u e hu hindent => ?_) ?_
  · refine (ensures_statementsUpTo hr e _).bind fun stmts f hstmts => ?_
    refine expect_bind fun v g hv hdedent => ensures_pure ⟨d, ⟨c, t, .refl c, ht, hnewline⟩, ?_⟩
    have hend : StmtsRead e (stmts ++ []) g :=
      hstmts.append (.skip (.layout (.refl f) hv (hdedent ▸ rfl)) (.nil g))
    rw [List.append_nil] at hend
    exact .skip (.layout (.refl d) hu (hindent ▸ rfl)) hend
  · -- statements behind the colon are plain, so that it does not matter where they are placed
    refine (ensures_simpleLine hr.toSound c).mono fun stmts d h => ⟨d, h.2, ?_⟩
    exact .of_plain h.1 (.refl d)

end Blocks

/-! ## Whole scripts -/

theorem still_field (rules : Rules) (source : List Char) (x : Extent) :
    Still (field rules source x) := by
  intro c e d h
  unfold field at h
  split at h
  · cases h
  · dsimp only at h
    split at h
    · exact (Prod.mk.inj (Option.some.inj h)).2.symm
    · cases h

/-- The rules place what they read, to every depth. -/
theorem reads_rule (depth : Nat) : (⟨depth, rule depth⟩ : Rules).Reads := by
  induction depth with
  | zero =>
    exact ⟨⟨fun _ => ensures_failure, fun _ => ensures_failure, fun _ => ensures_failure,
      fun _ => ensures_failure, fun _ _ _ => ensures_failure⟩, fun _ => ensures_failure,
        moves_failure⟩
  | succ depth ih =>
    exact ⟨⟨ensures_expression ih.toSound, ensures_inversion ih.toSound, ensures_factor ih.toSound,
      ensures_primary ih.toSound, still_field _⟩, ensures_block ih, moves_pattern ih⟩

/-- The statements of a script are read from its first token on. -/
theorem ensures_script (length : Nat) (c : Cursor) :
    Ensures (script (rulesFor length)) c (fun m d => StmtsRead c m.body d) :=
  (ensures_statementsUpTo (reads_rule _) c _).bind fun _ _ h => ensures_pure h

end Parser

/-- A parser that gives a result has read the tokens of the text. -/
theorem exists_tokens_of_run {α : Type} {p : Rules → Parser α} {prepare : List Char → List Char}
    {a : α} (h : (readable source >>= fun cs => Parser.run p (prepare cs)) = .ok a) :
    ∃ tokens d, tokenize (prepare source.toList) = some tokens ∧
      p (Parser.rulesFor (prepare source.toList).length) ⟨tokens, ⟨1, 0⟩⟩ = some (a, d) := by
  simp only [readable, bind, Except.bind] at h
  split at h
  · cases h
  next cs hcs =>
  split at hcs
  · obtain rfl := Except.ok.inj hcs
    unfold Parser.run at h
    split at h
    · cases h
    split at h
    · cases h
    next tokens htokens =>
    split at h
    · next d hrun =>
      obtain rfl := Except.ok.inj h
      exact ⟨tokens, d, htokens, hrun⟩
    · cases h
  · cases hcs

/-- A script that can be read is read from the first token of its text on. -/
theorem script_of_parseModule (h : parseModule source = .ok m) :
    ∃ c d length, c.Within (withFinalNewline (Text.unifyLineEnds source.toList)) ∧ c.last = ⟨1, 0⟩ ∧
      Parser.script (Parser.rulesFor length) c = some (m, d) := by
  unfold parseModule at h
  obtain ⟨tokens, d, htokens, hscript⟩ := exists_tokens_of_run h
  refine ⟨_, d, _, ?_, rfl, hscript⟩
  exact ⟨[], [], _, rfl, rfl, .inl rfl, .nil _, written_tokenize htokens⟩

/-- The statements of a script that can be read stand in its text. -/
theorem stmtsRead_parseModule (h : parseModule source = .ok m) :
    ∃ c d, c.Within (withFinalNewline (Text.unifyLineEnds source.toList)) ∧ c.last = ⟨1, 0⟩ ∧
      StmtsRead c m.body d := by
  obtain ⟨c, d, length, hwithin, hlast, hscript⟩ := script_of_parseModule h
  exact ⟨c, d, hwithin, hlast, ensures_script _ _ m d hscript⟩

/-- A text that can be read, with its tokens. -/
def IsTokenized (source : String) (tokens : List Token) : Prop :=
  readable source = .ok source.toList ∧
    (withFinalNewline (Text.unifyLineEnds source.toList)).contains '\x00' = false ∧
    tokenize (withFinalNewline (Text.unifyLineEnds source.toList)) = some tokens

instance (source : String) (tokens : List Token) : Decidable (IsTokenized source tokens) :=
  inferInstanceAs (Decidable (_ ∧ _ ∧ _))

/-- A script whose tokens are known is what its tokens are parsed as. -/
theorem parseModule_of_tokens (tokens : List Token) (h : IsTokenized source tokens)
    (hm : (Parser.script
      (Parser.rulesFor (withFinalNewline (Text.unifyLineEnds source.toList)).length)
      ⟨tokens, ⟨1, 0⟩⟩).map (·.1) = some m) :
    parseModule source = .ok m := by
  obtain ⟨hreadable, hnull, htokens⟩ := h
  obtain ⟨⟨_, d⟩, hscript, rfl⟩ := Option.map_eq_some_iff.mp hm
  simp only [parseModule, hreadable, bind, Except.bind, Parser.run, hnull, htokens, hscript,
    Bool.false_eq_true, if_false]

/-- A token on a line. -/
def tokenAt (line column length : Nat) (kind : TokenKind) : Token :=
  ⟨kind, ⟨⟨line, column⟩, ⟨line, column + length⟩⟩⟩

end Addon.Script
