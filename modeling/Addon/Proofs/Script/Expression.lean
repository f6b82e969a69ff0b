import Addon.Script.Parser.Expression
import Addon.Proofs.Script.Cursor

/-!
# Expression — where expressions stand among the tokens

An expression gets its extent from the tokens it was read from, except that parentheses around it do
not count. So its extent starts where the cursor stood behind some opening parentheses and ends with
a token that was taken later.

## The architecture

* **`Placed c x d`** — the extent `x` was taken between the cursors `c` and `d`.
* **`Parsed c e d`** — the expression `e` was read from `c` up to `d`: only parentheses come before
  it, and its items, if it is a tuple or an index with several parts, stand in a row inside it.
* **`Rules.Sound`** — the recursive rules place their expressions so. Every piece of the grammar
  does, given that the rules do; the knot is tied where the rules are.
-/

namespace Addon.Script

open Addon.Script.Parser Cursor

/-- The cursor moves over opening parentheses only. -/
inductive Cursor.Opens : Cursor → Cursor → Prop where
  | refl (c : Cursor) : c.Opens c
  | paren {c d e : Cursor} {t : Token} (h : c.Takes t d) (ht : t.kind = .op "(") (hde : d.Opens e) :
      c.Opens e

theorem Cursor.Opens.advances {c d : Cursor} (h : c.Opens d) : c.Advances d := by
  induction h with
  | refl c => exact .refl c
  | paren h _ _ ih => exact h.advances.trans ih

/-- The extent was taken between the two cursors. -/
def Placed (c : Cursor) (x : Extent) (d : Cursor) : Prop :=
  ∃ a b, c.Advances a ∧ a.Past b ∧ b.Advances d ∧ x = ⟨a.pos, b.last⟩

/-- The items of an expression that stand in a row inside it: those of a tuple, also when
the tuple is an index. -/
def Expr.itemsInside : Expr → List Expr
  | .tuple _ items => items
  | .subscript _ _ (.tuple _ items) => items
  | _ => []

/-- Expressions in a row. -/
abbrev PlacedItems : Cursor → List Expr → Cursor → Prop :=
  Chain fun c e d => Placed c e.extent d

/-- The expression was read between the two cursors. -/
def Parsed (c : Cursor) (e : Expr) (d : Cursor) : Prop :=
  ∃ a b, c.Opens a ∧ a.Past b ∧ b.Advances d ∧ e.extent = ⟨a.pos, b.last⟩ ∧
    PlacedItems a e.itemsInside b

namespace Parsed

variable {c d f : Cursor} {e : Expr}

theorem placed (h : Parsed c e d) : Placed c e.extent d := by
  obtain ⟨a, b, hca, hab, hbd, hextent, -⟩ := h
  exact ⟨a, b, hca.advances, hab, hbd, hextent⟩

theorem past (h : Parsed c e d) : c.Past d := by
  obtain ⟨a, b, hca, hab, hbd, -, -⟩ := h
  exact hca.advances.past (hab.trans hbd)

theorem advances (h : Parsed c e d) : c.Advances d :=
  h.past.advances

theorem trans (h : Parsed c e d) (hdf : d.Advances f) : Parsed c e f := by
  obtain ⟨a, b, hca, hab, hbd, hrest⟩ := h
  exact ⟨a, b, hca, hab, hbd.trans hdf, hrest⟩

/-- A node over the tokens that were taken. -/
theorem node (h : c.Past d) (hextent : e.extent = ⟨c.pos, d.last⟩) (hitems : e.itemsInside = []) :
    Parsed c e d :=
  ⟨c, d, .refl c, h, .refl d, hextent, hitems ▸ .nil h.advances⟩

theorem paren {t : Token} (h : c.Takes t d) (ht : t.kind = .op "(") (he : Parsed d e f) :
    Parsed c e f := by
  obtain ⟨a, b, hda, hrest⟩ := he
  exact ⟨a, b, .paren h ht hda, hrest⟩

/-- A tuple over its items. -/
theorem tuple {items : List Expr} (h : c.Past d) (hitems : Chain Parsed c items d) :
    Parsed c (.tuple ⟨c.pos, d.last⟩ items) d :=
  ⟨c, d, .refl c, h, .refl d, rfl, hitems.mono fun _ _ _ he => he.placed⟩

/-- An index, whose items are those of the index itself. -/
theorem subscript {b : Cursor} {value index : Expr} (hcb : c.Advances b) (hi : Parsed b index d)
    (hdf : d.Advances f) : Parsed c (.subscript ⟨c.pos, f.last⟩ value index) f := by
  have hpast : c.Past f := hcb.past (hi.past.trans hdf)
  refine ⟨c, f, .refl c, hpast, .refl f, rfl, ?_⟩
  obtain ⟨a, b', hba, -, hbd, -, hitems⟩ := hi
  cases index with
  | tuple x items =>
    exact (hitems.of_advances (hcb.trans hba.advances)).trans (hbd.trans hdf)
  | _ => exact .nil hpast.advances

end Parsed

/-- The parameter was read between the two cursors: its name, and its annotation if it has one. -/
def ParamParsed (c : Cursor) (p : Param) (d : Cursor) : Prop :=
  ∃ t b plain, c.Takes t b ∧ t.kind = .name p.name plain ∧ p.extent.start = c.pos ∧ b.Advances d ∧
    ∀ note ∈ Param.annotation p, ∃ a, b.Advances a ∧ Parsed a note d

theorem ParamParsed.advances {c d : Cursor} {p : Param} (h : ParamParsed c p d) : c.Advances d := by
  obtain ⟨t, b, plain, ht, -, -, hbd, -⟩ := h
  exact ht.advances.trans hbd

/-- Items that were read in a row were passed over. -/
theorem advances_of_parsed {c d : Cursor} {items : List Expr} (h : Chain Parsed c items d) :
    c.Advances d :=
  h.advances fun _ _ _ he => he.advances

/-- The recursive rules place their expressions. -/
structure Rules.Sound (rules : Rules) : Prop where
  expression : ∀ c, Ensures (rules.parse .expression) c (Parsed c)
  inversion : ∀ c, Ensures (rules.parse .inversion) c (Parsed c)
  factor : ∀ c, Ensures (rules.parse .factor) c (Parsed c)
  primary : ∀ c, Ensures (rules.parse .primary) c (Parsed c)
  field : ∀ source extent, Still (rules.parse (.field source extent))

namespace Parser

/-! ## Looking ahead -/

theorem still_atExpression : Still atExpression :=
  still_peek_bind fun _ => still_pure _

theorem still_atStarExpression : Still atStarExpression :=
  still_peek_bind fun _ => still_pure _

theorem still_atNamed : Still atNamed := by
  refine still_peek_bind fun k => ?_
  split
  · exact still_peekSecond_bind fun _ => still_pure _
  · exact still_pure _

theorem still_atClause : Still atClause :=
  still_peek_bind fun _ => still_pure _

theorem still_peekOp : Still peekOp := by
  refine still_peek_bind fun k => ?_
  split <;> exact still_pure _

theorem still_atDictItem : Still atDictItem :=
  still_peek_bind fun _ => still_pure _

theorem still_atKeyword : Still atKeyword := by
  refine still_peek_bind fun k => ?_
  split
  · exact still_peekSecond_bind fun _ => still_pure _
  · exact still_pure _

theorem still_atIndex : Still atIndex :=
  still_peek_bind fun _ => still_pure _

/-! ## Strings -/

/-- A part of a string has the extent of the string. -/
def IsPart (x : Extent) (e : Expr) : Prop :=
  e.extent = x ∧ e.itemsInside = []

theorem isPart_textPart (x : Extent) (marked : Bool) (cs : List Char) :
    ∀ e ∈ textPart x marked cs, IsPart x e := by
  unfold textPart
  split
  · simp
  · simp only [List.mem_singleton, forall_eq]
    exact ⟨rfl, rfl⟩

mutual

theorem ensures_partsOf {rules : Rules} (hr : rules.Sound) (x : Extent) (marked : Bool)
    (pieces : List Piece) (pending : List Char) (c : Cursor) :
    Ensures (partsOf rules x marked pieces pending) c (fun parts d =>
      d = c ∧ ∀ e ∈ parts, IsPart x e) := by
  match pieces with
  | [] =>
    unfold partsOf
    exact ensures_pure ⟨rfl, isPart_textPart x marked pending⟩
  | piece :: rest =>
    unfold partsOf
    refine (ensures_partOf hr x marked piece c).bind ?_
    rintro part d ⟨rfl, hpart⟩
    cases part with
    | inl cs => exact ensures_partsOf hr x marked rest (pending ++ cs) d
    | inr r =>
      obtain ⟨shown, field⟩ := r
      refine (ensures_partsOf hr x marked rest [] d).bind ?_
      rintro others e ⟨rfl, hothers⟩
      refine ensures_pure ⟨rfl, ?_⟩
      simp only [List.mem_append, List.mem_cons]
      rintro e (he | rfl | he)
      · exact isPart_textPart x marked _ e he
      · exact hpart _ _ rfl
      · exact hothers e he

theorem ensures_partOf {rules : Rules} (hr : rules.Sound) (x : Extent) (marked : Bool)
    (piece : Piece) (c : Cursor) :
    Ensures (partOf rules x marked piece) c (fun part d =>
      d = c ∧ ∀ shown e, part = .inr (shown, e) → IsPart x e) := by
  match piece with
  | .text cs =>
    unfold partOf
    exact ensures_pure ⟨rfl, by simp⟩
  | .field source shown conversion format =>
    unfold partOf
    refine (hr.field source x).bind fun value => ?_
    refine (ensures_formatOf hr x marked format c).bind ?_
    rintro spec d rfl
    refine ensures_pure ⟨rfl, ?_⟩
    rintro shown' e he
    obtain ⟨-, rfl⟩ := Prod.mk.inj (Sum.inr.inj he)
    exact ⟨rfl, rfl⟩

theorem ensures_formatOf {rules : Rules} (hr : rules.Sound) (x : Extent) (marked : Bool)
    (format : Option (List Piece)) (c : Cursor) :
    Ensures (formatOf rules x marked format) c (fun _ d => d = c) := by
  match format with
  | none =>
    unfold formatOf
    exact ensures_pure rfl
  | some pieces =>
    unfold formatOf
    refine (ensures_partsOf hr x marked pieces [] c).bind ?_
    rintro parts d ⟨rfl, -⟩
    exact ensures_pure rfl

end

section Pieces

variable {rules : Rules} (hr : rules.Sound) {c : Cursor}

/-- What can be computed without looking at tokens does not move. -/
theorem ensures_mapM {α β : Type} (f : α → Option β) (as : List α) (c : Cursor) :
    Ensures (as.mapM fun a => (liftM (f a) : Parser β)) c (fun bs d => d = c ∧
      as.mapM f = some bs) := by
  induction as with
  | nil => exact ensures_pure ⟨rfl, rfl⟩
  | cons a as ih =>
    rw [List.mapM_cons]
    have hlift : Ensures (liftM (f a) : Parser β) c (fun b d => d = c ∧ f a = some b) := by
      intro b d hb
      have hbind : (f a).bind (fun b => some (b, c)) = some (b, d) := hb
      obtain ⟨b', hfa, heq⟩ := Option.bind_eq_some_iff.mp hbind
      obtain ⟨rfl, rfl⟩ := Prod.mk.inj (Option.some.inj heq)
      exact ⟨rfl, hfa⟩
    refine hlift.bind ?_
    rintro b d ⟨rfl, hb⟩
    refine ih.bind ?_
    rintro bs d ⟨rfl, hbs⟩
    refine ensures_pure ⟨rfl, ?_⟩
    rw [List.mapM_cons, hb, hbs]
    rfl

theorem still_mapM {α β : Type} (f : α → Option β) (as : List α) :
    Still (as.mapM fun a => (liftM (f a) : Parser β)) :=
  fun c => (ensures_mapM f as c).mono fun _ _ h => h.1

theorem ensures_atString :
    Ensures atString c (fun b d => d = c ∧ (b = false → ∀ q, c.kind ≠ .quoted q)) := by
  refine peek_bind ?_
  split
  · exact ensures_pure ⟨rfl, fun h => absurd h Bool.noConfusion⟩
  · next hkind => exact ensures_pure ⟨rfl, fun _ => hkind⟩

theorem ensures_quotedToken : Ensures quotedToken c (fun _ d => c.Past d) := by
  refine peek_bind ?_
  split
  · next q hkind =>
    refine take_bind fun t d ht => ensures_pure (ht.past ?_)
    rw [← ht.kind, hkind]
    rfl
  · exact ensures_failure

/-- Where a string comes next, all adjacent strings are taken. -/
theorem ensures_quotedTokens {q : Quoted} (hc : c.kind = .quoted q) :
    Ensures (many rules atString quotedToken) c (fun _ d => c.Past d) := by
  refine Ensures.bind (R := fun _ d => c.Past d) ?_ fun _ d h => ensures_pure h
  -- before the first string the cursor has not moved, and there the loop goes on
  refine ensures_iterate (fun _ d => d = c ∨ c.Past d) ?_ rules.bound (.inl rfl)
  intro seen d hd
  refine ensures_atString.bind ?_
  rintro b _ ⟨rfl, hstop⟩
  cases b with
  | true =>
    rw [if_pos rfl]
    refine ensures_quotedToken.bind fun q e he => ensures_pure (.inr ?_)
    rcases hd with rfl | hd
    · exact he
    · exact hd.trans he.advances
  | false =>
    rw [if_neg Bool.false_ne_true]
    refine ensures_pure ?_
    rcases hd with rfl | hd
    · exact absurd hc (hstop rfl q)
    · exact hd

include hr in
/-- Adjacent strings are one node. -/
theorem ensures_strings {q : Quoted} (hc : c.kind = .quoted q) :
    Ensures (strings rules) c (Parsed c) := by
  refine here_bind ((ensures_quotedTokens hc).bind fun qs d hd => since_bind ?_)
  dsimp only
  split
  · exact (still_mapM _ qs).bind fun parts => ensures_pure (.node hd rfl rfl)
  split
  · exact ensures_failure
  refine (still_mapM _ qs).bind fun pieces => ?_
  refine (ensures_partsOf hr _ _ pieces.flatten [] d).bind ?_
  rintro parts d ⟨rfl, hparts⟩
  split
  · exact ensures_pure (.node hd rfl rfl)
  split
  · next part =>
    obtain ⟨hextent, hitems⟩ := hparts part (List.mem_singleton_self part)
    exact ensures_pure (.node hd hextent hitems)
  · exact ensures_pure (.node hd rfl rfl)

end Pieces

/-! ## Operators -/

section Operators

variable {rules : Rules} {operand : Parser Expr}

theorem ensures_leftGrouped {opOf : String → Option BinaryOp}
    (h : ∀ c, Ensures operand c (Parsed c)) (c : Cursor) :
    Ensures (leftGrouped rules opOf operand) c (Parsed c) := by
  refine here_bind ((h c).bind fun first d hfirst => ?_)
  refine ensures_iterate (Parsed c) ?_ rules.bound hfirst
  intro left e hleft
  refine still_peekOp.bind fun o => ?_
  split
  · refine take_bind fun t f ht => (h f).bind fun right g hright => since_bind (ensures_pure ?_)
    exact .node (hleft.past.trans (ht.advances.trans hright.advances)) rfl rfl
  · exact ensures_pure hleft

theorem ensures_connected {word : String} {op : BoolOp} (h : ∀ c, Ensures operand c (Parsed c))
    (c : Cursor) : Ensures (connected rules word op operand) c (Parsed c) := by
  refine here_bind ((h c).bind fun first d hfirst => ?_)
  refine (ensures_many (moves_accept _) h).bind fun others e hothers => ?_
  have hde := advances_of_parsed hothers
  split
  · exact ensures_pure (hfirst.trans hde)
  · exact since_bind (ensures_pure (.node (hfirst.past.trans hde) rfl rfl))

theorem ensures_taking (op : CompareOp) (c : Cursor) :
    Ensures (compareOp?.taking op) c (fun _ d => c.Advances d) :=
  take_bind fun _ _ ht => ensures_pure ht.advances

theorem ensures_compareOp? (c : Cursor) : Ensures compareOp? c (fun _ d => c.Advances d) := by
  refine peek_bind ?_
  split
  · exact ensures_taking _ c
  · exact ensures_taking _ c
  · exact ensures_taking _ c
  · exact ensures_taking _ c
  · exact ensures_taking _ c
  · exact ensures_taking _ c
  · exact ensures_taking _ c
  · refine take_bind fun t d ht => accept_ite (fun u e hu _ => ?_) (ensures_pure ht.advances)
    exact ensures_pure (ht.advances.trans hu.advances)
  · refine peekSecond_bind fun k => ?_
    split
    · refine take_bind fun t d ht => (ensures_taking _ d).mono fun _ e hde => ?_
      exact ht.advances.trans hde
    · exact ensures_pure (.refl c)
  · exact ensures_pure (.refl c)

variable (hr : rules.Sound) (c : Cursor)

include hr

theorem ensures_bitwiseOr : Ensures (bitwiseOr rules) c (Parsed c) :=
  ensures_leftGrouped (ensures_leftGrouped (ensures_leftGrouped (ensures_leftGrouped
    (ensures_leftGrouped (ensures_leftGrouped hr.factor))))) c

theorem ensures_disjunction : Ensures (disjunction rules) c (Parsed c) :=
  ensures_connected (ensures_connected hr.inversion) c

theorem ensures_named : Ensures (named rules) c (Parsed c) := by
  refine still_atNamed.ite ?_ (hr.expression c)
  refine here_bind (identifier_bind fun id t d plain ht hk => since_bind ?_)
  refine expect_bind fun u e hu _ => (hr.expression e).bind fun value f hf => ?_
  refine since_bind (ensures_pure ?_)
  exact .node ((ht.past (hk ▸ rfl)).trans (hu.advances.trans hf.advances)) rfl rfl

omit hr in
theorem ensures_tupleOf {more : Parser Bool} {item : Parser Expr} (hmore : Still more)
    (hitem : ∀ c, Ensures item c (Parsed c)) (c : Cursor) :
    Ensures (tupleOf rules more item) c (Parsed c) := by
  refine here_bind ((hitem c).bind fun first d hfirst => ?_)
  refine (ensures_commaTail hmore.moves hitem (fun _ _ _ he => he.advances) hfirst).bind ?_
  rintro ⟨items, trailing⟩ e ⟨hitems, hde⟩
  dsimp only
  split
  · exact ensures_pure (hfirst.trans hde)
  · exact since_bind (ensures_pure (.tuple (hfirst.past.trans hde) hitems))

theorem ensures_starOr {item : Parser Expr} (hitem : ∀ c, Ensures item c (Parsed c)) (c : Cursor) :
    Ensures (starOr rules item) c (Parsed c) := by
  refine here_bind (accept_ite (fun t d ht hk => ?_) (hitem c))
  refine (ensures_bitwiseOr hr d).bind fun value e he => since_bind (ensures_pure ?_)
  exact .node ((ht.past (hk ▸ rfl)).trans he.advances) rfl rfl

theorem ensures_starExpressions : Ensures (starExpressions rules) c (Parsed c) :=
  ensures_tupleOf still_atStarExpression (ensures_starOr hr hr.expression) c

theorem ensures_displayItem : Ensures (displayItem rules) c (Parsed c) :=
  ensures_starOr hr (ensures_named hr) c

end Operators

/-! ## Parameters -/

section Parameters

/-- The positional parameters read so far, in order. -/
def ParameterState.positional (s : ParameterState) : List Param :=
  s.positionalOnly.reverse ++ s.ordinary.reverse

/-- The positional parameters come in a row, and no more defaults than parameters. -/
def ParametersRead (a : Cursor) (ps : List Param) (defaults : List Expr) (b : Cursor) : Prop :=
  Chain ParamParsed a ps b ∧ defaults.length ≤ ps.length

variable {rules : Rules} (hr : rules.Sound)

include hr

theorem ensures_noteOf (mayStar : Bool) (c : Cursor) :
    Ensures ( annotation rules mayStar) c (fun note d =>
      c.Advances d ∧ ∀ e ∈ note, ∃ a, c.Advances a ∧ Parsed a e d) := by
  refine accept_ite (fun t d ht _ => here_bind ?_) (ensures_pure ⟨.refl c, by simp⟩)
  have hplain : Ensures (rules.parse .expression >>= fun e => pure (some e)) d (fun note e =>
      c.Advances e ∧ ∀ x ∈ note, ∃ a, c.Advances a ∧ Parsed a x e) := by
    refine (hr.expression d).bind fun x e hx => ensures_pure ⟨ht.advances.trans hx.advances, ?_⟩
    simp only [Option.mem_some_iff, forall_eq']
    exact ⟨d, ht.advances, hx⟩
  dsimp only
  split
  · refine accept_ite (fun u e hu hk => ?_) hplain
    refine (ensures_bitwiseOr hr e).bind fun value f hf => since_bind (ensures_pure ?_)
    have hstarred := (hu.past (hk ▸ rfl)).trans hf.advances
    refine ⟨ht.advances.trans hstarred.advances, ?_⟩
    simp only [Option.mem_some_iff, forall_eq']
    exact ⟨d, ht.advances, .node hstarred rfl rfl⟩
  · exact hplain

theorem ensures_param (isLambda mayStar : Bool) (c : Cursor) :
    Ensures (param rules isLambda mayStar) c (fun p d => ParamParsed c p d) := by
  refine here_bind (identifier_bind fun id t b plain ht hk => ?_)
  dsimp only
  split
  · rw [pure_bind]
    exact since_bind (ensures_pure ⟨t, b, plain, ht, hk, rfl, .refl b, by simp⟩)
  · refine (ensures_noteOf hr mayStar b).bind fun note d hnote => since_bind (ensures_pure ?_)
    exact ⟨t, b, plain, ht, hk, rfl, hnote.1, hnote.2⟩

theorem ensures_defaultValue (c : Cursor) :
    Ensures (defaultValue rules) c (fun _ d => c.Advances d) := by
  refine accept_ite (fun t d ht _ => ?_) (ensures_pure (.refl c))
  refine (hr.expression d).bind fun e f he => ensures_pure (ht.advances.trans he.advances)

/-- One more item keeps the positional parameters in a row. -/
theorem ensures_parameterItem {isLambda : Bool} {s : ParameterState} {b c : Cursor}
    (hs : ParametersRead b s.positional s.defaults c) :
    Ensures (parameterItem rules isLambda s) c (fun s' d =>
      ParametersRead b s'.positional s'.defaults d) := by
  obtain ⟨hs, hlength⟩ := hs
  refine guard_bind fun _ => peek_bind ?_
  split
  · -- a slash makes all parameters so far positional only
    refine take_bind fun t d ht => guard_bind fun hguard => ensures_pure ?_
    simp only [Bool.and_eq_true, List.isEmpty_iff] at hguard
    have hsame : s.positional = s.ordinary.reverse ++ [].reverse := by
      rw [ParameterState.positional, hguard.1.2]
      simp
    rw [hsame] at hs hlength
    exact ⟨hs.trans ht.advances, hlength⟩
  · refine take_bind fun t d ht => guard_bind fun _ => peek_bind ?_
    split
    · refine (ensures_param hr _ _ d).bind fun p e hp => ensures_pure ?_
      exact ⟨hs.trans (ht.advances.trans hp.advances), hlength⟩
    · exact ensures_pure ⟨hs.trans ht.advances, hlength⟩
  · refine take_bind fun t d ht => guard_bind fun _ => ?_
    refine (ensures_param hr _ _ d).bind fun p e hp => ensures_pure ?_
    exact ⟨hs.trans (ht.advances.trans hp.advances), hlength⟩
  · refine (ensures_param hr _ _ c).bind fun p d hp => ?_
    refine (ensures_defaultValue hr d).bind fun value e hde => ?_
    have hmore : Chain ParamParsed b (s.positionalOnly.reverse ++ (p :: s.ordinary).reverse) e := by
      rw [List.reverse_cons, ← List.append_assoc]
      exact (hs.append (.single hp)).trans hde
    split
    · exact ensures_pure ⟨hs.trans (hp.advances.trans hde), hlength⟩
    · simp only [ParameterState.positional, List.length_append, List.length_reverse] at hlength
      split
      · exact ensures_pure ⟨hmore, by simp [ParameterState.positional]; omega⟩
      · exact guard_bind fun _ => ensures_pure ⟨hmore, by simp [ParameterState.positional]; omega⟩

/-- The positional parameters of a list come in a row. -/
theorem ensures_parameters (isLambda : Bool) (close : TokenKind) (c : Cursor) :
    Ensures (parameters rules isLambda close) c (fun ps d =>
      ParametersRead c (ps.positionalOnly ++ ps.ordinary) ps.defaults d) := by
  refine Ensures.bind (R := fun r d => ParametersRead c r.1.positional r.1.defaults d) ?_ ?_
  · refine ensures_iterate (fun r d => ParametersRead c r.1.positional r.1.defaults d) ?_
      rules.bound
      ⟨.nil (.refl c), by simp⟩
    rintro ⟨s, more⟩ d hs
    refine (still_nextIs close).bind fun b => ?_
    split
    · exact ensures_pure hs
    · refine (ensures_parameterItem hr hs).bind fun s' e hs' => ?_
      exact (moves_accept _ e).bind fun b f hef => ensures_pure ⟨hs'.1.trans hef, hs'.2⟩
  · rintro ⟨s, more⟩ d hs
    refine guard_bind fun _ => (still_nextIs close).bind fun b => guard_bind fun _ =>
      ensures_pure ⟨hs.1, ?_⟩
    exact (List.length_reverse).trans_le hs.2

end Parameters

/-! ## Atoms -/

section Atoms

variable {rules : Rules} (hr : rules.Sound) (c : Cursor)

include hr

theorem ensures_starTarget : Ensures (starTarget rules) c (Parsed c) := by
  refine here_bind (accept_bind (fun t d ht hk => ?_) ?_)
  · refine (hr.primary d).bind fun value e hvalue => guard_bind fun _ => ?_
    exact since_bind (ensures_pure (.node ((ht.past (hk ▸ rfl)).trans hvalue.advances) rfl rfl))
  · exact (hr.primary c).bind fun value e hvalue => guard_bind fun _ => ensures_pure hvalue

theorem ensures_starTargets : Ensures (starTargets rules) c (Parsed c) :=
  ensures_tupleOf still_atStarExpression (ensures_starTarget hr) c

theorem ensures_clause : Ensures (clause rules) c (fun _ d => c.Advances d) := by
  refine (moves_accept _ c).bind fun isAsync d hcd => expect_bind fun t e ht _ => ?_
  refine (ensures_starTargets hr e).bind fun target f htarget => expect_bind fun u g hu _ => ?_
  refine (ensures_disjunction hr g).bind fun iter h hiter => ?_
  refine (ensures_many (moves_accept _) (ensures_disjunction hr)).bind fun conditions i hi => ?_
  refine ensures_pure (hcd.trans (ht.advances.trans (htarget.advances.trans ?_)))
  exact hu.advances.trans (hiter.advances.trans (advances_of_parsed hi))

theorem ensures_clauses : Ensures (clauses rules) c (fun _ d => c.Advances d) :=
  (ensures_many (R := fun c _ d => c.Advances d) still_atClause.moves (ensures_clause hr)).mono
    fun _ _ h => h.advances fun _ _ _ hcd => hcd

theorem ensures_yieldExpr : Ensures (yieldExpr rules) c (Parsed c) := by
  refine here_bind (expect_bind fun t d ht hk => ?_)
  have hpast : c.Past d := ht.past (hk ▸ rfl)
  refine accept_ite (fun u e hu _ => ?_) ?_
  · refine (hr.expression e).bind fun source f hsource => since_bind (ensures_pure ?_)
    exact .node (hpast.trans (hu.advances.trans hsource.advances)) rfl rfl
  · refine still_atStarExpression.ite ?_ (since_bind (ensures_pure (.node hpast rfl rfl)))
    refine (ensures_starExpressions hr d).bind fun e f he => since_bind (ensures_pure ?_)
    exact .node (hpast.trans he.advances) rfl rfl

/-- Items of a display with commas between them. -/
theorem ensures_displayItems {first : Expr} {d : Cursor} (hfirst : Parsed c first d) :
    Ensures (commaTail rules atStarExpression (displayItem rules) first) d
      (fun r e => Chain Parsed c r.1 e ∧ d.Advances e) :=
  ensures_commaTail still_atStarExpression.moves (ensures_displayItem hr)
    (fun _ _ _ he => he.advances) hfirst

theorem ensures_parenthesized : Ensures (parenthesized rules) c (Parsed c) := by
  refine here_bind (expect_bind fun t d ht hk => ?_)
  have hpast : c.Past d := ht.past (hk ▸ rfl)
  refine accept_ite (fun u e hu _ => since_bind (ensures_pure ?_)) ?_
  · exact .tuple (hpast.trans hu.advances) (.nil (hpast.trans hu.advances).advances)
  refine nextIs_ite (fun _ => ?_) ?_
  · refine (ensures_yieldExpr hr d).bind fun e f he => expect_bind fun u g hu _ => ensures_pure ?_
    exact .paren ht hk (he.trans hu.advances)
  refine (ensures_displayItem hr d).bind fun first e hfirst => still_atClause.ite ?_ ?_
  · refine guard_bind fun _ => (ensures_clauses hr e).bind fun cs f hcs => ?_
    refine expect_bind fun u g hu _ => since_bind (ensures_pure ?_)
    exact .node (hpast.trans (hfirst.advances.trans (hcs.trans hu.advances))) rfl rfl
  · refine (ensures_displayItems hr d hfirst).bind ?_
    rintro ⟨items, trailing⟩ f ⟨hitems, hef⟩
    refine expect_bind fun u g hu _ => ?_
    split
    · -- the parentheses leave no trace
      exact guard_bind fun _ => ensures_pure (.paren ht hk (hfirst.trans (hef.trans hu.advances)))
    · refine since_bind (ensures_pure (.tuple ?_ ?_))
      · exact hpast.trans (hfirst.advances.trans (hef.trans hu.advances))
      · exact (hitems.of_advances ht.advances).trans hu.advances

theorem ensures_bracketed : Ensures (bracketed rules) c (Parsed c) := by
  refine here_bind (expect_bind fun t d ht hk => ?_)
  have hpast : c.Past d := ht.past (hk ▸ rfl)
  refine accept_ite (fun u e hu _ => since_bind (ensures_pure ?_)) ?_
  · exact .node (hpast.trans hu.advances) rfl rfl
  refine (ensures_displayItem hr d).bind fun first e hfirst => still_atClause.ite ?_ ?_
  · refine guard_bind fun _ => (ensures_clauses hr e).bind fun cs f hcs => ?_
    refine expect_bind fun u g hu _ => since_bind (ensures_pure ?_)
    exact .node (hpast.trans (hfirst.advances.trans (hcs.trans hu.advances))) rfl rfl
  · refine (ensures_displayItems hr d hfirst).bind ?_
    rintro ⟨items, trailing⟩ f ⟨-, hef⟩
    refine expect_bind fun u g hu _ => since_bind (ensures_pure ?_)
    exact .node (hpast.trans (hfirst.advances.trans (hef.trans hu.advances))) rfl rfl

theorem ensures_dictItem : Ensures (dictItem rules) c (fun _ d => c.Advances d) := by
  refine accept_ite (fun t d ht _ => ?_) ?_
  · exact (ensures_bitwiseOr hr d).bind fun e f he => ensures_pure (ht.advances.trans he.advances)
  · refine (hr.expression c).bind fun key d hkey => expect_bind fun t e ht _ => ?_
    refine (hr.expression e).bind fun value f hvalue => ensures_pure ?_
    exact hkey.advances.trans (ht.advances.trans hvalue.advances)

theorem ensures_dictTail {b : Cursor} {first : DictItem} (hbc : b.Past c) :
    Ensures (dictTail rules b.pos first) c (Parsed b) := by
  refine (ensures_commaTail (R := fun c _ d => c.Advances d) (c := c) still_atDictItem.moves
    (ensures_dictItem hr) (fun _ _ _ h => h) (.refl c)).bind ?_
  rintro ⟨items, trailing⟩ d ⟨-, hcd⟩
  refine expect_bind fun t e ht _ => since_bind (ensures_pure ?_)
  exact .node (hbc.trans (hcd.trans ht.advances)) rfl rfl

theorem ensures_braced : Ensures (braced rules) c (Parsed c) := by
  refine here_bind (expect_bind fun t d ht hk => ?_)
  have hpast : c.Past d := ht.past (hk ▸ rfl)
  refine accept_ite (fun u e hu _ => since_bind (ensures_pure ?_)) ?_
  · exact .node (hpast.trans hu.advances) rfl rfl
  refine nextIs_ite (fun _ => ?_) ?_
  · exact (ensures_dictItem hr d).bind fun item e hde => ensures_dictTail hr e (hpast.trans hde)
  refine still_atNamed.bind fun isNamed => ?_
  refine (ensures_displayItem hr d).bind fun first e hfirst => ?_
  refine (moves_accept _ e).bind fun isDict f hef => ?_
  have hcf : c.Past f := hpast.trans (hfirst.advances.trans hef)
  split
  · refine (hr.expression f).bind fun value g hvalue => still_atClause.ite ?_ ?_
    · refine (ensures_clauses hr g).bind fun cs h hcs => expect_bind fun u i hu _ => ?_
      refine since_bind (ensures_pure ?_)
      exact .node (hcf.trans (hvalue.advances.trans (hcs.trans hu.advances))) rfl rfl
    · exact ensures_dictTail hr g (hcf.trans hvalue.advances)
  · refine still_atClause.ite ?_ ?_
    · refine guard_bind fun _ => (ensures_clauses hr f).bind fun cs g hcs => ?_
      refine expect_bind fun u h hu _ => since_bind (ensures_pure ?_)
      exact .node (hcf.trans (hcs.trans hu.advances)) rfl rfl
    · refine (ensures_displayItems hr d (hfirst.trans hef)).bind ?_
      rintro ⟨items, trailing⟩ g ⟨-, hfg⟩
      refine expect_bind fun u h hu _ => since_bind (ensures_pure ?_)
      exact .node (hcf.trans (hfg.trans hu.advances)) rfl rfl

end Atoms

/-! ## Calls and subscripts -/

section Calls

variable {rules : Rules} (hr : rules.Sound) (c : Cursor)

include hr

theorem ensures_argument (s : ArgumentState) :
    Ensures (argument rules s) c (fun _ d => c.Advances d) := by
  refine here_bind (still_atKeyword.ite ?_ ?_)
  · refine identifier_bind fun id t d plain ht _ => expect_bind fun u e hu _ => ?_
    refine (hr.expression e).bind fun value f hvalue => ensures_pure ?_
    exact ht.advances.trans (hu.advances.trans hvalue.advances)
  refine accept_ite (fun t d ht _ => ?_) ?_
  · exact (hr.expression d).bind fun value e hvalue =>
      ensures_pure (ht.advances.trans hvalue.advances)
  refine accept_ite (fun t d ht _ => guard_bind fun _ => ?_) ?_
  · refine (hr.expression d).bind fun value e hvalue => since_bind (ensures_pure ?_)
    exact ht.advances.trans hvalue.advances
  · exact guard_bind fun _ => (ensures_named hr c).bind fun value d hvalue =>
      ensures_pure hvalue.advances

theorem ensures_arguments (s : ArgumentState) (more : Bool) :
    Ensures (arguments rules s more) c (fun _ d => c.Advances d) := by
  refine Ensures.bind (R := fun _ d => c.Advances d) ?_ fun _ d hcd => ensures_pure hcd
  refine ensures_iterate (fun _ d => c.Advances d) ?_ rules.bound (.refl c)
  rintro ⟨s, more⟩ d hcd
  refine (still_nextIs _).bind fun b => ?_
  split
  · exact ensures_pure hcd
  · refine (ensures_argument hr d s).bind fun s' e hde => ?_
    exact (moves_accept _ e).bind fun b f hef => ensures_pure (hcd.trans (hde.trans hef))

theorem ensures_callOf {b : Cursor} {callee : Expr} (hbc : b.Past c) :
    Ensures (callOf rules b.pos callee) c (Parsed b) := by
  refine here_bind (expect_bind fun t d ht _ => ?_)
  have hbd : b.Past d := hbc.trans ht.advances
  refine nextIs_ite (fun _ => ?_) ?_
  · exact take_bind fun u e hu => since_bind (ensures_pure (.node (hbd.trans hu.advances) rfl rfl))
  refine (ensures_argument hr d _).bind fun s e hde => still_atClause.bind fun isClause => ?_
  split
  · refine (ensures_clauses hr e).bind fun cs f hcs => expect_bind fun u g hu _ => ?_
    split
    · refine since_bind (since_bind (ensures_pure ?_))
      exact .node (hbd.trans (hde.trans (hcs.trans hu.advances))) rfl rfl
    · exact ensures_failure
  · refine (moves_accept _ e).bind fun more f hef => ?_
    refine (ensures_arguments hr f s more).bind fun s' g hfg => expect_bind fun u h hu _ => ?_
    refine since_bind (ensures_pure ?_)
    exact .node (hbd.trans (hde.trans (hef.trans (hfg.trans hu.advances)))) rfl rfl

theorem ensures_sliceBound : Ensures (sliceBound rules) c (fun _ d => c.Advances d) := by
  refine still_atExpression.ite ?_ (ensures_pure (.refl c))
  exact (hr.expression c).bind fun e d he => ensures_pure he.advances

theorem ensures_sliceTail {b : Cursor} {lower : Option Expr} (hbc : b.Advances c) :
    Ensures (sliceTail rules b.pos lower) c (Parsed b) := by
  refine expect_bind fun t d ht hk => (ensures_sliceBound hr d).bind fun upper e hde => ?_
  have hbe : b.Past e := hbc.past ((ht.past (hk ▸ rfl)).trans hde)
  refine accept_ite (fun u f hu _ => ?_) ?_
  · refine (ensures_sliceBound hr f).bind fun step g hfg => since_bind (ensures_pure ?_)
    exact .node (hbe.trans (hu.advances.trans hfg)) rfl rfl
  · rw [pure_bind]
    exact since_bind (ensures_pure (.node hbe rfl rfl))

theorem ensures_index : Ensures (index rules) c (Parsed c) := by
  refine here_bind (nextIs_ite (fun _ => ensures_sliceTail hr c (.refl c)) ?_)
  refine accept_ite (fun t d ht hk => ?_) ?_
  · refine (hr.expression d).bind fun value e hvalue => since_bind (ensures_pure ?_)
    exact .node ((ht.past (hk ▸ rfl)).trans hvalue.advances) rfl rfl
  refine still_atNamed.ite (ensures_named hr c) ?_
  refine (hr.expression c).bind fun e d he => nextIs_ite (fun _ => ?_) (ensures_pure he)
  exact ensures_sliceTail hr d he.advances

theorem ensures_indices : Ensures (indices rules) c (Parsed c) := by
  refine here_bind ((ensures_index hr c).bind fun first d hfirst => ?_)
  refine (ensures_commaTail still_atIndex.moves (ensures_index hr) (fun _ _ _ he => he.advances)
    hfirst).bind ?_
  rintro ⟨items, trailing⟩ e ⟨hitems, hde⟩
  dsimp only
  split
  · exact ensures_pure (hfirst.trans hde)
  · exact since_bind (ensures_pure (.tuple (hfirst.past.trans hde) hitems))

end Calls

/-! ## Levels -/

section Levels

variable {rules : Rules} (hr : rules.Sound) (c : Cursor)

theorem ensures_constant {k : TokenKind} (hk : c.kind = k) (hsolid : k.isLayout = false)
    (value : Literal) : Ensures (atom.constant c.pos value) c (Parsed c) := by
  refine take_bind fun t d ht => since_bind (ensures_pure (.node (ht.past ?_) rfl rfl))
  rw [← ht.kind, hk, hsolid]

include hr

theorem ensures_atom : Ensures (atom rules) c (Parsed c) := by
  refine here_bind (peek_bind ?_)
  split
  · next id plain hkind =>
    refine take_bind fun t d ht => since_bind (ensures_pure (.node (ht.past ?_) rfl rfl))
    rw [← ht.kind, hkind]
    rfl
  · next hkind => exact ensures_constant c hkind rfl _
  · next hkind => exact ensures_strings hr hkind
  · next hkind => exact ensures_constant c hkind rfl _
  · next hkind => exact ensures_constant c hkind rfl _
  · next hkind => exact ensures_constant c hkind rfl _
  · next hkind => exact ensures_constant c hkind rfl _
  · exact ensures_parenthesized hr c
  · exact ensures_bracketed hr c
  · exact ensures_braced hr c
  · exact ensures_failure

theorem ensures_primary : Ensures (primary rules) c (Parsed c) := by
  refine here_bind ((ensures_atom hr c).bind fun first d hfirst => ?_)
  refine ensures_iterate (Parsed c) ?_ rules.bound hfirst
  intro e d he
  refine peek_bind ?_
  split
  · refine take_bind fun t f ht => identifier_bind fun attr u g plain hu _ => since_bind ?_
    exact ensures_pure (.node (he.past.trans (ht.advances.trans hu.advances)) rfl rfl)
  · exact (ensures_callOf hr d he.past).bind fun call f hcall => ensures_pure hcall
  · refine take_bind fun t f ht => (ensures_indices hr f).bind fun i g hi => ?_
    refine expect_bind fun u h hu _ => since_bind (ensures_pure ?_)
    exact .subscript (he.advances.trans ht.advances) hi hu.advances
  · exact ensures_pure he

theorem ensures_power : Ensures (power rules) c (Parsed c) := by
  have hexponent : ∀ {base : Expr} {d : Cursor}, Parsed c base d →
      Ensures (accept (.op "**") >>= fun r => if r = true then
          rules.parse .factor >>= fun exponent =>
            since c.pos >>= fun x => pure (.binary x base .pow exponent)
        else pure base) d (Parsed c) := by
    intro base d hbase
    refine accept_ite (fun t e ht _ => ?_) (ensures_pure hbase)
    refine (hr.factor e).bind fun exponent f hf => since_bind (ensures_pure ?_)
    exact .node (hbase.past.trans (ht.advances.trans hf.advances)) rfl rfl
  refine here_bind (accept_ite (fun t d ht hk => ?_) ?_)
  · refine (ensures_primary hr d).bind fun value e hvalue => since_bind ?_
    rw [pure_bind]
    exact hexponent (.node ((ht.past (hk ▸ rfl)).trans hvalue.advances) rfl rfl)
  · exact (ensures_primary hr c).bind fun base d hbase => hexponent hbase

theorem ensures_signed {k : TokenKind} (hk : c.kind = k) (hsolid : k.isLayout = false)
    (op : UnaryOp) :
    Ensures (factor.signed rules c.pos op) c (Parsed c) := by
  refine take_bind fun t d ht => (hr.factor d).bind fun operand e hoperand => since_bind ?_
  refine ensures_pure (.node ((ht.past ?_).trans hoperand.advances) rfl rfl)
  rw [← ht.kind, hk, hsolid]

theorem ensures_factor : Ensures (factor rules) c (Parsed c) := by
  refine here_bind (peek_bind ?_)
  split
  · next hkind => exact ensures_signed hr c hkind rfl _
  · next hkind => exact ensures_signed hr c hkind rfl _
  · next hkind => exact ensures_signed hr c hkind rfl _
  · exact ensures_power hr c

theorem ensures_comparison : Ensures (comparison rules) c (Parsed c) := by
  refine here_bind ((ensures_bitwiseOr hr c).bind fun left d hleft => ?_)
  refine Ensures.bind (R := fun _ e => d.Advances e) ?_ fun links e hde => ?_
  · refine ensures_iterate (fun _ e => d.Advances e) ?_ rules.bound (.refl d)
    intro seen e hde
    refine (ensures_compareOp? e).bind fun op f hef => ?_
    cases op with
    | some op =>
      refine (ensures_bitwiseOr hr f).bind fun right g hright => ensures_pure ?_
      exact hde.trans (hef.trans hright.advances)
    | none => exact ensures_pure (hde.trans hef)
  · split
    · exact ensures_pure (hleft.trans hde)
    · exact since_bind (ensures_pure (.node (hleft.past.trans hde) rfl rfl))

theorem ensures_inversion : Ensures (inversion rules) c (Parsed c) := by
  refine here_bind (accept_ite (fun t d ht hk => ?_) (ensures_comparison hr c))
  refine (hr.inversion d).bind fun operand e hoperand => since_bind (ensures_pure ?_)
  exact .node ((ht.past (hk ▸ rfl)).trans hoperand.advances) rfl rfl

theorem ensures_lambda : Ensures (lambda rules) c (Parsed c) := by
  refine here_bind (expect_bind fun t d ht hk => ?_)
  refine (ensures_parameters hr true _ d).bind fun ps e hps => expect_bind fun u f hu _ => ?_
  refine (hr.expression f).bind fun body g hbody => since_bind (ensures_pure (.node ?_ rfl rfl))
  refine (ht.past (hk ▸ rfl)).trans ((hps.1.advances fun _ _ _ hp => hp.advances).trans ?_)
  exact hu.advances.trans hbody.advances

theorem ensures_expression : Ensures (expression rules) c (Parsed c) := by
  refine here_bind (nextIs_ite (fun _ => ensures_lambda hr c) ?_)
  refine (ensures_disjunction hr c).bind fun body d hbody => ?_
  refine accept_ite (fun t e ht _ => ?_) (ensures_pure hbody)
  refine (ensures_disjunction hr e).bind fun test f htest => expect_bind fun u g hu _ => ?_
  refine (hr.expression g).bind fun orElse h horElse => since_bind (ensures_pure (.node ?_ rfl rfl))
  exact hbody.past.trans
    (ht.advances.trans (htest.advances.trans (hu.advances.trans horElse.advances)))

end Levels

end Parser

end Addon.Script
