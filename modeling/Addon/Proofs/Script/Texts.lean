import Addon.Proofs.Script.Parameters

/-!
# Texts — a text in an annotation is shorter than the source it is read from

An annotation can be written as text, and that text can hold texts again. Each of them stands
between quotes in the source of the one around it, and no escape stands for more characters than it
is written with. So the texts get shorter from one to the next.

## The architecture

* **`HasText e text`** — the text stands where an annotation can stand in `e`.
* **`Cursor.quotedLength`** — how much of the source the quoted strings behind a cursor take.
* **`length_unescape_le`** — no escape is shorter than what it stands for.
* **`findsBrief_strings`** — adjacent strings form a text that is shorter than
  they are, by their quotes.
* **`ReadsBrief`** — the recursive rules read expressions with such texts. Every piece
  of the grammar does, given that the rules do, and by induction on their depth all
  rules do (`readsBrief_rule`).
-/

namespace Addon.Script

open Addon.Script.Parser Cursor

variable {rest cs out : List Char}

/-! ## Texts of expressions and tokens -/

/-- The text stands where an annotation can stand: alone, in front of a subscript
or as its first index. -/
inductive HasText : Expr → String → Prop where
  | constant {x : Extent} {text : String} {marked : Bool} :
      HasText (.constant x (.str text marked)) text
  | value {x : Extent} {value index : Expr} {text : String} (h : HasText value text) :
      HasText (.subscript x value index) text
  | index {x : Extent} {value index : Expr} {text : String} (h : HasText index text) :
      HasText (.subscript x value index) text
  | first {x : Extent} {first : Expr} {rest : List Expr} {text : String} (h : HasText first text) :
      HasText (.tuple x (first :: rest)) text

/-- Every text in the expression leaves room for two quotes. -/
def Brief (room : Nat) (e : Expr) : Prop :=
  ∀ text, HasText e text → text.length + 2 ≤ room

theorem brief_subscript {room : Nat} {x : Extent} {value index : Expr} (hvalue : Brief room value)
    (hindex : Brief room index) : Brief room (.subscript x value index) := by
  intro text h
  cases h with
  | value h => exact hvalue text h
  | index h => exact hindex text h

theorem brief_tuple {room : Nat} {x : Extent} {items : List Expr} (h : ∀ e ∈ items, Brief room e) :
    Brief room (.tuple x items) := by
  intro text htext
  cases htext with
  | first hfirst => exact h _ List.mem_cons_self text hfirst

/-- How long a token is at least, so far as it can stand for a text. -/
def TokenKind.quotedLength : TokenKind → Nat
  | .quoted q => q.body.length + 2
  | .number (.str text _) => text.length + 2
  | _ => 0

theorem Spelled.quotedLength_le {kind : TokenKind} {w : List Char} (h : Spelled kind w rest) :
    kind.quotedLength ≤ w.length := by
  cases kind with
  | quoted q => exact h.2
  | number value =>
    cases value with
    | str text marked => cases h.2
    | _ => exact Nat.zero_le _
  | _ => exact Nat.zero_le _

/-- The same for a row of tokens. -/
def quotedLengthOf (ts : List Token) : Nat :=
  ts.foldr (fun t n => t.kind.quotedLength + n) 0

theorem quotedLengthOf_append (ts us : List Token) :
    quotedLengthOf (ts ++ us) = quotedLengthOf ts + quotedLengthOf us := by
  induction ts with
  | nil => exact (Nat.zero_add _).symm
  | cons t ts ih =>
    rw [List.cons_append, quotedLengthOf, List.foldr_cons, ← quotedLengthOf, ih, ← Nat.add_assoc]
    rfl

/-- Tokens stand side by side in the text. -/
theorem Written.quotedLengthOf_le {p : Position} {ts : List Token} (h : Written p cs ts) :
    quotedLengthOf ts ≤ cs.length := by
  induction h with
  | nil => exact Nat.zero_le _
  | @cons p gap w rest t ts hgap hw hstart hstop hrest ih =>
    have ht := hw.quotedLength_le
    rw [quotedLengthOf, List.foldr_cons, ← quotedLengthOf]
    simp only [List.length_append]
    omega

namespace Cursor

variable {c d : Cursor} {t : Token}

/-- How much of the source the quoted strings behind the cursor take. -/
def quotedLength (c : Cursor) : Nat :=
  quotedLengthOf c.rest

theorem Takes.quotedLength (h : c.Takes t d) :
    c.quotedLength = t.kind.quotedLength + d.quotedLength := by
  rw [Cursor.quotedLength, h.1]
  rfl

theorem Advances.quotedLength_le (h : c.Advances d) : d.quotedLength ≤ c.quotedLength := by
  obtain ⟨ts, hts, -⟩ := h
  rw [Cursor.quotedLength, Cursor.quotedLength, hts, quotedLengthOf_append]
  exact Nat.le_add_left _ _

end Cursor

/-! ## Escapes -/

theorem length_hexEscape_le {count n : Nat} (h : hexEscape count cs = some (n, rest)) :
    rest.length ≤ cs.length := by
  unfold hexEscape at h
  dsimp only at h
  split at h
  · cases h
    exact (List.drop_sublist count cs).length_le
  · cases h

/-- An escape, with its backslash, is no shorter than what it stands for. -/
theorem length_textEscape_le (h : textEscape cs = some (out, rest)) :
    out.length + rest.length ≤ cs.length + 1 := by
  have hone : ∀ {c : Char} {ds tail : List Char}, tail.length ≤ ds.length →
      [c].length + tail.length ≤ ds.length + 1 := by
    intro c ds tail hle
    rw [List.length_singleton]
    omega
  -- all escapes stand for one character, but for an escaped line end and an unknown letter
  unfold textEscape at h
  split at h
  · cases h
    exact Nat.le_refl _
  · cases h
    simp only [List.length_nil, List.length_cons]
    omega
  · obtain ⟨⟨n, tail⟩, hescape, heq⟩ := Option.map_eq_some_iff.mp h
    cases heq
    exact hone (Nat.le_succ_of_le (length_hexEscape_le hescape))
  · obtain ⟨⟨n, tail⟩, hescape, heq⟩ := Option.map_eq_some_iff.mp h
    cases heq
    exact hone (Nat.le_succ_of_le (length_hexEscape_le hescape))
  · simp only [Option.bind_eq_bind, Option.bind_eq_some_iff, Prod.exists] at h
    obtain ⟨n, tail, hescape, -, -, heq⟩ := h
    cases heq
    exact hone (Nat.le_succ_of_le (length_hexEscape_le hescape))
  · split at h
    · next tail =>
      simp only [Option.bind_eq_bind, Option.bind_eq_some_iff] at h
      obtain ⟨-, -, c, -, heq⟩ := h
      cases heq
      have hafter := (List.dropWhile_suffix (fun c => decide (c ≠ '\x7d')) (l := tail)).length_le
      refine hone ?_
      simp only [List.length_cons, List.length_drop]
      omega
    · cases h
  · split at h
    · cases h
      exact hone (Nat.le_succ _)
    · split at h
      · cases h
        exact hone (List.drop_sublist _ _).length_le
      · cases h
        simp only [List.length_cons, List.length_nil]
        omega

theorem length_unescapeOnto_le {fuel : Nat} {seen : List Char}
    (h : unescapeOnto fuel cs seen = some out) :
    out.length ≤ cs.length + seen.length := by
  fun_induction unescapeOnto fuel cs seen with
  | case1 =>
    cases h
    simp
  | case2 => cases h
  | case3 fuel rest seen taken rest' hescape ih =>
    have hlength := length_textEscape_le hescape
    have := ih h
    simp only [List.length_append, List.length_reverse, List.length_cons] at this ⊢
    omega
  | case4 => cases h
  | case5 fuel c rest seen hc ih =>
    have := ih h
    simp only [List.length_cons] at this ⊢
    omega

theorem length_unescape_le (h : unescape cs = some out) : out.length ≤ cs.length :=
  length_unescapeOnto_le h

namespace Parser

/-! ## Strings -/

/-- The same for the strings that were taken. -/
def quotedLengthIn (qs : List Quoted) : Nat :=
  qs.foldr (fun q n => q.body.length + 2 + n) 0

theorem quotedLengthIn_append (qs rs : List Quoted) :
    quotedLengthIn (qs ++ rs) = quotedLengthIn qs + quotedLengthIn rs := by
  induction qs with
  | nil => exact (Nat.zero_add _).symm
  | cons q qs ih =>
    rw [List.cons_append, quotedLengthIn, List.foldr_cons, ← quotedLengthIn, ih, ← Nat.add_assoc]
    rfl

section Strings

variable {rules : Rules} {c : Cursor} {x : Extent} {marked : Bool}

theorem length_quotedToken :
    Ensures quotedToken c (fun q d => c.Advances d ∧
      c.quotedLength = q.body.length + 2 + d.quotedLength) := by
  refine peek_bind ?_
  split
  · next q hkind =>
    refine take_bind fun t d ht => ensures_pure ⟨ht.advances, ?_⟩
    rw [ht.quotedLength, ← ht.kind, hkind]
    rfl
  · exact ensures_failure

theorem length_quotedTokens : Ensures (many rules atString quotedToken) c (fun qs d =>
    c.Advances d ∧ c.quotedLength = quotedLengthIn qs + d.quotedLength) := by
  refine ensures_many_of ⟨.refl c, (Nat.zero_add _).symm⟩ fun qs d ⟨hcd, hlength⟩ => ?_
  refine ensures_atString.mono ?_
  rintro b _ ⟨rfl, -⟩
  split
  · refine length_quotedToken.mono fun q e ⟨hde, hq⟩ => ⟨hcd.trans hde, ?_⟩
    rw [hlength, hq, quotedLengthIn_append, Nat.add_assoc (quotedLengthIn qs)]
    rfl
  · exact ⟨hcd, hlength⟩

/-- A string without fields is a piece of text. -/
theorem exists_text_of_piecesOf {q : Quoted} {pieces : List Piece} (hq : q.isFormatted = false)
    (h : piecesOf q = some pieces) : ∃ cs, pieces = [.text cs] ∧ cs.length ≤ q.body.length := by
  rw [piecesOf, hq, if_neg Bool.false_ne_true] at h
  split at h
  · cases h
    exact ⟨q.body, rfl, Nat.le_refl _⟩
  · obtain ⟨cs, hcs, rfl⟩ := Option.map_eq_some_iff.mp h
    exact ⟨cs, rfl, length_unescape_le hcs⟩

/-- The texts of some strings leave room for two quotes each. -/
theorem exists_texts_of_mapM {qs : List Quoted} {pieces : List (List Piece)}
    (hqs : ∀ q ∈ qs, q.isFormatted = false) (h : qs.mapM piecesOf = some pieces) :
    ∃ texts : List (List Char), pieces.flatten = texts.map .text ∧
      texts.flatten.length + 2 * qs.length ≤ quotedLengthIn qs := by
  induction qs generalizing pieces with
  | nil =>
    cases h
    exact ⟨[], rfl, Nat.le_refl _⟩
  | cons q qs ih =>
    rw [List.forall_mem_cons] at hqs
    simp only [List.mapM_cons, Option.bind_eq_bind, Option.bind_eq_some_iff] at h
    obtain ⟨ps, hps, others, hothers, heq⟩ := h
    cases heq
    obtain ⟨cs, rfl, hcs⟩ := exists_text_of_piecesOf hqs.1 hps
    obtain ⟨texts, htexts, hlength⟩ := ih hqs.2 hothers
    refine ⟨cs :: texts, by rw [List.flatten_cons, htexts]; rfl, ?_⟩
    rw [quotedLengthIn, List.foldr_cons, ← quotedLengthIn]
    simp only [List.flatten_cons, List.length_append, List.length_cons]
    omega

/-- Without fields there is at most one part. -/
theorem ensures_partsOf_texts (texts : List (List Char)) (pending : List Char) :
    Ensures (partsOf rules x marked (texts.map .text) pending) c (fun parts d =>
      d = c ∧ parts = textPart x marked (pending ++ texts.flatten)) := by
  induction texts generalizing pending with
  | nil =>
    rw [List.map_nil, partsOf, List.flatten_nil, List.append_nil]
    exact ensures_pure ⟨rfl, rfl⟩
  | cons cs texts ih =>
    rw [List.map_cons, partsOf, partOf, pure_bind, List.flatten_cons, ← List.append_assoc]
    exact ih (pending ++ cs)

theorem brief_constant {room : Nat} {text : String} (h : text.length + 2 ≤ room) :
    Brief room (.constant x (.str text marked)) := by
  rintro _ ⟨⟩
  exact h

/-- From every place behind `start` the parser reads an expression that is brief. -/
abbrev FindsBrief (start : Cursor) (p : Parser Expr) : Prop :=
  Finds start (Brief start.quotedLength) p

/-- **Adjacent strings.** The text that they form is shorter than they are. -/
theorem findsBrief_strings (hr : rules.Sound) {start : Cursor} :
    FindsBrief start (strings rules) := by
  intro c hc
  refine here_bind (length_quotedTokens.bind fun qs d ⟨hcd, hlength⟩ => since_bind ?_)
  have hd := hc.trans hcd
  dsimp only
  split
  · exact (still_mapM _ qs).bind fun _ => ensures_pure ⟨hd, nofun⟩
  next hbytes =>
  split
  · exact ensures_failure
  refine (ensures_mapM _ qs d).bind ?_
  rintro pieces d ⟨rfl, hpieces⟩
  cases hformatted : qs.any (·.isFormatted) with
  | true =>
    -- a joined string is not a text
    refine (ensures_partsOf hr _ _ pieces.flatten [] d).bind ?_
    rintro parts d ⟨rfl, -⟩
    exact ensures_pure ⟨hd, nofun⟩
  | false =>
    obtain ⟨texts, htexts, htotal⟩ := exists_texts_of_mapM (by simpa using hformatted) hpieces
    -- there is at least one string, so the quotes of one of them are left over
    have hqs : 0 < qs.length := by
      rw [List.length_pos_iff]
      rintro rfl
      exact hbytes rfl
    have hroom : texts.flatten.length + 2 ≤ start.quotedLength := by
      have := hc.quotedLength_le
      omega
    rw [htexts]
    refine (ensures_partsOf_texts texts []).bind ?_
    rintro parts d ⟨rfl, rfl⟩
    rw [if_neg Bool.false_ne_true, List.nil_append, textPart]
    split
    · next hpart =>
      split at hpart
      · cases hpart
      · cases hpart
        exact ensures_pure ⟨hd, brief_constant (by simpa using hroom)⟩
    · exact ensures_pure ⟨hd, brief_constant (by simp only [String.length_empty]; omega)⟩

end Strings

/-! ## Expressions without texts -/

section Wordless

variable {α : Type} {p q : Parser Expr} {start : Cursor}

/-- Whatever the parser reads has no text where an annotation can stand. -/
def Wordless (p : Parser Expr) : Prop :=
  ∀ c, Ensures p c (fun e _ => ∀ text, ¬ HasText e text)

theorem wordless_bind {p : Parser α} {f : α → Parser Expr} (hf : ∀ a, Wordless (f a)) :
    Wordless (p >>= f) :=
  fun _ => Ensures.bind (R := fun _ _ => True) (fun _ _ _ => trivial) fun a d _ => hf a d

theorem Wordless.ite {b : Prop} [Decidable b] (hp : Wordless p) (hq : Wordless q) :
    Wordless (if b then p else q) := by
  split
  · exact hp
  · exact hq

theorem wordless_since {place : Position} {f : Extent → Expr} (h : ∀ x text, ¬ HasText (f x) text) :
    Wordless (do return f (← since place)) :=
  wordless_bind fun x _ => ensures_pure (h x)

theorem Wordless.findsBrief (hp : Wordless p) (hmoves : Moves p) : FindsBrief start p :=
  fun c hc e d h => ⟨hc.trans (hmoves c e d h), fun text htext => absurd htext (hp c e d h text)⟩

variable (rules : Rules) (place : Position)

theorem wordless_yieldExpr : Wordless (yieldExpr rules) := by
  refine wordless_bind fun _ => wordless_bind fun _ => wordless_bind fun _ => .ite ?_ ?_
  · exact wordless_bind fun _ => wordless_since nofun
  refine wordless_bind fun _ => .ite ?_ (wordless_since nofun)
  exact wordless_bind fun _ => wordless_since nofun

theorem wordless_bracketed : Wordless (bracketed rules) := by
  refine wordless_bind fun _ => wordless_bind fun _ => wordless_bind fun _ =>
    .ite (wordless_since nofun) ?_
  refine wordless_bind fun _ => wordless_bind fun _ => .ite ?_ ?_
  · exact wordless_bind fun _ => wordless_bind fun _ => wordless_bind fun _ => wordless_since nofun
  · exact wordless_bind fun _ => wordless_bind fun _ => wordless_since nofun

theorem wordless_dictTail (first : DictItem) : Wordless (dictTail rules place first) :=
  wordless_bind fun _ => wordless_bind fun _ => wordless_since nofun

theorem wordless_braced : Wordless (braced rules) := by
  refine wordless_bind fun _ => wordless_bind fun _ => wordless_bind fun _ =>
    .ite (wordless_since nofun) ?_
  refine wordless_bind fun _ => .ite (wordless_bind fun _ => wordless_dictTail _ _ _) ?_
  refine wordless_bind fun _ => wordless_bind fun _ => wordless_bind fun _ => .ite ?_ ?_
  · refine wordless_bind fun _ => wordless_bind fun _ => .ite ?_ (wordless_dictTail _ _ _)
    exact wordless_bind fun _ => wordless_bind fun _ => wordless_since nofun
  refine wordless_bind fun _ => .ite ?_ ?_
  · exact wordless_bind fun _ => wordless_bind fun _ => wordless_bind fun _ => wordless_since nofun
  · exact wordless_bind fun _ => wordless_bind fun _ => wordless_since nofun

theorem wordless_lambda : Wordless (lambda rules) :=
  wordless_bind fun _ => wordless_bind fun _ => wordless_bind fun _ => wordless_bind fun _ =>
    wordless_bind fun _ => wordless_since nofun

end Wordless

/-! ## Calls and slices -/

section Calls

variable {rules : Rules} (hr : rules.Sound) {start : Cursor} (place : Position)

include hr

theorem findsBrief_callOf (callee : Expr) : FindsBrief start (callOf rules place callee) := by
  have hargument : ∀ s, Moves (argument rules s) := fun s c => ensures_argument hr c s
  have harguments : ∀ s more, Moves (arguments rules s more) :=
    fun s more c => ensures_arguments hr c s more
  have hclauses : Moves (clauses rules) := ensures_clauses hr
  refine Wordless.findsBrief ?_ ?_
  · refine wordless_bind fun _ => wordless_bind fun _ => wordless_bind fun _ => .ite ?_ ?_
    · exact wordless_bind fun _ => wordless_since nofun
    refine wordless_bind fun _ => wordless_bind fun _ => .ite ?_ ?_
    · refine wordless_bind fun _ => wordless_bind fun _ => ?_
      split
      · exact wordless_bind fun _ => wordless_since nofun
      · exact fun _ => ensures_failure
    · exact wordless_bind fun _ => wordless_bind fun _ => wordless_bind fun _ =>
        wordless_since nofun
  · refine moves_here.bind fun _ => (moves_expect _).bind fun _ =>
      (still_nextIs _).moves.bind fun _ => .ite ?_ ?_
    · exact moves_take.bind fun _ => (moves_since _).bind fun _ => moves_pure _
    refine (hargument _).bind fun _ => still_atClause.moves.bind fun _ => .ite ?_ ?_
    · refine hclauses.bind fun _ => (moves_expect _).bind fun _ => ?_
      split
      · exact (moves_since _).bind fun _ => (moves_since _).bind fun _ => moves_pure _
      · exact moves_failure
    · refine (moves_accept _).bind fun _ => (harguments _ _).bind fun _ =>
        (moves_expect _).bind fun _ => ?_
      exact (moves_since _).bind fun _ => moves_pure _

theorem findsBrief_sliceTail (lower : Option Expr) :
    FindsBrief start (sliceTail rules place lower) := by
  have hbound : Moves (sliceBound rules) := ensures_sliceBound hr
  refine Wordless.findsBrief ?_ ?_
  · refine wordless_bind fun _ => wordless_bind fun _ => wordless_bind fun _ => .ite ?_ ?_
    · exact wordless_bind fun _ => wordless_since nofun
    · exact wordless_bind fun _ => wordless_since nofun
  · refine (moves_expect _).bind fun _ => hbound.bind fun _ => (moves_accept _).bind fun _ =>
      .ite ?_ ?_
    · exact hbound.bind fun _ => (moves_since _).bind fun _ => moves_pure _
    · exact (moves_pure _).bind fun _ => (moves_since _).bind fun _ => moves_pure _

end Calls

/-! ## Operators and lists -/

section Operators

variable {rules : Rules} {start : Cursor} {operand item : Parser Expr}

theorem findsBrief_leftGrouped {opOf : String → Option BinaryOp} (h : FindsBrief start operand) :
    FindsBrief start (leftGrouped rules opOf operand) := by
  refine moves_here.finds fun _ => h.bind fun first hfirst =>
    finds_iterate (fun left hleft => ?_) _ hfirst
  refine still_peekOp.moves.finds fun _ => ?_
  split
  · refine moves_take.finds fun _ => h.bind fun _ _ => (moves_since _).finds fun _ => finds_pure ?_
    rintro _ ⟨⟩
    nofun
  · exact finds_pure nofun

theorem findsBrief_connected {word : String} {op : BoolOp} (h : FindsBrief start operand) :
    FindsBrief start (connected rules word op operand) := by
  refine moves_here.finds fun _ => h.bind fun first hfirst =>
    (finds_many (moves_accept _) h).bind fun _ _ => ?_
  exact .ite (finds_pure hfirst) ((moves_since _).finds fun _ => finds_pure nofun)

theorem finds_commaTail {α : Type} {P : α → Prop} {more : Parser Bool} {item : Parser α} {first : α}
    (hmore : Moves more) (hitem : Finds start P item) (hfirst : P first) :
    Finds start (fun r => ∀ a ∈ r.1, P a) (commaTail rules more item first) := by
  refine Finds.bind (P := fun r => ∀ a ∈ r.1, P a) ?_ fun r hr => finds_pure (by simpa using hr)
  refine finds_iterate ?_ _ (by simpa using hfirst)
  rintro ⟨seen, trailing⟩ hseen
  refine .ite (finds_pure nofun) ((moves_accept _).finds fun _ => .ite ?_ (finds_pure nofun))
  refine hmore.finds fun _ => .ite ?_ (finds_pure (by simpa using hseen))
  exact hitem.bind fun a ha => finds_pure (by simpa using ⟨ha, hseen⟩)

theorem findsBrief_tupleOf {more : Parser Bool} (hmore : Moves more)
    (hitem : FindsBrief start item) :
    FindsBrief start (tupleOf rules more item) := by
  refine moves_here.finds fun _ => hitem.bind fun first hfirst => ?_
  refine (finds_commaTail hmore hitem hfirst).bind fun r hitems => ?_
  exact .ite (finds_pure hfirst) ((moves_since _).finds fun _ => finds_pure (brief_tuple hitems))

end Operators

/-! ## The grammar -/

end Parser

/-- The recursive rules read expressions that are brief. -/
structure Rules.ReadsBrief (rules : Rules) (start : Cursor) : Prop where
  expression : FindsBrief start (rules.parse .expression)
  inversion : FindsBrief start (rules.parse .inversion)
  factor : FindsBrief start (rules.parse .factor)

namespace Parser

section Grammar

variable {rules : Rules} {start : Cursor} (hb : rules.ReadsBrief start)

include hb

theorem findsBrief_bitwiseOr : FindsBrief start (bitwiseOr rules) :=
  findsBrief_leftGrouped (findsBrief_leftGrouped (findsBrief_leftGrouped (findsBrief_leftGrouped
    (findsBrief_leftGrouped (findsBrief_leftGrouped hb.factor)))))

theorem findsBrief_disjunction : FindsBrief start (disjunction rules) :=
  findsBrief_connected (findsBrief_connected hb.inversion)

theorem findsBrief_named : FindsBrief start (named rules) := by
  refine still_atNamed.moves.finds fun _ => .ite ?_ hb.expression
  refine moves_here.finds fun _ => moves_identifier.finds fun _ => (moves_since _).finds fun _ => ?_
  refine (moves_expect _).finds fun _ => hb.expression.bind fun _ _ => ?_
  exact (moves_since _).finds fun _ => finds_pure nofun

theorem findsBrief_starOr {item : Parser Expr} (hitem : FindsBrief start item) :
    FindsBrief start (starOr rules item) := by
  refine moves_here.finds fun _ => (moves_accept _).finds fun _ => .ite ?_ hitem
  exact (findsBrief_bitwiseOr hb).bind fun _ _ => (moves_since _).finds fun _ => finds_pure nofun

theorem findsBrief_expressions : FindsBrief start (expressions rules) :=
  findsBrief_tupleOf still_atExpression.moves hb.expression

theorem findsBrief_displayItem : FindsBrief start (displayItem rules) :=
  findsBrief_starOr hb (findsBrief_named hb)

variable (hr : rules.Sound)

include hr

theorem findsBrief_parenthesized : FindsBrief start (parenthesized rules) := by
  have hyield : FindsBrief start (yieldExpr rules) :=
    (wordless_yieldExpr rules).findsBrief (.of_parsed (ensures_yieldExpr hr))
  refine moves_here.finds fun _ => (moves_expect _).finds fun _ => (moves_accept _).finds fun _ =>
    .ite ?_ ?_
  · exact (moves_since _).finds fun _ => finds_pure nofun
  refine (still_nextIs _).moves.finds fun _ => .ite ?_ ?_
  · exact hyield.bind fun _ he => (moves_expect _).finds fun _ => finds_pure he
  refine (findsBrief_displayItem hb).bind fun first hfirst => still_atClause.moves.finds fun _ =>
    .ite ?_ ?_
  · refine (moves_guard _).finds fun _ => Moves.finds (ensures_clauses hr) fun _ =>
      (moves_expect _).finds fun _ => ?_
    exact (moves_since _).finds fun _ => finds_pure nofun
  · refine (finds_commaTail still_atStarExpression.moves (findsBrief_displayItem hb) hfirst).bind
      fun r hitems => ?_
    refine (moves_expect _).finds fun _ =>
      .ite ((moves_guard _).finds fun _ => finds_pure hfirst) ?_
    exact (moves_since _).finds fun _ => finds_pure (brief_tuple hitems)

theorem findsBrief_index : FindsBrief start (index rules) := by
  refine moves_here.finds fun place => (still_nextIs _).moves.finds fun _ =>
    .ite (findsBrief_sliceTail hr _ _) ?_
  refine (moves_accept _).finds fun _ => .ite ?_ ?_
  · exact hb.expression.bind fun _ _ => (moves_since _).finds fun _ => finds_pure nofun
  refine still_atNamed.moves.finds fun _ => .ite (findsBrief_named hb) ?_
  refine hb.expression.bind fun e he => (still_nextIs _).moves.finds fun _ =>
    .ite ?_ (finds_pure he)
  exact findsBrief_sliceTail hr _ _

theorem findsBrief_indices : FindsBrief start (indices rules) := by
  refine moves_here.finds fun _ => (findsBrief_index hb hr).bind fun first hfirst => ?_
  have hindex := findsBrief_index hb hr
  refine (finds_commaTail still_atIndex.moves hindex hfirst).bind fun r hitems => ?_
  exact .ite (finds_pure hfirst) ((moves_since _).finds fun _ => finds_pure (brief_tuple hitems))

omit hb hr in
theorem findsBrief_constant {value : Literal} (h : ∀ x text, ¬ HasText (.constant x value) text)
    (place : Position) :
    FindsBrief start (atom.constant place value) :=
  moves_take.finds fun _ => (moves_since _).finds fun x => finds_pure fun text htext =>
    absurd htext (h x text)

theorem findsBrief_atom : FindsBrief start (atom rules) := by
  intro c hc
  refine here_bind (peek_bind ?_)
  split
  · exact take_bind fun t d ht => since_bind (ensures_pure ⟨hc.trans ht.advances, nofun⟩)
  · next value hkind =>
    -- no numeral stands for a text, but the tokens alone do not say so
    refine take_bind fun t d ht => since_bind (ensures_pure ⟨hc.trans ht.advances, ?_⟩)
    rintro text ⟨⟩
    have hlength := ht.quotedLength
    rw [← ht.kind, hkind, TokenKind.quotedLength] at hlength
    have := hc.quotedLength_le
    omega
  · exact findsBrief_strings hr c hc
  · exact findsBrief_constant (by nofun) _ c hc
  · exact findsBrief_constant (by nofun) _ c hc
  · exact findsBrief_constant (by nofun) _ c hc
  · exact findsBrief_constant (by nofun) _ c hc
  · exact findsBrief_parenthesized hb hr c hc
  · exact (wordless_bracketed rules).findsBrief (.of_parsed (ensures_bracketed hr)) c hc
  · exact (wordless_braced rules).findsBrief (.of_parsed (ensures_braced hr)) c hc
  · exact ensures_failure

theorem findsBrief_primary : FindsBrief start (primary rules) := by
  refine moves_here.finds fun place => (findsBrief_atom hb hr).bind fun first hfirst => ?_
  refine finds_iterate (fun e he => moves_peek.finds fun _ => ?_) _ hfirst
  split
  · refine moves_take.finds fun _ => moves_identifier.finds fun _ => (moves_since _).finds fun _ =>
      finds_pure ?_
    rintro _ ⟨⟩
    nofun
  · refine (findsBrief_callOf hr place e).bind fun _ hcall => finds_pure ?_
    rintro _ ⟨⟩
    exact hcall
  · refine moves_take.finds fun _ => (findsBrief_indices hb hr).bind fun i hi =>
      (moves_expect _).finds fun _ => ?_
    refine (moves_since _).finds fun _ => finds_pure ?_
    rintro _ ⟨⟩
    exact brief_subscript he hi
  · exact finds_pure nofun

theorem findsBrief_power : FindsBrief start (power rules) := by
  have hexponent : ∀ place base, Brief start.quotedLength base → FindsBrief start
      (accept (.op "**") >>= fun r => if r = true then
          rules.parse .factor >>= fun exponent => since place >>= fun x =>
            pure (.binary x base .pow exponent)
        else pure base) := by
    intro place base hbase
    refine (moves_accept _).finds fun _ => .ite ?_ (finds_pure hbase)
    exact hb.factor.bind fun _ _ => (moves_since _).finds fun _ => finds_pure nofun
  refine moves_here.finds fun place => (moves_accept _).finds fun _ => .ite ?_ ?_
  · refine (findsBrief_primary hb hr).bind fun _ _ => (moves_since _).finds fun _ => ?_
    rw [pure_bind]
    exact hexponent place _ nofun
  · exact (findsBrief_primary hb hr).bind fun base hbase => hexponent place base hbase

omit hr in
theorem findsBrief_signed (place : Position) (op : UnaryOp) :
    FindsBrief start (factor.signed rules place op) :=
  moves_take.finds fun _ => hb.factor.bind fun _ _ => (moves_since _).finds fun _ =>
    finds_pure nofun

theorem findsBrief_factor : FindsBrief start (factor rules) := by
  refine moves_here.finds fun place => moves_peek.finds fun _ => ?_
  split
  · exact findsBrief_signed hb place _
  · exact findsBrief_signed hb place _
  · exact findsBrief_signed hb place _
  · exact findsBrief_power hb hr

omit hr in
theorem findsBrief_comparison : FindsBrief start (comparison rules) := by
  refine moves_here.finds fun _ => (findsBrief_bitwiseOr hb).bind fun left hleft => ?_
  refine Finds.bind (P := fun _ => True) ?_ fun _ _ => ?_
  · refine finds_iterate (fun _ _ => Moves.finds ensures_compareOp? fun op => ?_) _ trivial
    cases op with
    | some op => exact (findsBrief_bitwiseOr hb).bind fun _ _ => finds_pure fun _ _ => trivial
    | none => exact finds_pure nofun
  · exact .ite (finds_pure hleft) ((moves_since _).finds fun _ => finds_pure nofun)

omit hr in
theorem findsBrief_inversion : FindsBrief start (inversion rules) := by
  refine moves_here.finds fun _ => (moves_accept _).finds fun _ =>
    .ite ?_ (findsBrief_comparison hb)
  exact hb.inversion.bind fun _ _ => (moves_since _).finds fun _ => finds_pure nofun

theorem findsBrief_expression : FindsBrief start (expression rules) := by
  have hlambda : FindsBrief start (lambda rules) :=
    (wordless_lambda rules).findsBrief (.of_parsed (ensures_lambda hr))
  refine moves_here.finds fun _ => (still_nextIs _).moves.finds fun _ => .ite hlambda ?_
  refine (findsBrief_disjunction hb).bind fun body hbody => (moves_accept _).finds fun _ =>
    .ite ?_ (finds_pure hbody)
  refine (findsBrief_disjunction hb).bind fun _ _ => (moves_expect _).finds fun _ => ?_
  exact hb.expression.bind fun _ _ => (moves_since _).finds fun _ => finds_pure nofun

end Grammar

/-- The rules read expressions that are brief, to every depth. -/
theorem readsBrief_rule (start : Cursor) (depth : Nat) :
    (⟨depth, rule depth⟩ : Rules).ReadsBrief start := by
  induction depth with
  | zero => exact ⟨finds_failure, finds_failure, finds_failure⟩
  | succ depth ih =>
    have hr := (reads_rule depth).toSound
    exact ⟨findsBrief_expression ih hr, findsBrief_inversion ih, findsBrief_factor ih hr⟩

theorem findsBrief_loneExpression (start : Cursor) (length : Nat) :
    FindsBrief start (loneExpression (rulesFor length)) := by
  refine (findsBrief_expressions (readsBrief_rule start _)).bind fun e he => ?_
  refine (moves_many (moves_accept _) (moves_pure _)).finds fun _ =>
    (still_nextIs _).moves.finds fun _ => ?_
  exact (moves_guard _).finds fun _ => finds_pure he

end Parser

/-! ## Whole texts -/

theorem length_unifyLineEnds_le (cs : List Char) : (Text.unifyLineEnds cs).length ≤ cs.length := by
  fun_induction Text.unifyLineEnds cs with
  | case1 => exact Nat.le_refl _
  | case2 rest ih =>
    simp only [List.length_cons]
    omega
  | case3 c rest hpair ih =>
    simp only [List.length_cons]
    omega

/-- **Texts get shorter.** A text in an expression is shorter than the text that the
expression is read from. -/
theorem length_lt_of_parseExpression {source : String} {e : Expr}
    (h : parseExpression source = .ok e)
    {text : String} (htext : HasText e text) : text.length < source.length := by
  unfold parseExpression at h
  obtain ⟨tokens, d, htokens, hrun⟩ := exists_tokens_of_run h
  have hbrief := (Parser.findsBrief_loneExpression _ _ _ (.refl _) _ _ hrun).2 text htext
  have hquoted := (written_tokenize htokens).quotedLengthOf_le
  have hends := length_unifyLineEnds_le source.toList
  rw [String.length_toList] at hends
  calc text.length
    _ < text.length + 2 := by omega
    _ ≤ quotedLengthOf tokens := hbrief
    _ ≤ (Text.unifyLineEnds source.toList).length := hquoted
    _ ≤ source.length := hends

end Addon.Script
