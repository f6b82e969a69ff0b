import Addon.Script.Lexer
import Addon.Proofs.Source.Index
import Mathlib.Data.List.Basic
import Mathlib.Data.List.TakeWhile
import Mathlib.Data.Option.Basic

/-!
# Lexer — where the tokens of a text stand

The reader turns a text into tokens. This module says how the tokens lie in the text.

## The architecture

* **`Trivia gap after`** — a text without tokens: blanks, line ends, joined lines and comments. A
  comment goes on to the end of its line, so what comes `after` matters.
* **`Spelled kind w rest`** — a token of the kind is written as `w` when `rest` follows.
* **`Written p cs ts`** — the tokens `ts` are those at the front of the text `cs`, which starts at
  the place `p`: trivia and lexemes take turns, and every token has the extent of its lexeme.
* **`written_lineStart`**, **`written_inLine`** — one step of the reader puts its tokens in front.
* **`written_tokenize`** — by induction along the run, the tokens of a text are written in it.
-/

namespace Addon.Script

variable {w rest cs ds : List Char} {kind : TokenKind} {isDigit : Char → Bool} {value : Literal}
  {p : Position}
  {ts : List Token} {s : LexState}

/-! ## Texts without tokens -/

/-- A text that holds no token when `after` follows it. -/
inductive Trivia : List Char → List Char → Prop where
  | nil (after : List Char) : Trivia [] after
  | blank {c : Char} {gap after : List Char} (hc : isInlineBlank c = true) :
      Trivia gap after → Trivia (c :: gap) after
  | lineEnd {gap after : List Char} : Trivia gap after → Trivia ('\n' :: gap) after
  | join {gap after : List Char} : Trivia gap after → Trivia ('\\' :: '\n' :: gap) after
  | comment {body gap after : List Char} (hbody : ∀ c ∈ body, c ≠ '\n')
      (hend : ∀ c ∈ (gap ++ after).head?, c = '\n') :
      Trivia gap after → Trivia ('#' :: (body ++ gap)) after

theorem Trivia.append {a b after : List Char} (ha : Trivia a (b ++ after)) (hb : Trivia b after) :
    Trivia (a ++ b) after := by
  generalize hctx : b ++ after = ctx at ha
  induction ha with
  | nil => exact hb
  | blank hc _ ih => exact .blank hc (ih hctx)
  | lineEnd _ ih => exact .lineEnd (ih hctx)
  | join _ ih => exact .join (ih hctx)
  | @comment body gap _ hbody hend _ ih =>
    rw [List.cons_append, List.append_assoc]
    refine .comment hbody ?_ (ih hctx)
    rwa [List.append_assoc, hctx]

/-- A whole comment is trivia. -/
theorem trivia_comment (cs : List Char) :
    Trivia ('#' :: cs.takeWhile (· ≠ '\n')) (cs.dropWhile (· ≠ '\n')) := by
  have hbody : ∀ c ∈ cs.takeWhile (· ≠ '\n'), c ≠ '\n' := by
    intro c hc
    simpa using List.mem_takeWhile_imp hc
  have hend : ∀ c ∈ (cs.dropWhile (· ≠ '\n')).head?, c = '\n' := by
    intro c hc
    have := List.head?_dropWhile_not (fun x : Char => decide (x ≠ '\n')) cs
    rw [Option.mem_def.mp hc] at this
    simpa using this
  have hgap : Trivia [] (cs.dropWhile (· ≠ '\n')) := .nil _
  have hcomment := hgap.comment hbody hend
  rwa [List.append_nil] at hcomment

/-! ## Lexemes -/

/-- The text of a token ends in something other than a line end. -/
def Solid (w : List Char) : Prop :=
  ∃ init c, w = init ++ [c] ∧ c ≠ '\n'

theorem Solid.ne_nil (h : Solid w) : w ≠ [] := by
  obtain ⟨init, c, rfl, -⟩ := h
  simp

theorem solid_of_forall (hne : w ≠ []) (h : ∀ c ∈ w, c ≠ '\n') : Solid w :=
  ⟨w.dropLast, w.getLast hne, (List.dropLast_append_getLast hne).symm, h _ (List.getLast_mem hne)⟩

/-- A literal that a numeral can stand for. -/
def Literal.isNumber : Literal → Bool
  | .int _ | .float _ | .imaginary _ => true
  | _ => false

/-- A token of the kind is written as `w` when `rest` follows. -/
def Spelled : TokenKind → List Char → List Char → Prop
  | .name id _, w, rest =>
    Solid w ∧ (w ++ rest).takeWhile mayContinueWord = w ∧ id = String.ofList (Unicode.normalize w)
  | .op text, w, _ => Solid w ∧ w = text.toList
  | .reserved text, w, _ => Solid w ∧ w = text.toList
  | .number value, w, _ => Solid w ∧ value.isNumber = true
  | .quoted q, w, _ => Solid w ∧ q.body.length + 2 ≤ w.length
  | .newline, w, _ => w = ['\n']
  | .indent, w, _ => w = []
  | .dedent, w, _ => w = []
  | .finish, w, rest => w = [] ∧ rest = []

/-- Only the text of a layout token may end in a line end. -/
theorem Spelled.solid (h : Spelled kind w rest) (hkind : kind.isLayout = false) : Solid w := by
  cases kind with
  | name id plain => exact h.1
  | op text => exact h.1
  | reserved text => exact h.1
  | number value => exact h.1
  | quoted text => exact h.1
  | newline => cases hkind
  | indent => cases hkind
  | dedent => cases hkind
  | finish => cases hkind

/-! ### Words -/

theorem ne_newline_of_mayContinueWord {c : Char} (h : mayContinueWord c = true) : c ≠ '\n' := by
  rintro rfl
  revert h
  decide

/-- A word is read whole. -/
theorem spelled_word {c : Char} (hc : mayContinueWord c = true)
    (h : word ((c :: rest).takeWhile mayContinueWord) = some kind) :
    Spelled kind ((c :: rest).takeWhile mayContinueWord) ((c :: rest).dropWhile mayContinueWord) ∧
      kind ≠ .newline := by
  have hsolid : Solid ((c :: rest).takeWhile mayContinueWord) := by
    refine solid_of_forall (by rw [List.takeWhile_cons_of_pos hc]; simp) fun d hd => ?_
    exact ne_newline_of_mayContinueWord (List.mem_takeWhile_imp hd)
  generalize hw : (c :: rest).takeWhile mayContinueWord = w at *
  obtain ⟨d, w, rfl⟩ := List.exists_cons_of_ne_nil hsolid.ne_nil
  simp only [word] at h
  split at h
  · obtain rfl := Option.some.inj h
    exact ⟨⟨hsolid, by simp⟩, by simp⟩
  · split at h
    · obtain rfl := Option.some.inj h
      exact ⟨⟨hsolid, by rw [← hw, List.takeWhile_append_dropWhile], rfl⟩, by simp⟩
    · cases h

/-! ### Quoted strings -/

/-- What `closeQuote` takes is the text up to the closing quotes, and the quotes. -/
theorem closeQuote_eq_some {quote : Char} {triple : Bool} {seen out : List Char}
    (h : closeQuote quote triple cs seen = some (out, rest)) :
    ∃ body, out = body.reverse ++ seen ∧
      cs = body ++ ((if triple then [quote, quote, quote] else [quote]) ++ rest) := by
  fun_induction closeQuote quote triple cs seen with
  | case1 => cases h
  | case2 c tail seen ih =>
    obtain ⟨body, rfl, rfl⟩ := ih h
    exact ⟨'\\' :: c :: body, by simp, rfl⟩
  | case3 tail seen htriple =>
    obtain ⟨rfl, rfl⟩ := Prod.mk.inj (Option.some.inj h)
    exact ⟨[], rfl, by simp_all⟩
  | case4 seen htriple d e tail hquote =>
    obtain ⟨rfl, rfl⟩ := Prod.mk.inj (Option.some.inj h)
    exact ⟨[], rfl, by simp_all⟩
  | case5 seen htriple d e tail hquote _ ih =>
    obtain ⟨body, rfl, htail⟩ := ih h
    exact ⟨quote :: body, by simp, by rw [htail]; rfl⟩
  | case6 => cases h
  | case7 => cases h
  | case8 c tail seen hquote hne hnewline ih =>
    obtain ⟨body, rfl, rfl⟩ := ih h
    exact ⟨c :: body, by simp, rfl⟩

/-- The marks in front of a quote stand at the front of the text. -/
theorem marksBeforeQuote?_eq_some {marks : List Char} (h : marksBeforeQuote? cs = some marks) :
    ∃ quote rest, (quote = '\'' ∨ quote = '"') ∧ cs = marks ++ quote :: rest := by
  unfold marksBeforeQuote? at h
  obtain ⟨n, -, hn⟩ := List.exists_of_findSome?_eq_some h
  simp only at hn
  split at hn
  · next hopens =>
    obtain rfl := Option.some.inj hn
    rw [Bool.and_eq_true, Option.any_eq_true] at hopens
    obtain ⟨⟨quote, hhead, hquote⟩, -⟩ := hopens
    obtain ⟨rest, hrest⟩ := List.head?_eq_some_iff.mp hhead
    refine ⟨quote, rest, by simpa using hquote, ?_⟩
    rw [← hrest, List.take_append_drop]
  · cases hn

/-- A quoted string is the text that was taken, and ends in a quote. -/
theorem spelled_quotedString {marks taken : List Char} {q : Quoted}
    (hmarks : marksBeforeQuote? cs = some marks)
    (h : quotedString marks cs = some (q, taken, rest)) :
    cs = taken ++ rest ∧ Spelled (.quoted q) taken rest := by
  obtain ⟨quote, tail, hquote, rfl⟩ := marksBeforeQuote?_eq_some hmarks
  have hne : quote ≠ '\n' := by rcases hquote with rfl | rfl <;> decide
  unfold quotedString at h
  simp only [List.drop_left, List.head?_cons, Option.pure_def, Option.bind_eq_bind,
    Option.bind_some, Option.bind_eq_some_iff] at h
  obtain ⟨⟨seen, rest'⟩, hclose, heq⟩ := h
  simp only [Option.some.injEq, Prod.mk.injEq] at heq
  obtain ⟨rfl, rfl, rfl⟩ := heq
  obtain ⟨body, rfl, htail⟩ := closeQuote_eq_some hclose
  simp only [List.append_nil, List.reverse_reverse]
  by_cases htriple : (quote :: tail).take 3 = [quote, quote, quote]
  · have hopen : quote :: tail = [quote, quote, quote] ++ tail.drop 2 := by
      rw [← htriple, show tail.drop 2 = (quote :: tail).drop 3 from rfl, List.take_append_drop]
    simp only [htriple, beq_self_eq_true, if_true, List.length_cons, List.length_nil] at htail ⊢
    refine ⟨?_, ⟨marks ++ [quote, quote, quote] ++ body ++ [quote, quote], quote, by simp, hne⟩, ?_⟩
    · rw [hopen]
      simp only [List.drop_succ_cons] at htail
      rw [htail]
      simp
    · simp only [List.length_append, List.length_cons, List.length_nil]
      omega
  · simp only [beq_eq_false_iff_ne.mpr htriple, Bool.false_eq_true, if_false, List.length_cons,
      List.length_nil] at htail ⊢
    refine ⟨?_, ⟨marks ++ [quote] ++ body, quote, by simp, hne⟩, ?_⟩
    · simp only [List.drop_succ_cons, List.drop_zero] at htail
      rw [htail]
      simp
    · simp only [List.length_append, List.length_cons, List.length_nil]
      omega

/-! ### Numerals -/

/-- A piece of a numeral was read: some characters other than line ends came off the front. -/
def Strips (cs rest : List Char) : Prop :=
  ∃ taken, cs = taken ++ rest ∧ ∀ c ∈ taken, c ≠ '\n'

theorem Strips.refl (cs : List Char) : Strips cs cs :=
  ⟨[], rfl, by simp⟩

theorem Strips.cons {c : Char} (hc : c ≠ '\n') (h : Strips cs rest) :
    Strips (c :: cs) rest := by
  obtain ⟨taken, rfl, htaken⟩ := h
  exact ⟨c :: taken, rfl, by simpa using ⟨hc, htaken⟩⟩

theorem Strips.trans {a b c : List Char} (hab : Strips a b) (hbc : Strips b c) : Strips a c := by
  obtain ⟨s, rfl, hs⟩ := hab
  obtain ⟨t, rfl, ht⟩ := hbc
  exact ⟨s ++ t, by simp, by simpa [or_imp, forall_and] using ⟨hs, ht⟩⟩

theorem Strips.length_le (h : Strips cs rest) : rest.length ≤ cs.length := by
  obtain ⟨taken, rfl, -⟩ := h
  simp

theorem digitRun_strips (hdigit : isDigit '\n' = false)
    {seen : List Char} (h : digitRun isDigit cs seen = some (ds, rest)) : Strips cs rest := by
  have hne : ∀ c, isDigit c = true → c ≠ '\n' := by
    rintro c hc rfl
    rw [hdigit] at hc
    cases hc
  fun_induction digitRun isDigit cs seen with
  | case1 => cases h
  | case2 c tail seen hbad ih =>
    refine .cons (by decide) (.cons (hne c ?_) (ih h))
    simp only [Bool.or_eq_true, Bool.not_eq_true', not_or, Bool.not_eq_false] at hbad
    exact hbad.2
  | case3 c tail seen _ hc ih => exact .cons (hne c hc) (ih h)
  | case4 => cases h
  | case5 =>
    obtain ⟨-, rfl⟩ := Prod.mk.inj (Option.some.inj h)
    exact .refl _
  | case6 => cases h
  | case7 =>
    obtain ⟨-, rfl⟩ := Prod.mk.inj (Option.some.inj h)
    exact .refl _

/-- The first digit is always taken. -/
theorem length_lt_of_digitRun (hdigit : isDigit '\n' = false)
    (h : digitRun isDigit cs [] = some (ds, rest)) :
    rest.length < cs.length := by
  unfold digitRun at h
  split at h
  · cases h
  · split at h
    · exact Nat.lt_succ_of_le (digitRun_strips hdigit h).length_le
    · cases h
  · cases h

theorem fraction_strips (h : fraction cs = some (ds, rest)) : Strips cs rest := by
  unfold fraction at h
  split at h
  · exact digitRun_strips (by decide) h
  · obtain ⟨-, rfl⟩ := Prod.mk.inj (Option.some.inj h)
    exact .refl _

theorem exponent_strips {e : Option Int} (h : exponent cs = some (e, rest)) :
    Strips cs rest := by
  unfold exponent at h
  split at h
  · next c tail =>
    split at h
    · obtain ⟨-, rfl⟩ := Prod.mk.inj (Option.some.inj h)
      exact .refl _
    · next hc =>
      have hne : c ≠ '\n' := by
        rintro rfl
        exact hc (by decide)
      split at h
      · next sign digits =>
        split at h
        · next hsign =>
          simp only [Option.bind_eq_bind, Option.pure_def, Option.bind_eq_some_iff,
            Option.some.injEq, Prod.mk.injEq] at h
          obtain ⟨⟨ds, tail⟩, hrun, -, rfl⟩ := h
          refine .cons hne (.cons ?_ (digitRun_strips (by decide) hrun))
          rintro rfl
          exact absurd hsign (by decide)
        · split at h
          · simp only [Option.bind_eq_bind, Option.pure_def, Option.bind_eq_some_iff,
              Option.some.injEq, Prod.mk.injEq] at h
            obtain ⟨⟨ds, tail⟩, hrun, -, rfl⟩ := h
            exact .cons hne (digitRun_strips (by decide) hrun)
          · split at h
            · obtain ⟨-, rfl⟩ := Prod.mk.inj (Option.some.inj h)
              exact .refl _
            · cases h
      · cases h
  · obtain ⟨-, rfl⟩ := Prod.mk.inj (Option.some.inj h)
    exact .refl _

/-- Behind the exponent a letter may come, which makes the number imaginary. -/
theorem numeralEnd_strips {imaginary : Literal} {real : Option (Literal × List Char)}
      (h : (match cs with
      | 'j' :: tail => (guard (endsNumeral tail = true) : Option Unit).bind fun _ =>
          some (imaginary, tail)
      | 'J' :: tail => (guard (endsNumeral tail = true) : Option Unit).bind fun _ =>
          some (imaginary, tail)
      | _ => real) = some (value, rest)) (hreal : ∀ r ∈ real, r.2 = cs) : Strips cs rest := by
  split at h
  · obtain ⟨-, -, h⟩ := Option.bind_eq_some_iff.mp h
    obtain ⟨-, rfl⟩ := Prod.mk.inj (Option.some.inj h)
    exact .cons (by decide) (.refl _)
  · obtain ⟨-, -, h⟩ := Option.bind_eq_some_iff.mp h
    obtain ⟨-, rfl⟩ := Prod.mk.inj (Option.some.inj h)
    exact .cons (by decide) (.refl _)
  · rw [show rest = cs from hreal _ h]
    exact .refl _

/-- The point of a fraction is always taken. -/
theorem decimalTail_strips {whole : List Char} (h : decimalTail whole cs = some (value, rest)) :
    Strips cs rest ∧ (cs.head? = some '.' → rest.length < cs.length) := by
  obtain ⟨mid, e, afterExp, hcs, hpoint, hexp, hend⟩ : ∃ mid e afterExp, Strips cs mid ∧
      (cs.head? = some '.' → mid.length < cs.length) ∧
      exponent mid = some (e, afterExp) ∧ Strips afterExp rest := by
    unfold decimalTail at h
    split at h
    case' h_1 =>
      simp only [Option.bind_eq_bind, Option.bind_eq_some_iff, Option.map_eq_some_iff, Prod.exists,
        Prod.mk.injEq] at h
      obtain ⟨_, _, _, ⟨ds, mid, hfrac, -, -, rfl⟩, e, afterExp, hexp, h⟩ := h
      have hmid := fraction_strips hfrac
      refine ⟨_, e, afterExp, .cons (by decide) hmid,
        fun _ => Nat.lt_succ_of_le hmid.length_le, hexp, numeralEnd_strips h ?_⟩
    case' h_2 hnot =>
      simp only [Option.bind_eq_bind, Option.bind_eq_some_iff, Prod.exists,
        Prod.mk.injEq, Option.some.injEq] at h
      obtain ⟨_, _, _, ⟨-, -, rfl⟩, e, afterExp, hexp, h⟩ := h
      refine ⟨_, e, afterExp, .refl _, fun hhead => ?_, hexp, numeralEnd_strips h ?_⟩
      · obtain ⟨tail, rfl⟩ := List.head?_eq_some_iff.mp hhead
        exact absurd rfl (hnot tail)
    -- with a fraction or without one, a real number ends where its exponent does
    all_goals
      intro r hr
      simp only [Option.mem_def, Option.bind_eq_some_iff] at hr
      obtain ⟨-, -, hr⟩ := hr
      split at hr
      · cases hr
        rfl
      · simp only [Option.bind_eq_some_iff] at hr
        obtain ⟨-, -, -, -, hr⟩ := hr
        cases hr
        rfl
  have hrest := (exponent_strips hexp).trans hend
  exact ⟨hcs.trans hrest, fun hhead => Nat.lt_of_le_of_lt hrest.length_le (hpoint hhead)⟩

theorem basedInteger_strips {base : Nat} (hdigit : isDigit '\n' = false)
    (h : basedInteger base isDigit cs = some (value, rest)) :
    Strips cs rest := by
  unfold basedInteger at h
  simp only [Option.bind_eq_bind, Option.pure_def, Option.bind_eq_some_iff, Option.some.injEq,
    Prod.mk.injEq, Prod.exists] at h
  obtain ⟨ds, rest', hrun, -, -, -, rfl⟩ := h
  have hrest := digitRun_strips hdigit hrun
  split at hrest
  · next hmark =>
    obtain ⟨tail, rfl⟩ := List.head?_eq_some_iff.mp (eq_of_beq hmark)
    exact .cons (by decide) hrest
  · exact hrest

/-- A numeral takes something off the front, and no line end. -/
theorem numeral_strips (h : numeral cs = some (value, rest)) :
    Strips cs rest ∧ rest.length < cs.length := by
  have hbased : ∀ {base : Nat} {isDigit : Char → Bool} {c d : Char} {tail : List Char},
      isDigit '\n' = false → c ≠ '\n' → d ≠ '\n' →
      basedInteger base isDigit tail = some (value, rest) →
      Strips (c :: d :: tail) rest ∧ rest.length < (c :: d :: tail).length := by
    intro base isDigit c d tail hdigit hc hd hbase
    have htail := basedInteger_strips hdigit hbase
    have hlength := htail.length_le
    exact ⟨.cons hc (.cons hd htail), by simp only [List.length_cons]; omega⟩
  unfold numeral at h
  split at h
  · exact hbased (by decide) (by decide) (by decide) h
  · exact hbased (by decide) (by decide) (by decide) h
  · exact hbased (by decide) (by decide) (by decide) h
  · exact hbased (by decide) (by decide) (by decide) h
  · exact hbased (by decide) (by decide) (by decide) h
  · exact hbased (by decide) (by decide) (by decide) h
  · obtain ⟨hstrips, hpoint⟩ := decimalTail_strips h
    exact ⟨hstrips, hpoint rfl⟩
  · simp only [Option.bind_eq_bind, Option.bind_eq_some_iff, Prod.exists] at h
    obtain ⟨whole, mid, hrun, h⟩ := h
    have hmid := (decimalTail_strips h).1
    exact ⟨(digitRun_strips (by decide) hrun).trans hmid,
      Nat.lt_of_le_of_lt hmid.length_le (length_lt_of_digitRun (by decide) hrun)⟩

/-- Whatever is read is a number. -/
def ReadsNumber (x : Option (Literal × List Char)) : Prop :=
  ∀ r ∈ x, r.1.isNumber = true

theorem readsNumber_some (h : value.isNumber = true) :
    ReadsNumber (some (value, rest)) := by
  rintro r ⟨⟩
  exact h

theorem readsNumber_bind {α : Type} {x : Option α} {f : α → Option (Literal × List Char)}
    (hf : ∀ a, ReadsNumber (f a)) : ReadsNumber (x >>= f) := by
  intro r hr
  obtain ⟨a, -, hr⟩ := Option.bind_eq_some_iff.mp hr
  exact hf a r hr

theorem readsNumber_basedInteger (base : Nat) (isDigit : Char → Bool) (cs : List Char) :
    ReadsNumber (basedInteger base isDigit cs) :=
  readsNumber_bind fun _ => readsNumber_bind fun _ => readsNumber_some rfl

theorem readsNumber_decimalTail (whole cs : List Char) : ReadsNumber (decimalTail whole cs) := by
  unfold decimalTail
  dsimp only
  -- with and without a fraction the numeral goes on in the same way
  split <;>
  · refine readsNumber_bind fun _ => readsNumber_bind fun _ => ?_
    split
    · exact readsNumber_bind fun _ => readsNumber_some rfl
    · exact readsNumber_bind fun _ => readsNumber_some rfl
    · refine readsNumber_bind fun _ => ?_
      split
      · exact readsNumber_some rfl
      · exact readsNumber_bind fun _ => readsNumber_bind fun _ => readsNumber_some rfl

theorem readsNumber_numeral (cs : List Char) : ReadsNumber (numeral cs) := by
  unfold numeral
  split
  · exact readsNumber_basedInteger _ _ _
  · exact readsNumber_basedInteger _ _ _
  · exact readsNumber_basedInteger _ _ _
  · exact readsNumber_basedInteger _ _ _
  · exact readsNumber_basedInteger _ _ _
  · exact readsNumber_basedInteger _ _ _
  · exact readsNumber_decimalTail _ _
  · exact readsNumber_bind fun _ => readsNumber_decimalTail _ _

/-- A numeral is the text that was taken. -/
theorem spelled_numeral (h : numeral cs = some (value, rest)) :
    cs = cs.take (cs.length - rest.length) ++ rest ∧
      Spelled (.number value) (cs.take (cs.length - rest.length)) rest := by
  obtain ⟨⟨taken, rfl, htaken⟩, hlt⟩ := numeral_strips h
  rw [List.length_append, Nat.add_sub_cancel, List.take_left]
  refine ⟨rfl, solid_of_forall ?_ htaken, readsNumber_numeral _ _ h⟩
  rintro rfl
  simp at hlt

/-! ### Operators -/

/-- Operators are not empty and hold no line end. -/
theorem solid_operators : ∀ op ∈ operators, op ≠ [] ∧ ∀ c ∈ op, c ≠ '\n' := by
  have hall : (operators.all fun op => !op.isEmpty && op.all (· ≠ '\n')) = true := by decide
  simpa using hall

/-- An operator is the text that was found. -/
theorem spelled_operator {op : List Char} (h : operators.find? (·.isPrefixOf cs) = some op) :
    cs = op ++ cs.drop op.length ∧
      Spelled (.op (String.ofList op)) op (cs.drop op.length) := by
  obtain ⟨hne, hchars⟩ := solid_operators op (List.mem_of_find?_eq_some h)
  have hbegins := List.find?_some h
  obtain ⟨rest, rfl⟩ := List.isPrefixOf_iff_prefix.mp hbegins
  rw [List.drop_left]
  exact ⟨rfl, solid_of_forall hne hchars, by simp⟩

/-! ## Tokens in a text -/

/-- The tokens stand at the front of the text, which starts at the place `p`. A token has the extent
of its text; that of a line end is empty. -/
inductive Written : Position → List Char → List Token → Prop where
  | nil (p : Position) (cs : List Char) : Written p cs []
  | cons {p : Position} {gap w rest : List Char} {t : Token} {ts : List Token}
      (hgap : Trivia gap (w ++ rest)) (hw : Spelled t.kind w rest)
      (hstart : t.extent.start = p.after gap)
      (hstop : t.extent.stop = (p.after gap).after (if t.kind = .newline then [] else w))
      (hrest : Written ((p.after gap).after w) rest ts) :
      Written p (gap ++ (w ++ rest)) (t :: ts)

/-- Trivia in front moves the tokens on. -/
theorem Written.prepend {gap : List Char} (hgap : Trivia gap cs)
    (h : Written (p.after gap) cs ts) : Written p (gap ++ cs) ts := by
  cases h with
  | nil => exact .nil p _
  | @cons _ gap' w rest t ts hgap' hw hstart hstop hrest =>
    have hafter : (p.after gap).after gap' = p.after (gap ++ gap') :=
      (Position.after_append ..).symm
    rw [hafter] at hstart hstop hrest
    rw [← List.append_assoc]
    exact .cons (hgap.append hgap') hw hstart hstop hrest

/-- A token in front of the others. -/
theorem Written.token (hcs : cs = w ++ rest) (hw : Spelled kind w rest) (hkind : kind ≠ .newline)
    (h : Written (p.after w) rest ts) : Written p cs (⟨kind, p, p.after w⟩ :: ts) := by
  subst hcs
  have hgap : Trivia [] (w ++ rest) := .nil _
  exact .cons hgap hw rfl (by rw [if_neg hkind]; rfl) h

/-- Layout tokens without a text of their own. -/
theorem Written.replicate (hkind : kind = .indent ∨ kind = .dedent) (h : Written p cs ts)
    (n : Nat) :
    Written p cs (List.replicate n ⟨kind, p, p⟩ ++ ts) := by
  induction n with
  | zero => exact h
  | succ n ih =>
    rw [List.replicate_succ, List.cons_append]
    refine Written.token (w := []) rfl ?_ ?_ ih
    · rcases hkind with rfl | rfl <;> rfl
    · rcases hkind with rfl | rfl <;> simp

/-! ## One step of the reader -/

/-- The white space in front of a line is trivia. -/
theorem trivia_measure {m m' : Margin} {fixed : Nat} {here here' : Position}
    (h : measure m fixed here cs = some (m', here', rest)) :
    ∃ gap, cs = gap ++ rest ∧ Trivia gap rest ∧ here' = here.after gap := by
  fun_induction measure m fixed here cs with
  | case1 m fixed here tail ih =>
    obtain ⟨gap, rfl, hgap, rfl⟩ := ih h
    exact ⟨' ' :: gap, rfl, .blank rfl hgap, rfl⟩
  | case2 m fixed here tail ih =>
    obtain ⟨gap, rfl, hgap, rfl⟩ := ih h
    exact ⟨'\t' :: gap, rfl, .blank rfl hgap, rfl⟩
  | case3 m fixed here tail ih =>
    obtain ⟨gap, rfl, hgap, rfl⟩ := ih h
    exact ⟨'\x0c' :: gap, rfl, .blank rfl hgap, rfl⟩
  | case4 => cases h
  | case5 m fixed here tail hne ih =>
    obtain ⟨gap, rfl, hgap, rfl⟩ := ih h
    refine ⟨'\\' :: '\n' :: gap, rfl, .join hgap, ?_⟩
    simp only [Position.after_cons, Position.advance_newline]
    rw [Position.advance_of_ne _ (by decide)]
  | case6 => cases h
  | case7 =>
    simp only [Option.some.injEq, Prod.mk.injEq] at h
    obtain ⟨-, rfl, rfl⟩ := h
    exact ⟨[], rfl, .nil _, rfl⟩

/-- The tokens at the start of a line go in front. -/
theorem written_lineStart {t : LexState} {us : List Token} (h : lineStart s = some (ts, t))
    (hus : Written t.here t.rest us) : Written s.here s.rest (ts ++ us) ∧ ts.reverse = ts := by
  unfold lineStart at h
  simp only [Option.bind_eq_bind, Option.pure_def, Option.bind_eq_some_iff, Prod.exists] at h
  obtain ⟨m, here, rest, hmeasure, h⟩ := h
  obtain ⟨gap, hrest, hgap, rfl⟩ := trivia_measure hmeasure
  rw [hrest]
  suffices hsuff : Written (s.here.after gap) rest (ts ++ us) ∧ ts.reverse = ts from
    ⟨hsuff.1.prepend hgap, hsuff.2⟩
  split at h
  · -- an empty line
    cases h
    exact ⟨hus.prepend (.lineEnd (.nil _)), rfl⟩
  · next tail =>
    have hcomment := trivia_comment tail
    have htake : ('#' :: tail).takeWhile (· ≠ '\n') = '#' :: tail.takeWhile (· ≠ '\n') := rfl
    have hdrop : ('#' :: tail).dropWhile (· ≠ '\n') = tail.dropWhile (· ≠ '\n') := rfl
    have hwhole : '#' :: tail = '#' :: tail.takeWhile (· ≠ '\n') ++ tail.dropWhile (· ≠ '\n') := by
      rw [List.cons_append, List.takeWhile_append_dropWhile]
    rw [htake, hdrop] at h
    split at h
    · next after hafter =>
      -- a line that holds only a comment
      cases h
      rw [hwhole, hafter, List.append_cons]
      rw [hafter] at hcomment
      exact ⟨hus.prepend (hcomment.append (b := ['\n']) (.lineEnd (.nil _))), rfl⟩
    · cases h
      rw [hwhole]
      exact ⟨hus.prepend hcomment, rfl⟩
  · -- a line with tokens, which may open or close blocks
    split at h
    · simp only [Option.bind_eq_some_iff, Option.some.injEq, Prod.mk.injEq] at h
      obtain ⟨-, -, rfl, rfl⟩ := h
      exact ⟨hus.replicate (.inl rfl) 1, rfl⟩
    · simp only [Option.bind_eq_some_iff, Option.some.injEq, Prod.mk.injEq, Prod.exists] at h
      obtain ⟨n, margins, -, rfl, rfl⟩ := h
      exact ⟨hus.replicate (.inr rfl) n, List.reverse_replicate⟩

/-- The token inside a line, if there is one, goes in front. -/
theorem written_inLine {t : LexState} {us : List Token} (h : inLine s = some (ts, t))
    (hus : Written t.here t.rest us) : Written s.here s.rest (ts ++ us) ∧ ts.reverse = ts := by
  unfold inLine at h
  split at h
  · cases h
  · next c rest hrest =>
    -- the cases of the lexer in their order; blanks, comments and joined lines are no tokens
    rw [hrest] at h ⊢
    split at h
    · next hblank =>
      cases h
      exact ⟨hus.prepend (.blank hblank (.nil _)), rfl⟩
    split at h
    · next hcomment =>
      cases h
      subst hcomment
      have hwhole : '#' :: rest = '#' :: rest.takeWhile (· ≠ '\n') ++
          rest.dropWhile (· ≠ '\n') := by
        rw [List.cons_append, List.takeWhile_append_dropWhile]
      rw [hwhole]
      exact ⟨hus.prepend (trivia_comment rest), rfl⟩
    split at h
    · next hjoin =>
      subst hjoin
      split at h
      · split at h
        · cases h
        · cases h
          exact ⟨hus.prepend (.join (.nil _)), rfl⟩
      · cases h
    split at h
    · next hnewline =>
      subst hnewline
      simp only at h
      split at h
      · cases h
        have hgap : Trivia [] (['\n'] ++ rest) := .nil _
        exact ⟨.cons hgap rfl rfl rfl hus, rfl⟩
      · cases h
        exact ⟨hus.prepend (.lineEnd (.nil _)), rfl⟩
    split at h
    · next marks hmarks =>
      simp only [Option.bind_eq_bind, Option.pure_def, Option.bind_eq_some_iff, Prod.exists,
        Option.some.injEq, Prod.mk.injEq] at h
      obtain ⟨q, taken, after, hquoted, rfl, rfl⟩ := h
      obtain ⟨hwhole, hspelled⟩ := spelled_quotedString hmarks hquoted
      exact ⟨.token hwhole hspelled (by simp) hus, rfl⟩
    · split at h
      · next hword =>
        simp only [Option.bind_eq_bind, Option.pure_def, Option.bind_eq_some_iff,
          Option.some.injEq, Prod.mk.injEq] at h
        obtain ⟨kind, hkind, rfl, rfl⟩ := h
        obtain ⟨hspelled, hne⟩ := spelled_word (Bool.and_eq_true_iff.mp hword).1 hkind
        exact ⟨.token List.takeWhile_append_dropWhile.symm hspelled hne hus, rfl⟩
      split at h
      · simp only [Option.bind_eq_bind, Option.pure_def, Option.bind_eq_some_iff, Prod.exists,
          Option.some.injEq, Prod.mk.injEq] at h
        obtain ⟨value, after, hnumeral, rfl, rfl⟩ := h
        obtain ⟨hwhole, hspelled⟩ := spelled_numeral hnumeral
        exact ⟨.token hwhole hspelled (by simp) hus, rfl⟩
      · simp only [Option.bind_eq_bind, Option.pure_def, Option.bind_eq_some_iff,
          Option.some.injEq, Prod.mk.injEq] at h
        obtain ⟨op, hop, brackets, -, rfl, rfl⟩ := h
        obtain ⟨hwhole, hspelled⟩ := spelled_operator hop
        exact ⟨.token hwhole hspelled (by simp) hus, rfl⟩

/-! ## Whole runs -/

/-- **The tokens that are read stand in the text.** Induction on the steps, each of which puts its
tokens in front of those of the rest of the run. -/
theorem written_lexAll {fuel : Nat} {seen out : List Token} (h : lexAll fuel s seen = some out) :
    ∃ ts, out = seen.reverse ++ ts ∧ Written s.here s.rest ts := by
  induction fuel generalizing s seen with
  | zero => cases h
  | succ fuel ih =>
    unfold lexAll at h
    split at h
    · split at h
      · next tokens t hstep =>
        obtain ⟨ts, rfl, hts⟩ := ih h
        obtain ⟨hwritten, hreverse⟩ := written_lineStart hstep hts
        exact ⟨tokens ++ ts, by rw [List.reverse_append, hreverse, List.append_assoc], hwritten⟩
      · cases h
    · split at h
      · next hempty =>
        split at h
        · obtain rfl := Option.some.inj h
          have hrest : s.rest = [] := List.isEmpty_iff.mp hempty
          refine ⟨[⟨.finish, s.here, s.here⟩], by rw [List.reverse_cons]; rfl, ?_⟩
          rw [hrest]
          exact .token (w := []) rfl ⟨rfl, rfl⟩ (by simp) (.nil _ _)
        · cases h
      · split at h
        · next tokens t hstep =>
          obtain ⟨ts, rfl, hts⟩ := ih h
          obtain ⟨hwritten, hreverse⟩ := written_inLine hstep hts
          exact ⟨tokens ++ ts, by rw [List.reverse_append, hreverse, List.append_assoc], hwritten⟩
        · cases h

/-- The tokens of a text stand in it. -/
theorem written_tokenize {tokens : List Token} (h : tokenize cs = some tokens) :
    Written ⟨1, 0⟩ cs tokens := by
  obtain ⟨ts, rfl, hts⟩ := written_lexAll h
  exact hts

end Addon.Script
