import Addon.Script.Parser.Basic
import Addon.Proofs.Script.Lexer

/-!
# Cursor — what a parser takes

A parser moves a cursor over tokens. This module has the moves and the rules by which they are put
together.

## The architecture

* **`Takes`**, **`Advances`**, **`Past`** — the cursor moves over one token, over any number of
  them, or over some of which at least one is not layout.
* **`Ensures p c Q`** — whatever `p` reads from `c`, the result and the cursor behind it satisfy
  `Q`. There is one rule for each primitive parser, stated with what follows it, so that a proof
  about a piece of the grammar goes through its text line by line.
* **`Chain R c as d`** — items in a row, each of which `R` places between two cursors.
* **`Within text c`** — the cursor stands in a text: the last token that was taken ends at `last`,
  only trivia lies between there and the tokens to come, and those are written in what is left.
  Every move keeps this (`Within.of_advances`).
-/

namespace Addon.Script

variable {k : TokenKind} {rules : Rules} {more : Parser Bool}

/-- The end of the last token that is not layout, once one more token is taken. -/
def Token.reach (last : Position) (t : Token) : Position :=
  if t.kind.isLayout then last else t.extent.stop

/-- The same for a row of tokens. -/
def lastOf (last : Position) (ts : List Token) : Position :=
  ts.foldl Token.reach last

theorem lastOf_append (p : Position) (ts us : List Token) :
    lastOf p (ts ++ us) = lastOf (lastOf p ts) us :=
  List.foldl_append

namespace Cursor

/-- Where the next token starts. -/
def pos (c : Cursor) : Position :=
  match c.rest with
  | t :: _ => t.extent.start
  | [] => c.last

/-- The kind of the next token. -/
def kind (c : Cursor) : TokenKind :=
  match c.rest with
  | t :: _ => t.kind
  | [] => .finish

/-! ## Moves -/

/-- The cursor moves over one token. -/
def Takes (c : Cursor) (t : Token) (d : Cursor) : Prop :=
  c.rest = t :: d.rest ∧ d.last = t.reach c.last

/-- The cursor moves over some tokens, or none. -/
def Advances (c d : Cursor) : Prop :=
  ∃ ts, c.rest = ts ++ d.rest ∧ d.last = lastOf c.last ts

/-- The cursor moves over tokens of which at least one is not layout. -/
def Past (c d : Cursor) : Prop :=
  ∃ ts, c.rest = ts ++ d.rest ∧ d.last = lastOf c.last ts ∧ ∃ t ∈ ts, t.kind.isLayout = false

variable {c d e : Cursor} {t : Token}

theorem Advances.refl (c : Cursor) : c.Advances c :=
  ⟨[], rfl, rfl⟩

theorem Advances.trans (hcd : c.Advances d) (hde : d.Advances e) : c.Advances e := by
  obtain ⟨ts, hts, hlast⟩ := hcd
  obtain ⟨us, hus, hlast'⟩ := hde
  refine ⟨ts ++ us, by rw [hts, hus, List.append_assoc], ?_⟩
  rw [lastOf_append, ← hlast, hlast']

theorem Takes.advances (h : c.Takes t d) : c.Advances d :=
  ⟨[t], h.1, h.2⟩

theorem Takes.past (h : c.Takes t d) (ht : t.kind.isLayout = false) : c.Past d :=
  ⟨[t], h.1, h.2, t, List.mem_singleton_self t, ht⟩

theorem Takes.pos (h : c.Takes t d) : c.pos = t.extent.start := by
  rw [Cursor.pos, h.1]

theorem Takes.kind (h : c.Takes t d) : c.kind = t.kind := by
  rw [Cursor.kind, h.1]

theorem Takes.last (h : c.Takes t d) (ht : t.kind.isLayout = false) : d.last = t.extent.stop := by
  rw [h.2, Token.reach, ht]
  rfl

theorem Past.advances (h : c.Past d) : c.Advances d := by
  obtain ⟨ts, hts, hlast, -⟩ := h
  exact ⟨ts, hts, hlast⟩

theorem Past.trans (hcd : c.Past d) (hde : d.Advances e) : c.Past e := by
  obtain ⟨ts, hts, hlast, t, ht, hsolid⟩ := hcd
  obtain ⟨us, hus, hlast'⟩ := hde
  refine ⟨ts ++ us, by rw [hts, hus, List.append_assoc], ?_, t, List.mem_append_left us ht, hsolid⟩
  rw [lastOf_append, ← hlast, hlast']

theorem Advances.past (hcd : c.Advances d) (hde : d.Past e) : c.Past e := by
  obtain ⟨ts, hts, hlast⟩ := hcd
  obtain ⟨us, hus, hlast', u, hu, hsolid⟩ := hde
  refine ⟨ts ++ us, by rw [hts, hus, List.append_assoc], ?_, u, List.mem_append_right ts hu, hsolid⟩
  rw [lastOf_append, ← hlast, hlast']

/-- Induction along a move, from its end. -/
theorem Advances.head_induction {P : Cursor → Prop} (hcd : c.Advances d) (hend : P d)
    (hstep : ∀ {a b : Cursor} {t : Token}, a.Takes t b → P b → P a) : P c := by
  obtain ⟨ts, hts, hlast⟩ := hcd
  induction ts generalizing c with
  | nil =>
    have hsame : c = d := by
      cases c
      cases d
      simp_all [lastOf]
    exact hsame ▸ hend
  | cons t ts ih =>
    have ht : c.Takes t ⟨ts ++ d.rest, t.reach c.last⟩ := ⟨hts, rfl⟩
    exact hstep ht (ih rfl hlast)

end Cursor

/-! ## Rules for parsers -/

namespace Parser

open Cursor

/-- Whatever the parser reads from `c`, the result and the cursor behind it satisfy `Q`. -/
def Ensures {α : Type} (p : Parser α) (c : Cursor) (Q : α → Cursor → Prop) : Prop :=
  ∀ a d, p c = some (a, d) → Q a d

/-- The parser moves on, whatever it reads. -/
def Moves {α : Type} (p : Parser α) : Prop :=
  ∀ c, Ensures p c (fun _ d => c.Advances d)

section Rules

variable {α β : Type} {p q : Parser α} {f : α → Parser β} {c : Cursor} {Q : β → Cursor → Prop}
  {R : α → Cursor → Prop}

theorem Ensures.mono {R' : α → Cursor → Prop} (h : Ensures p c R) (hR : ∀ a d, R a d → R' a d) :
    Ensures p c R' :=
  fun a d hp => hR a d (h a d hp)

theorem Ensures.bind (h : Ensures p c R) (hf : ∀ a d, R a d → Ensures (f a) d Q) :
    Ensures (p >>= f) c Q := by
  intro b e hb
  have hrun : (p c).bind (fun r => f r.1 r.2) = some (b, e) := hb
  obtain ⟨⟨a, d⟩, hp, hfa⟩ := Option.bind_eq_some_iff.mp hrun
  exact hf a d (h a d hp) b e hfa

theorem ensures_pure {a : α} (h : R a c) : Ensures (pure a) c R := by
  intro b d hb
  obtain ⟨rfl, rfl⟩ := Prod.mk.inj (Option.some.inj hb)
  exact h

theorem ensures_failure : Ensures (failure : Parser α) c R := by
  intro a d ha
  cases ha

theorem ensures_orElse (hp : Ensures p c R) (hq : Ensures q c R) : Ensures (p <|> q) c R := by
  intro a d h
  have hrun : (p c <|> q c) = some (a, d) := h
  cases hpc : p c with
  | some r =>
    rw [hpc] at hrun
    exact hp a d (hpc.trans hrun)
  | none =>
    rw [hpc] at hrun
    exact hq a d hrun

variable {g : Parser β}

theorem guard_bind {b : Prop} [Decidable b] {f : Unit → Parser β}
    (h : b → Ensures (f ()) c Q) : Ensures (guard b >>= f) c Q := by
  by_cases hb : b
  · refine Ensures.bind (R := fun _ d => d = c) ?_ ?_
    · intro a d ha
      rw [guard, if_pos hb] at ha
      exact (Prod.mk.inj (Option.some.inj ha)).2.symm
    · rintro - d rfl
      exact h hb
  · refine Ensures.bind (R := fun _ _ => False) ?_ (fun _ _ hfalse => hfalse.elim)
    intro a d ha
    rw [guard, if_neg hb] at ha
    cases ha

theorem peek_bind {f : TokenKind → Parser β} (h : Ensures (f c.kind) c Q) :
    Ensures (peek >>= f) c Q := by
  refine Ensures.bind (R := fun k d => k = c.kind ∧ d = c) ?_ ?_
  · intro k d hk
    unfold peek at hk
    unfold Cursor.kind
    split at hk <;> cases hk <;> simp_all
  · rintro _ _ ⟨rfl, rfl⟩
    exact h

theorem peekSecond_bind {f : TokenKind → Parser β} (h : ∀ k, Ensures (f k) c Q) :
    Ensures (peekSecond >>= f) c Q := by
  refine Ensures.bind (R := fun _ d => d = c) ?_ ?_
  · intro k d hk
    unfold peekSecond at hk
    split at hk <;> exact (Prod.mk.inj (Option.some.inj hk)).2.symm
  · rintro k _ rfl
    exact h k

theorem here_bind {f : Position → Parser β} (h : Ensures (f c.pos) c Q) :
    Ensures (here >>= f) c Q := by
  refine Ensures.bind (R := fun p d => p = c.pos ∧ d = c) ?_ ?_
  · intro p d hp
    unfold here at hp
    unfold Cursor.pos
    split at hp <;> cases hp <;> simp_all
  · rintro _ _ ⟨rfl, rfl⟩
    exact h

theorem since_bind {start : Position} {f : Extent → Parser β}
    (h : Ensures (f ⟨start, c.last⟩) c Q) :
    Ensures (since start >>= f) c Q := by
  refine Ensures.bind (R := fun x d => x = ⟨start, c.last⟩ ∧ d = c) ?_ ?_
  · intro x d hx
    obtain ⟨rfl, rfl⟩ := Prod.mk.inj (Option.some.inj hx)
    exact ⟨rfl, rfl⟩
  · rintro _ _ ⟨rfl, rfl⟩
    exact h

theorem ensures_take : Ensures take c (fun t d => c.Takes t d) := by
  intro t d ht
  unfold take at ht
  split at ht
  · next u rest hrest =>
    obtain ⟨rfl, rfl⟩ := Prod.mk.inj (Option.some.inj ht)
    exact ⟨hrest, rfl⟩
  · cases ht

theorem take_bind {f : Token → Parser β} (h : ∀ t d, c.Takes t d → Ensures (f t) d Q) :
    Ensures (take >>= f) c Q :=
  ensures_take.bind h

theorem nextIs_bind {f : Bool → Parser β} (h : Ensures (f (decide (c.kind = k))) c Q) :
    Ensures (nextIs k >>= f) c Q := by
  refine Ensures.bind (R := fun b d => b = decide (c.kind = k) ∧ d = c) ?_ ?_
  · exact peek_bind (ensures_pure ⟨rfl, rfl⟩)
  · rintro _ _ ⟨rfl, rfl⟩
    exact h

/-- A token of the kind is taken, or the cursor stays. -/
theorem ensures_accept :
    Ensures (accept k) c (fun b d => if b then ∃ t, c.Takes t d ∧ t.kind = k else d = c) := by
  refine nextIs_bind ?_
  by_cases hk : c.kind = k
  · rw [decide_eq_true hk, if_pos rfl]
    refine take_bind fun t d ht => ensures_pure ?_
    rw [if_pos rfl]
    exact ⟨t, ht, by rw [← ht.kind, hk]⟩
  · rw [decide_eq_false hk, if_neg Bool.false_ne_true]
    exact ensures_pure rfl

theorem accept_bind {f : Bool → Parser β}
    (htrue : ∀ t d, c.Takes t d → t.kind = k → Ensures (f true) d Q)
    (hfalse : Ensures (f false) c Q) : Ensures (accept k >>= f) c Q := by
  refine ensures_accept.bind fun b d hb => ?_
  cases b with
  | true =>
    obtain ⟨t, ht, hk⟩ := hb
    exact htrue t d ht hk
  | false =>
    obtain rfl : d = c := hb
    exact hfalse

theorem ensures_expect :
    Ensures (expect k) c (fun _ d => ∃ t, c.Takes t d ∧ t.kind = k) := by
  refine accept_bind (fun t d ht hk => ?_) ?_
  · intro a e ha
    rw [guard, if_pos rfl] at ha
    obtain ⟨-, rfl⟩ := Prod.mk.inj (Option.some.inj ha)
    exact ⟨t, ht, hk⟩
  · intro a e ha
    rw [guard, if_neg Bool.false_ne_true] at ha
    cases ha

theorem expect_bind {f : Unit → Parser β}
    (h : ∀ t d, c.Takes t d → t.kind = k → Ensures (f ()) d Q) : Ensures (expect k >>= f) c Q :=
  ensures_expect.bind fun _ d ⟨t, ht, hk⟩ => h t d ht hk

theorem ensures_identifier :
    Ensures identifier c (fun id d => ∃ t plain, c.Takes t d ∧ t.kind = .name id plain) := by
  refine peek_bind ?_
  split
  · next id plain hkind =>
    exact take_bind fun t d ht => ensures_pure ⟨t, plain, ht, by rw [← ht.kind, hkind]⟩
  · exact ensures_failure

theorem identifier_bind {f : String → Parser β}
    (h : ∀ id t d plain, c.Takes t d → t.kind = .name id plain → Ensures (f id) d Q) :
    Ensures (identifier >>= f) c Q :=
  ensures_identifier.bind fun id d ⟨t, plain, ht, hk⟩ => h id t d plain ht hk

/-! ### Branches -/

variable {a b : Parser β}

theorem accept_ite (htrue : ∀ t d, c.Takes t d → t.kind = k → Ensures a d Q)
    (hfalse : Ensures b c Q) : Ensures (accept k >>= fun r => if r = true then a else b) c Q :=
  accept_bind htrue hfalse

theorem nextIs_ite (htrue : c.kind = k → Ensures a c Q) (hfalse : Ensures b c Q) :
    Ensures (nextIs k >>= fun r => if r = true then a else b) c Q := by
  refine nextIs_bind ?_
  by_cases hk : c.kind = k
  · rw [if_pos (decide_eq_true hk)]
    exact htrue hk
  · rw [if_neg (by simpa using hk)]
    exact hfalse

/-- The parser only looks ahead. -/
def Still (p : Parser α) : Prop :=
  ∀ c, Ensures p c (fun _ d => d = c)

theorem Still.bind (h : Still p) (hf : ∀ a, Ensures (f a) c Q) : Ensures (p >>= f) c Q := by
  refine (h c).bind ?_
  rintro x _ rfl
  exact hf x

theorem Still.ite {p : Parser Bool} (h : Still p) (htrue : Ensures a c Q) (hfalse : Ensures b c Q) :
    Ensures (p >>= fun r => if r = true then a else b) c Q := by
  refine h.bind fun r => ?_
  cases r with
  | true => exact htrue
  | false => exact hfalse

theorem Still.moves (h : Still p) : Moves p :=
  fun c => (h c).mono fun _ _ hd => hd ▸ .refl _

theorem still_pure (x : α) : Still (pure x : Parser α) :=
  fun _ => ensures_pure rfl

theorem still_peek_bind {f : TokenKind → Parser β} (h : ∀ k, Still (f k)) : Still (peek >>= f) :=
  fun c => peek_bind (h c.kind c)

theorem still_peekSecond_bind {f : TokenKind → Parser β} (h : ∀ k, Still (f k)) :
    Still (peekSecond >>= f) :=
  fun c => peekSecond_bind fun k => h k c

theorem still_nextIs (k : TokenKind) : Still (nextIs k) :=
  still_peek_bind fun _ => still_pure _

theorem moves_accept (k : TokenKind) : Moves (accept k) := by
  refine fun c => ensures_accept.mono fun b d hb => ?_
  cases b with
  | true =>
    obtain ⟨t, ht, -⟩ := hb
    exact ht.advances
  | false =>
    obtain rfl : d = c := hb
    exact .refl _

end Rules

/-! ### Repetition -/

/-- A loop keeps what each of its steps keeps. The last step has no result and may still move. -/
theorem ensures_iterate {α : Type} {step : α → Parser (Option α)} {Q : α → Cursor → Prop}
    (I : α → Cursor → Prop)
    (hstep : ∀ a c, I a c → Ensures (step a) c (fun r d =>
      match r with
      | some b => I b d
      | none => Q a d)) (bound : Nat) {a : α} {c : Cursor} (h : I a c) :
    Ensures (iterate step bound a) c Q := by
  induction bound generalizing a c with
  | zero => exact ensures_failure
  | succ bound ih =>
    refine (hstep a c h).bind fun r d hr => ?_
    cases r with
    | some b => exact ih hr
    | none => exact ensures_pure hr

/-- Items in a row, each between two cursors. -/
inductive Chain {α : Type} (R : Cursor → α → Cursor → Prop) : Cursor → List α → Cursor → Prop where
  | nil {c d : Cursor} (h : c.Advances d) : Chain R c [] d
  | cons {c d e f : Cursor} {a : α} {as : List α} (h : c.Advances d) (ha : R d a e)
      (has : Chain R e as f) : Chain R c (a :: as) f

section Chain

variable {α : Type} {R : Cursor → α → Cursor → Prop} {c d e : Cursor} {as bs : List α} {a : α}

theorem Chain.trans (h : Chain R c as d) (hde : d.Advances e) : Chain R c as e := by
  induction h with
  | nil hcd => exact .nil (hcd.trans hde)
  | cons hcd ha _ ih => exact .cons hcd ha (ih hde)

theorem Chain.of_advances (hcd : c.Advances d) (h : Chain R d as e) : Chain R c as e := by
  cases h with
  | nil hde => exact .nil (hcd.trans hde)
  | cons hde ha has => exact .cons (hcd.trans hde) ha has

theorem Chain.append (h : Chain R c as d) (h' : Chain R d bs e) : Chain R c (as ++ bs) e := by
  induction h with
  | nil hcd => exact h'.of_advances hcd
  | cons hcd ha _ ih => exact .cons hcd ha (ih h')

theorem Chain.single (h : R c a d) : Chain R c [a] d :=
  .cons (.refl c) h (.nil (.refl d))

theorem Chain.mono {R' : Cursor → α → Cursor → Prop} (hR : ∀ c a d, R c a d → R' c a d)
    (h : Chain R c as d) : Chain R' c as d := by
  induction h with
  | nil hcd => exact .nil hcd
  | cons hcd ha _ ih => exact .cons hcd (hR _ _ _ ha) ih

theorem Chain.advances (hR : ∀ c a d, R c a d → c.Advances d) (h : Chain R c as d) :
    c.Advances d := by
  induction h with
  | nil hcd => exact hcd
  | cons hcd ha _ ih => exact hcd.trans ((hR _ _ _ ha).trans ih)

/-- The items of `many` come in a row. -/
theorem ensures_many {item : Parser α} (hmore : Moves more)
    (hitem : ∀ c, Ensures item c (fun a d => R c a d)) :
    Ensures (many rules more item) c (fun as d => Chain R c as d) := by
  refine Ensures.bind (R := fun seen d => Chain R c seen.reverse d) ?_ fun seen d h =>
    ensures_pure h
  refine ensures_iterate (fun seen d => Chain R c seen.reverse d) ?_ rules.bound
    (.nil (.refl c))
  intro seen d hseen
  refine (hmore d).bind fun b e hde => ?_
  cases b with
  | true =>
    rw [if_pos rfl]
    refine (hitem e).bind fun a f ha => ensures_pure ?_
    show Chain R c (a :: seen).reverse f
    rw [List.reverse_cons]
    exact (hseen.trans hde).append (.single ha)
  | false => exact ensures_pure (hseen.trans hde)

/-- The items between commas come in a row. -/
theorem ensures_commaTail {item : Parser α} {first : α} (hmore : Moves more)
    (hitem : ∀ c, Ensures item c (fun a d => R c a d)) (hR : ∀ c a d, R c a d → c.Advances d)
    (hfirst : R c first d) :
    Ensures (commaTail rules more item first) d (fun r e => Chain R c r.1 e ∧ d.Advances e) := by
  refine Ensures.bind (R := fun r e => Chain R c r.1.reverse e ∧ d.Advances e) ?_
    fun r e h => ensures_pure h
  refine ensures_iterate (fun r e => Chain R c r.1.reverse e ∧ d.Advances e) ?_ rules.bound
    ⟨.single hfirst, .refl d⟩
  rintro ⟨seen, trailing⟩ e ⟨hseen, hde⟩
  cases trailing with
  | true => exact ensures_pure ⟨hseen, hde⟩
  | false =>
    refine accept_ite (fun t f ht _ => ?_) (ensures_pure ⟨hseen, hde⟩)
    refine (hmore f).bind fun b g hfg => ?_
    have heg := ht.advances.trans hfg
    cases b with
    | true =>
      rw [if_pos rfl]
      refine (hitem g).bind fun a k ha => ensures_pure ⟨?_, hde.trans (heg.trans (hR g a k ha))⟩
      rw [List.reverse_cons]
      exact (hseen.trans heg).append (.single ha)
    | false => exact ensures_pure ⟨hseen.trans heg, hde.trans heg⟩

end Chain

/-- A loop with items keeps what each item keeps, given what `more` has seen. -/
theorem ensures_many_of {α : Type} {item : Parser α} {c : Cursor} {I : List α → Cursor → Prop}
    (hstart : I [] c) (hstep : ∀ as d, I as d → Ensures more d (fun b e =>
      if b then Ensures item e (fun a f => I (as ++ [a]) f) else I as e)) :
    Ensures (many rules more item) c I := by
  refine Ensures.bind (R := fun seen d => I seen.reverse d) ?_ fun seen d h => ensures_pure h
  refine ensures_iterate (fun seen d => I seen.reverse d) ?_ rules.bound hstart
  intro seen d hseen
  refine (hstep seen.reverse d hseen).bind fun b e hb => ?_
  cases b with
  | true =>
    rw [if_pos rfl] at hb ⊢
    refine hb.bind fun a f ha => ensures_pure ?_
    show I (a :: seen).reverse f
    rwa [List.reverse_cons]
  | false => exact ensures_pure hb

/-! ### Parsers that move on -/

section Moves

variable {α β : Type} {p q : Parser α} {f : α → Parser β}

theorem Moves.bind (hp : Moves p) (hf : ∀ a, Moves (f a)) : Moves (p >>= f) :=
  fun c => (hp c).bind fun a d hcd => (hf a d).mono fun _ _ hde => hcd.trans hde

theorem Moves.ite {b : Prop} [Decidable b] (hp : Moves p) (hq : Moves q) :
    Moves (if b then p else q) := by
  split
  · exact hp
  · exact hq

theorem Moves.orElse (hp : Moves p) (hq : Moves q) : Moves (p <|> q) :=
  fun c => ensures_orElse (hp c) (hq c)

theorem moves_pure (a : α) : Moves (pure a : Parser α) :=
  fun c => ensures_pure (.refl c)

theorem moves_failure : Moves (failure : Parser α) :=
  fun _ => ensures_failure

theorem moves_guard (b : Prop) [Decidable b] : Moves (guard b : Parser Unit) := by
  unfold guard
  exact .ite (moves_pure _) moves_failure

theorem moves_peek : Moves peek :=
  fun c => bind_pure peek ▸ peek_bind (ensures_pure (.refl c))

theorem moves_peekSecond : Moves peekSecond :=
  fun c => bind_pure peekSecond ▸ peekSecond_bind fun _ => ensures_pure (.refl c)

theorem moves_here : Moves here :=
  fun c => bind_pure here ▸ here_bind (ensures_pure (.refl c))

theorem moves_since (start : Position) : Moves (since start) :=
  fun c => bind_pure (since start) ▸ since_bind (ensures_pure (.refl c))

theorem moves_take : Moves take :=
  fun _ => ensures_take.mono fun _ _ ht => ht.advances

theorem moves_expect (k : TokenKind) : Moves (expect k) :=
  fun _ => ensures_expect.mono fun _ _ ⟨_, ht, _⟩ => ht.advances

theorem moves_identifier : Moves identifier :=
  fun _ => ensures_identifier.mono fun _ _ ⟨_, _, ht, _⟩ => ht.advances

theorem moves_iterate {step : α → Parser (Option α)} (h : ∀ a, Moves (step a))
    (bound : Nat) (a : α) :
    Moves (iterate step bound a) := by
  intro c
  refine ensures_iterate (fun _ d => c.Advances d) (fun b d hcd => ?_) bound (.refl c)
  refine (h b d).mono fun r e hde => ?_
  cases r <;> exact hcd.trans hde

theorem moves_many (hmore : Moves more) (hp : Moves p) :
    Moves (many rules more p) := by
  refine .bind (moves_iterate (fun _ => hmore.bind fun _ => .ite ?_ (moves_pure _)) _ _)
    fun _ => moves_pure _
  exact hp.bind fun _ => moves_pure _

theorem moves_commaTail (hmore : Moves more) (hp : Moves p) (first : α) :
    Moves (commaTail rules more p first) := by
  intro c
  refine (ensures_commaTail (R := fun c _ d => c.Advances d) hmore hp (fun _ _ _ h => h)
    (.refl c)).mono fun _ _ h => h.2

end Moves

end Parser

/-! ## Cursors in a text -/

/-- The place behind the front part of a text. -/
def placeAfter (front : List Char) : Position :=
  Position.after ⟨1, 0⟩ front

/-- The cursor stands in the text. -/
structure Cursor.Within (text : List Char) (c : Cursor) : Prop where
  intro ::
  exists_split : ∃ front gap rest, text = front ++ (gap ++ rest) ∧ c.last = placeAfter front ∧
    (front = [] ∨ Solid front) ∧ Trivia gap rest ∧ Written (placeAfter (front ++ gap)) rest c.rest

namespace Cursor

/-- The cursor stands in the text also behind the next token. -/
theorem Within.of_takes {text : List Char} {c d : Cursor} {t : Token} (h : c.Within text)
    (ht : c.Takes t d) : d.Within text := by
  obtain ⟨front, gap, rest, rfl, hlast, hfront, hgap, hwritten⟩ := h
  obtain ⟨hrest, hreach⟩ := ht
  rw [hrest] at hwritten
  cases hwritten with
  | @cons _ gap' w rest' _ _ hgap' hw hstart hstop htail =>
    rw [placeAfter, ← Position.after_append, ← Position.after_append] at htail
    by_cases hlayout : t.kind.isLayout = true
    · -- layout becomes part of the trivia
      have hw' : Trivia w rest' := by
        cases hkind : t.kind with
        | newline =>
          rw [hkind] at hw
          rw [show w = ['\n'] from hw]
          exact .lineEnd (.nil _)
        | indent =>
          rw [hkind] at hw
          rw [show w = [] from hw]
          exact .nil _
        | dedent =>
          rw [hkind] at hw
          rw [show w = [] from hw]
          exact .nil _
        | finish =>
          rw [hkind] at hw
          rw [hw.1]
          exact .nil _
        | name _ _ | reserved _ | number _ | quoted _ | op _ =>
          rw [hkind] at hlayout
          cases hlayout
      refine ⟨front, gap ++ (gap' ++ w), rest', by simp, ?_, hfront, ?_, ?_⟩
      · rw [hreach, Token.reach, if_pos hlayout, hlast]
      · refine Trivia.append ?_ (hgap'.append hw')
        simpa using hgap
      · simpa [placeAfter] using htail
    · have hsolid : Solid w := hw.solid (by simpa using hlayout)
      refine ⟨front ++ gap ++ gap' ++ w, [], rest', by simp, ?_, .inr ?_, .nil _, ?_⟩
      · have hne : t.kind ≠ .newline := by
          intro hkind
          rw [hkind] at hlayout
          exact hlayout rfl
        rw [hreach, Token.reach, if_neg hlayout, hstop, if_neg hne]
        simp [placeAfter, Position.after_append]
      · obtain ⟨init, x, rfl, hx⟩ := hsolid
        exact ⟨front ++ gap ++ gap' ++ init, x, by simp, hx⟩
      · simpa [placeAfter] using htail

/-- Every move keeps the cursor in the text. -/
theorem Within.of_advances {text : List Char} {c d : Cursor} (h : c.Within text)
    (hcd : c.Advances d) : d.Within text :=
  hcd.head_induction (P := fun a => a.Within text → d.Within text) id
    (fun ht ih ha => ih (ha.of_takes ht)) h

end Cursor

end Addon.Script
