import Addon.Proofs.Annotated.Exports
import Addon.Proofs.Static.Shape

/-!
# Spelling — a marker says the same however its options are written

The options of a marker may stand in a dict display, as keyword arguments, or partly here and partly
there. What counts is the list of pairs that they make up (`markerArguments_expr`,
`paramOptions_expr`), since pairs can be put into a table one by one, or as a table of their own.

## The architecture

* **`Spelling`** — a way to write a marker. Its expressions may stand anywhere in the source.
* **`Agrees`** — two attempts come to the same, apart from places, which chains of attempts keep.
* **`agrees_readMethod`** — the records of a method whose marker is written in two ways.
* **`marker_spellings_agree`** — dict displays and keyword arguments, triggers and
  conditions, and parameters.
-/

namespace Addon.Annotated

open Script Source

variable {marker marker' : MethodMarker} {s s' : Spelling}

/-! ## Two attempts that come to the same -/

/-- Two attempts come to the same: to related results, to complaints about the same, each with a
place of its own, or to the same failure. -/
def Agrees {α β : Type} (scope : Scope) (R : α → β → Prop) (x : Attempt α) (y : Attempt β) : Prop :=
  (∃ a b, x = .ok a ∧ y = .ok b ∧ R a b) ∨
    (∃ v place place', x = complain scope v place ∧ y = complain scope v place') ∨
    ∃ f, x = .error f ∧ y = .error f

section Agrees

variable {α β γ δ : Type} {scope : Scope} {R : α → β → Prop} {S : γ → δ → Prop}

theorem agrees_ok {a : α} {b : β} (h : R a b) : Agrees scope R (.ok a) (.ok b) :=
  .inl ⟨a, b, rfl, rfl, h⟩

theorem agrees_complain (v : Violation) (place place' : Option Mark) :
    Agrees scope R (complain scope v place) (complain scope v place') :=
  .inr (.inl ⟨v, place, place', rfl, rfl⟩)

theorem agrees_refl (x : Attempt α) : Agrees scope Eq x x := by
  cases x with
  | ok a => exact agrees_ok rfl
  | error f => exact .inr (.inr ⟨f, rfl, rfl⟩)

theorem complain_bind (v : Violation) (place : Option Mark) (f : α → Attempt γ) :
    complain scope v place >>= f = complain scope v place := by
  unfold complain
  split <;> rfl

theorem Agrees.bind {x : Attempt α} {y : Attempt β} {f : α → Attempt γ} {g : β → Attempt δ}
    (hxy : Agrees scope R x y) (hfg : ∀ a b, R a b → Agrees scope S (f a) (g b)) :
    Agrees scope S (x >>= f) (y >>= g) := by
  rcases hxy with ⟨a, b, rfl, rfl, hab⟩ | ⟨v, place, place', rfl, rfl⟩ | ⟨failure, rfl, rfl⟩
  · exact hfg a b hab
  · rw [complain_bind, complain_bind]
    exact agrees_complain v place place'
  · exact .inr (.inr ⟨failure, rfl, rfl⟩)

theorem Agrees.bind_eq {x y : Attempt α} {f : α → Attempt γ} {g : α → Attempt δ}
    (hxy : Agrees scope Eq x y)
    (hfg : ∀ a, Agrees scope S (f a) (g a)) : Agrees scope S (x >>= f) (y >>= g) :=
  hxy.bind fun a _ hab => hab ▸ hfg a

end Agrees

/-! ## Spellings -/

/-- A way to write a marker with an optional display text, which is no dict display, and options.
The options that are given stand in a dict display, each with the place of its key, which may be
marked with `u`; the others are keyword arguments. -/
structure Spelling where
  extent : Extent
  callee : Expr
  text : Option Expr
  given : Option (Extent × List ((Extent × Bool) × String × Expr))
  named : List (String × Expr)
  text_ne_dict : ∀ x items, text ≠ some (.dict x items)

/-- Pairs without their places. -/
def barePairs (pairs : List (String × Expr)) : List (String × Expr) :=
  pairs.map fun p => (p.1, p.2.bare)

namespace Spelling

/-- The entries of a dict display. -/
def items (entries : List ((Extent × Bool) × String × Expr)) : List DictItem :=
  entries.map fun p => ⟨some (.constant p.1.1 (.str p.2.1 p.1.2)), p.2.2⟩

/-- The dict display, if there is one. -/
def display (s : Spelling) : Option Expr :=
  s.given.map fun d => .dict d.1 (items d.2)

/-- The keyword arguments. -/
def keywords (s : Spelling) : List Keyword :=
  s.named.map fun p => ⟨some p.1, p.2⟩

/-- The marker as it is written. -/
def expr (s : Spelling) : Expr :=
  .call s.extent s.callee (s.text.toList ++ s.display.toList) s.keywords

/-- The options in the dict display. -/
def displayed (s : Spelling) : List (String × Expr) :=
  s.given.toList.flatMap fun d => d.2.map (·.2)

/-- All options, in the order in which they are written. -/
def pairs (s : Spelling) : List (String × Expr) :=
  s.displayed ++ s.named

/-- The same text and the same options are written, apart from places. -/
structure Alike (s s' : Spelling) : Prop where
  text : s.text.map Expr.bare = s'.text.map Expr.bare
  pairs : barePairs s.pairs = barePairs s'.pairs

end Spelling

/-- The values of pairs. -/
def pairValues (scope : Scope) (env : Static.Env) (pairs : List (String × Expr)) :
    Attempt (List (String × Value)) :=
  pairs.mapM fun p => (Static.resolve scope env p.1 p.2).map fun v => (p.1, v)

section Pairs

variable (scope : Scope) (env : Static.Env)

theorem pairValues_cons (p : String × Expr) (rest : List (String × Expr)) :
    pairValues scope env (p :: rest) = do
      let v ← Static.resolve scope env p.1 p.2
      let others ← pairValues scope env rest
      return (p.1, v) :: others := by
  rw [pairValues, List.mapM_cons, ← pairValues]
  cases Static.resolve scope env p.1 p.2 <;> rfl

theorem resolveKeywords_spelling (s : Spelling) :
    Static.resolveKeywords scope env s.keywords =
      (pairValues scope env s.named).map Fields.ofList := by
  have hinto :
      ∀ ps options, Static.resolveKeywordsInto scope env options (ps.map fun p => ⟨some p.1, p.2⟩) =
      (pairValues scope env ps).map options.merge := by
    intro ps
    induction ps with
    | nil => exact fun _ => rfl
    | cons p rest ih =>
      intro options
      simp only [List.map_cons, Static.resolveKeywordsInto, pairValues_cons, ih]
      cases Static.resolve scope env p.1 p.2 with
      | error f => rfl
      | ok v => cases pairValues scope env rest <;> rfl
  exact hinto s.named []

theorem resolveOptions_spelling (s : Spelling) :
    Static.resolveOptions scope env s.display =
      (pairValues scope env s.displayed).map Fields.ofList := by
  have hinto : ∀ entries options, Static.resolveEntries scope env options (Spelling.items entries) =
      (pairValues scope env (entries.map (·.2))).map options.merge := by
    intro entries
    induction entries with
    | nil => exact fun _ => rfl
    | cons p rest ih =>
      intro options
      simp only [Spelling.items, List.map_cons] at ih ⊢
      simp only [Static.resolveEntries, pairValues_cons, ih]
      cases Static.resolve scope env p.2.1 p.2.2 with
      | error f => rfl
      | ok v => cases pairValues scope env (rest.map (·.2)) <;> rfl
  rw [Spelling.display, Spelling.displayed]
  rcases s.given with - | d
  · rfl
  · rw [Option.toList_some, List.flatMap_singleton]
    exact hinto d.2 []

theorem pairValues_pairs (s : Spelling) :
    pairValues scope env s.pairs = do
      let given ← pairValues scope env s.displayed
      let named ← pairValues scope env s.named
      return given ++ named :=
  List.mapM_append

/-- The options of a marker are its pairs, put into a table one after the other. -/
theorem options_spelling {α : Type} (base : Fields Value) (s : Spelling)
      (next : Fields Value → Attempt α) : (do
      let given ← Static.resolveOptions scope env s.display
      let named ← Static.resolveKeywords scope env s.keywords
      next ((base.merge given).merge named)) =
    (do
      let values ← pairValues scope env s.pairs
      next (base.merge values)) := by
  rw [resolveOptions_spelling, resolveKeywords_spelling, pairValues_pairs]
  cases pairValues scope env s.displayed with
  | error f => rfl
  | ok vs =>
    cases pairValues scope env s.named with
    | error f => rfl
    | ok ws =>
      have htable : (base.merge (Fields.ofList vs)).merge (Fields.ofList ws) =
          base.merge (vs ++ ws) := by
        rw [Fields.merge_ofList, Fields.merge_ofList]
        exact List.foldl_append.symm
      exact congrArg next htable

/-- Values do not depend on places. -/
theorem agrees_resolve (key : String) {e e' : Expr} (h : e.bare = e'.bare) :
    Agrees scope Eq (Static.resolve scope env key e) (Static.resolve scope env key e') := by
  have heval : Static.evalIn env e = Static.evalIn env e' := by
    unfold Static.evalIn
    rw [← Static.eval_bare, h, Static.eval_bare]
  unfold Static.resolve
  rw [heval]
  split
  · exact agrees_refl _
  · exact agrees_complain ..
  · exact agrees_refl _

theorem agrees_pairValues {ps qs : List (String × Expr)} (h : barePairs ps = barePairs qs) :
    Agrees scope Eq (pairValues scope env ps) (pairValues scope env qs) := by
  induction ps generalizing qs with
  | nil =>
    obtain rfl := List.map_eq_nil_iff.mp h.symm
    exact agrees_ok rfl
  | cons p ps ih =>
    obtain ⟨q, qs, rfl, hq, hqs⟩ := List.map_eq_cons_iff.mp h.symm
    obtain ⟨hkey, hvalue⟩ := Prod.mk.inj hq
    rw [pairValues_cons, pairValues_cons, hkey]
    refine (agrees_resolve scope env p.1 hvalue.symm).bind_eq fun v => ?_
    exact (ih hqs.symm).bind_eq fun others => agrees_ok rfl

/-! ## Markers of methods -/

theorem splitArguments?_spelling (s : Spelling) :
    splitArguments? (s.text.toList ++ s.display.toList) = some (s.text, s.display) := by
  obtain ⟨extent, callee, text, given, named, htext⟩ := s
  rcases text with - | e
  · rcases given <;> rfl
  · cases e with
    | dict x items => exact absurd rfl (htext x items)
    | _ => rcases given <;> rfl

/-- What the marker of a method says, in terms of its pairs. -/
theorem markerArguments_expr (method : String) (marker : MethodMarker) (s : Spelling) :
    markerArguments scope env method marker s.expr =
      if s.text.any isStarred then complainAt scope (.starArguments method) s.expr
      else do
        let values ← pairValues scope env s.pairs
        let text ← displayText scope env method s.expr s.text (marker.impliedOptions.merge values)
        return (text, marker.impliedOptions.merge values) := by
  have hstarred : (s.text.toList ++ s.display.toList).any isStarred = s.text.any isStarred := by
    rcases s with ⟨_, _, _ | e, _ | d, _, _⟩ <;> simp [Spelling.display, isStarred]
  rw [Spelling.expr, markerArguments, hstarred, splitArguments?_spelling]
  exact if_congr .rfl rfl (options_spelling scope env marker.impliedOptions s fun options => do
    let text ← displayText scope env method s.expr s.text options
    return (text, options))

theorem agrees_displayText (method : String) (d d' : Expr) {text text' : Option Expr}
    (h : text.map Expr.bare = text'.map Expr.bare) (options : Fields Value) :
    Agrees scope Eq (displayText scope env method d text options)
      (displayText scope env method d' text' options) := by
  unfold displayText
  rcases text with - | e <;> rcases text' with - | e'
  · refine Agrees.bind_eq (agrees_refl _) ?_
    rintro (- | -) <;> first | exact agrees_ok rfl | exact agrees_complain ..
  · cases h
  · cases h
  · refine Agrees.bind_eq (agrees_resolve scope env _ (Option.some.inj h)) ?_
    rintro (- | -) <;> first | exact agrees_ok rfl | exact agrees_complain ..

/-- Two markers say the same if they are written with the same text and their
options come to the same. -/
theorem agrees_markerArguments (method : String)
    (htext : s.text.map Expr.bare = s'.text.map Expr.bare)
    (hoptions : Agrees scope (fun vs vs' => marker.impliedOptions.merge vs =
      marker'.impliedOptions.merge vs')
      (pairValues scope env s.pairs) (pairValues scope env s'.pairs)) :
    Agrees scope Eq (markerArguments scope env method marker s.expr)
      (markerArguments scope env method marker' s'.expr) := by
  have hbare : ∀ e : Expr, isStarred e.bare = isStarred e := fun e => by cases e <;> rfl
  have hstarred := congrArg (Option.any isStarred) htext
  simp only [Option.any_map, hbare] at hstarred
  rw [markerArguments_expr, markerArguments_expr, hstarred]
  split
  · exact agrees_complain ..
  · refine hoptions.bind fun vs vs' hvs => ?_
    rw [hvs]
    exact (agrees_displayText scope env method _ _ htext _).bind_eq fun text => agrees_ok rfl

/-- The option that a trigger implies may be written out. -/
theorem agrees_trigger
    (h : barePairs s'.pairs = ("isTrigger", .constant nowhere (.bool true)) :: barePairs s.pairs) :
    Agrees scope
      (fun vs vs' => MethodMarker.trigger.impliedOptions.merge vs =
        MethodMarker.condition.impliedOptions.merge vs')
      (pairValues scope env s.pairs) (pairValues scope env s'.pairs) := by
  obtain ⟨⟨key, e⟩, rest, hpairs, hp, hrest⟩ := List.map_eq_cons_iff.mp h
  obtain ⟨rfl, he⟩ := Prod.mk.inj hp
  have hvalue : Static.resolve scope env "isTrigger" e = .ok (.bool true) := by
    unfold Static.resolve Static.evalIn
    rw [← Static.eval_bare, he]
    rfl
  rw [hpairs, pairValues_cons, hvalue, ← bind_pure (pairValues scope env s.pairs)]
  exact (agrees_pairValues scope env hrest.symm).bind_eq fun vs => agrees_ok rfl

end Pairs

/-! ## Methods -/

section Methods

variable {scope : Scope} {r : Reading}

/-- The spelling is that of a marker of methods, and it stands behind the sign of a decorator. -/
structure Spelling.Decorates (scope : Scope) (r : Reading) (s : Spelling) (marker : MethodMarker) :
    Prop where
  target : r.names.target s.callee = .ok (some (.method marker))
  span : ∃ x, decoratorSpan scope r.index s.expr = .ok x

theorem Spelling.Decorates.markerOf (h : s.Decorates scope r marker) :
    r.markerOf s.expr = .ok (some (.method marker)) :=
  markerOf_eq_ok.mpr h.target

/-- A method with a marker among its decorators. -/
def Method.marked (m : Method) (before : List Expr) (s : Spelling) (after : List Expr) : Method :=
  { m with decorators := before ++ s.expr :: after }

theorem markedDecorators_marked {e : Expr} {marker : Marker} (he : r.markerOf e = .ok (some marker))
    (before after : List Expr) :
    markedDecorators r (before ++ e :: after) = do
      let found ← markedDecorators r before
      let others ← markedDecorators r after
      return found ++ (e, marker) :: others := by
  induction before with
  | nil =>
    simp only [List.nil_append, markedDecorators, he]
    rfl
  | cons b before ih =>
    rw [List.cons_append, markedDecorators, ih, markedDecorators]
    cases r.markerOf b with
    | error f => rfl
    | ok marker =>
      cases markedDecorators r before with
      | error f => rfl
      | ok found =>
        cases markedDecorators r after with
        | error f => rfl
        | ok others => cases marker <;> rfl

theorem agrees_readMarked (m : Method) (before after : List Expr) (hs : s.Decorates scope r marker)
    (hs' : s'.Decorates scope r marker') (hkind : marker.kind = marker'.kind)
    (harguments : Agrees scope Eq (markerArguments scope r.env m.name marker s.expr)
      (markerArguments scope r.env m.name marker' s'.expr)) :
    Agrees scope (fun a b => a.1 = b.1) (readMarked scope r (m.marked before s after) s.expr marker)
      (readMarked scope r (m.marked before s' after) s'.expr marker') := by
  obtain ⟨x, hx⟩ := hs.span
  obtain ⟨x', hx'⟩ := hs'.span
  -- a call does not make a method static, so that the same parameters are read
  have hstatic : (before ++ s.expr :: after).any isStaticMark =
      (before ++ s'.expr :: after).any isStaticMark := by
    rw [List.any_append, List.any_append, List.any_cons, List.any_cons]
    rfl
  unfold readMarked Method.marked callerParams
  rw [hx, hx', hkind, hstatic]
  refine Agrees.bind (R := fun _ _ => True) (agrees_ok trivial) fun _ _ _ => ?_
  refine Agrees.bind_eq harguments fun arguments => ?_
  dsimp only
  split
  · exact agrees_complain ..
  · refine Agrees.bind_eq (agrees_refl _) fun params => ?_
    refine Agrees.bind_eq (agrees_refl _) fun category => ?_
    exact Agrees.bind_eq (agrees_refl _) fun returns => agrees_ok rfl

/-- A method has the same record if its marker says the same, whatever else decorates it. -/
theorem agrees_readMethod (m : Method) (before after : List Expr) (hs : s.Decorates scope r marker)
    (hs' : s'.Decorates scope r marker') (hkind : marker.kind = marker'.kind)
    (harguments : Agrees scope Eq (markerArguments scope r.env m.name marker s.expr)
      (markerArguments scope r.env m.name marker' s'.expr)) :
    Agrees scope (fun a b => a.map Prod.fst =
      b.map Prod.fst) (readMethod scope r (m.marked before s after))
      (readMethod scope r (m.marked before s' after)) := by
  unfold readMethod
  rw [Method.marked, Method.marked, markedDecorators_marked hs.markerOf,
    markedDecorators_marked hs'.markerOf, bind_assoc, bind_assoc]
  refine Agrees.bind_eq (agrees_refl _) fun found => ?_
  rw [bind_assoc, bind_assoc]
  refine Agrees.bind_eq (agrees_refl _) fun others => ?_
  rw [pure_bind, pure_bind]
  -- with any other marker among the decorators there are several in both
  rcases found with - | ⟨⟨-, k⟩, - | ⟨f, found⟩⟩
  · rcases others with - | ⟨o, others⟩
    · exact Agrees.bind (agrees_readMarked m before after hs hs' hkind harguments) fun x y hxy =>
        agrees_ok (congrArg some hxy)
    · exact agrees_complain ..
  all_goals cases k <;> exact agrees_complain ..

/-! ## Parameters -/

theorem paramOptions_expr (env : Static.Env) (param : String) (htext : s.text = none) :
    paramOptions scope env param (some s.expr) = do
      let values ← pairValues scope env s.pairs
      return Fields.ofList values := by
  have hoptions : paramOptions scope env param (some s.expr) = do
      let given ← (pairValues scope env s.displayed).map Fields.ofList
      let named ← (pairValues scope env s.named).map Fields.ofList
      return given.merge named := by
    rw [← resolveOptions_spelling, ← resolveKeywords_spelling]
    obtain ⟨extent, callee, text, given, named, hdict⟩ := s
    obtain rfl : text = none := htext
    rcases given with - | d
    -- without a dict display only the keyword arguments are looked at
    · show Static.resolveKeywords scope env _ =
        Static.resolveKeywords scope env _ >>= fun named => pure _
      rw [resolveKeywords_spelling]
      cases pairValues scope env named with
      | error f => rfl
      | ok ws => exact congrArg Except.ok (Fields.merge_ofList [] ws).symm
    · rfl
  rw [hoptions, pairValues_pairs]
  cases pairValues scope env s.displayed with
  | error f => rfl
  | ok vs =>
    cases pairValues scope env s.named with
    | error f => rfl
    | ok ws =>
      exact congrArg Except.ok ((Fields.merge_ofList _ ws).trans (Fields.ofList_append vs ws).symm)

/-- The spelling is that of the marker of a parameter, whose type has a tag. -/
structure Spelling.Annotates (scope : Scope) (r : Reading) (s : Spelling) (p : Script.Param)
    (tag : Except ParseError String) : Prop where
  text : s.text = none
  note : ∃ note, readNote scope r p = .ok note ∧ note.marker = some s.expr ∧
    TypeTag.ofExpr? note.type = tag

theorem agrees_readParam {p p' : Script.Param} {tag : Except ParseError String}
    (hname : p.name = p'.name) (h : s.Alike s') (hs : s.Annotates scope r p tag)
    (hs' : s'.Annotates scope r p' tag) (default : Option Expr) :
    Agrees scope (fun a b => a.1 = b.1) (readParam scope r p default)
      (readParam scope r p' default) := by
  obtain ⟨htext, note, hp, hmarker, htype⟩ := hs
  obtain ⟨htext', note', hp', hmarker', htype'⟩ := hs'
  have hid : ∀ options, Agrees scope Eq (paramId scope p options) (paramId scope p' options) := by
    intro options
    rw [paramId, paramId, hname]
    repeat' split
    all_goals first | exact agrees_ok rfl | exact agrees_complain ..
  have hitems : ∀ v, Agrees scope Eq (paramItems scope p v) (paramItems scope p' v) := by
    intro v
    unfold paramItems
    rw [hname]
    repeat' split
    all_goals first | exact agrees_ok rfl | exact agrees_complain ..
  have htypes : ∀ options, paramType options note.type = paramType options note'.type := by
    intro options
    rw [paramType, paramType, htype, htype']
  rw [readParam, readParam, hp, hp']
  -- the two readings step by step; only the positions of their notes differ
  refine Agrees.bind (R := fun a b => a = note ∧ b = note') (agrees_ok ⟨rfl, rfl⟩) ?_
  rintro _ _ ⟨rfl, rfl⟩
  rw [hmarker, hmarker', paramOptions_expr r.env p.name htext,
    paramOptions_expr r.env p'.name htext', bind_assoc, bind_assoc]
  refine Agrees.bind_eq (agrees_pairValues scope r.env h.pairs) fun values => ?_
  rw [pure_bind, pure_bind]
  refine Agrees.bind_eq (hid _) fun id => ?_
  refine Agrees.bind_eq (agrees_refl _) fun initial => ?_
  rw [htypes]
  refine Agrees.bind_eq (agrees_refl _) fun type => ?_
  exact Agrees.bind_eq (hitems _) fun items => agrees_ok rfl

end Methods

/-- The records that were read are the same, whatever is cut out. -/
def SameRecord (a b : Option (Ace.Record × List Span)) : Prop :=
  a.map Prod.fst = b.map Prod.fst

/-- If the first comes to a record, the second comes to the same one. -/
theorem Agrees.exists_record {scope : Scope} {x y : Attempt (Option (Ace.Record × List Span))}
    {P : Ace.Record → Prop} (h : Agrees scope SameRecord x y)
    (hx : ∃ record spans, x = .ok (some (record, spans)) ∧ P record) : ∃ record spans spans',
      x = .ok (some (record, spans)) ∧ y = .ok (some (record, spans')) ∧ P record := by
  obtain ⟨record, spans, hx, hrecord⟩ := hx
  rcases h with ⟨a, b, rfl, rfl, hab⟩ | ⟨v, place, place', rfl, -⟩ | ⟨f, rfl, -⟩
  · obtain rfl := Except.ok.inj hx
    obtain ⟨⟨_, spans'⟩, rfl, rfl⟩ := Option.map_eq_some_iff.mp hab.symm
    exact ⟨_, spans, spans', rfl, rfl, hrecord⟩
  · exact absurd hx complain_ne_ok
  · cases hx

/-- A marker of a method may have its options in a dict display or as keyword arguments, or some
here and some there; a trigger is a condition with one more option in front; and the markers of
parameters may be written in as many ways. -/
theorem marker_spellings_agree (scope : Scope) (r : Reading) (m : Method) (before after : List Expr)
    (s s' : Spelling) :
    (∀ marker, s.Alike s' → s.Decorates scope r marker → s'.Decorates scope r marker →
      Agrees scope SameRecord (readMethod scope r (m.marked before s after))
        (readMethod scope r (m.marked before s' after))) ∧
    (s.text.map Expr.bare = s'.text.map Expr.bare →
      barePairs s'.pairs = ("isTrigger", .constant nowhere (.bool true)) :: barePairs s.pairs →
      s.Decorates scope r .trigger → s'.Decorates scope r .condition →
      Agrees scope SameRecord (readMethod scope r (m.marked before s after))
        (readMethod scope r (m.marked before s' after))) ∧
    ∀ p p' tag default, p.name = p'.name → s.Alike s' → s.Annotates scope r p tag →
    s'.Annotates scope r p' tag →
      Agrees scope (fun a b => a.1 =
        b.1) (readParam scope r p default) (readParam scope r p' default) := by
  refine ⟨fun marker h hs hs' => ?_, fun htext hpairs hs hs' => ?_,
    fun p p' tag default hname h hs hs' => ?_⟩
  · refine agrees_readMethod m before after hs hs' rfl
      (agrees_markerArguments scope r.env m.name h.text ?_)
    rw [← bind_pure (pairValues scope r.env s.pairs), ← bind_pure (pairValues scope r.env s'.pairs)]
    exact (agrees_pairValues scope r.env h.pairs).bind_eq fun vs => agrees_ok rfl
  · exact agrees_readMethod m before after hs hs' rfl
      (agrees_markerArguments scope r.env m.name htext (agrees_trigger scope r.env hpairs))
  · exact agrees_readParam hname h hs hs' default

/-- Markers of methods on four lines, and of two parameters of one name on the fifth. -/
def spelledLines : String :=
  "@Action(\x7b'a': 1, 'b': 2\x7d)\n@Action(\x7b'a': 1\x7d, b=2)" ++
    "\n@Trigger(a=None)\n@Condition(\x7b'isTrigger': True\x7d, a=None)" ++
    "\ndef f(p: Param(\x7b'a': None\x7d), p: Param(a=None)): 0"

def spelledReading : Reading :=
  ⟨Index.ofSource spelledLines.toList, [], {}⟩

/-- A marker on a line. -/
def spelledAt (line start stop : Nat) (name : String) (given : Option (List (String × Literal)))
    (named : List (String × Literal)) : Spelling where
  extent := ⟨⟨line, start⟩, ⟨line, stop⟩⟩
  callee := .name nowhere name
  text := none
  given :=
    given.map fun ps => (nowhere, ps.map fun p => ((nowhere, false), p.1, .constant nowhere p.2))
  named := named.map fun p => (p.1, .constant nowhere p.2)
  text_ne_dict := nofun

def spelledMethod : Method :=
  ⟨nowhere, "f", ⟨[], [], [], none, [], none⟩, [], [], none⟩

/-- A parameter that ends with its marker. -/
def spelledParam (s : Spelling) : Script.Param :=
  ⟨⟨⟨5, s.extent.start.column - 3⟩, s.extent.stop⟩, "p", some s.expr⟩

/-- What comes of the method with one of the markers. -/
def spelledRecord (s : Spelling) : Attempt (Option (Ace.Record × List Span)) :=
  readMethod {} spelledReading (spelledMethod.marked [] s [])

set_option maxRecDepth 10000 in
/-- Two options are in a dict display, or one there and one as a keyword argument. A trigger is
written as a condition, and the option of a parameter as a keyword argument. -/
theorem marker_spellings_agree_lines :
    (∃ record spans spans',
      spelledRecord (spelledAt 1 1 25 "Action" (some [("a", .int 1), ("b", .int 2)]) []) =
        .ok (some (record, spans)) ∧
      spelledRecord (spelledAt 2 1 22 "Action" (some [("a", .int 1)]) [("b", .int 2)]) =
        .ok (some (record, spans')) ∧
      record.overrides = [("a", .int 1), ("b", .int 2)]) ∧
    (∃ record spans spans',
      spelledRecord (spelledAt 3 1 16 "Trigger" none [("a", .none)]) = .ok (some (record, spans)) ∧
      spelledRecord (spelledAt 4 1 39 "Condition" (some [("isTrigger", .bool true)])
        [("a", .none)]) =
        .ok (some (record, spans')) ∧
      record.kind = .condition ∧ record.overrides = [("isTrigger", .bool true), ("a", .null)]) ∧
    Agrees {} (fun a b => a.1 = b.1)
      (readParam {} spelledReading
        (spelledParam (spelledAt 5 9 27 "Param" (some [("a", .none)]) [])) none)
      (readParam {} spelledReading (spelledParam (spelledAt 5 32 45 "Param" none [("a", .none)]))
        none) := by
  have hlaws := marker_spellings_agree {} spelledReading spelledMethod [] []
  refine ⟨?_, ?_, ?_⟩
  · refine Agrees.exists_record ((hlaws _ _).1 .action ?_ ?_ ?_) ⟨_, _, rfl, rfl⟩
    · exact ⟨rfl, rfl⟩
    · exact ⟨rfl, _, rfl⟩
    · exact ⟨rfl, _, rfl⟩
  · refine Agrees.exists_record ((hlaws _ _).2.1 rfl rfl ?_ ?_) ⟨_, _, rfl, rfl, rfl⟩
    · exact ⟨rfl, _, rfl⟩
    · exact ⟨rfl, _, rfl⟩
  · exact (hlaws (spelledAt 5 9 27 "Param" (some [("a", .none)]) [])
      (spelledAt 5 32 45 "Param" none [("a", .none)])).2.2 _ _ (.ok "any") none rfl ⟨rfl, rfl⟩
        ⟨rfl, _, rfl, rfl, rfl⟩ ⟨rfl, _, rfl, rfl, rfl⟩

end Addon.Annotated
