import Addon.Proofs.Json.Encoding
import Addon.Proofs.Script.Texts
import Addon.TypeTag

/-!
# TypeTag — which annotations have a tag, and which tag it is

An annotation refers to a name, directly or through texts. The texts that are consulted on the way
are read as annotations themselves, and each of them is shorter than the one it stands in, so the
way comes to an end. A text with a NUL character or a surrogate cannot be read at all, and an
annotation that leads to one has no tag. Every other annotation has one, and it is never empty.

## The architecture

* **`Readable`** — a text that is read or found to be invalid; any other one stops the reading.
* **`Holds text e`** — the annotation `e` is written in the text.
* **`Refers e name`**, **`Consults e text`** — the name that an annotation refers to, and
  the texts on the way to it.
* **`Settles`** — an outcome gives the name that is referred to, and it fails only on a
  text that is not readable.
* **`settles_nameOf`** — the step: over a tree, given that the texts in it are settled.
* **`settles_forwardName`** — the run: through texts in texts, by induction on the depth,
  which exceeds their length.
-/

namespace Addon.TypeTag

open Script Text

variable {text : String} {outcome : Except ParseError (Option String)}

/-! ## Texts that can be read -/

/-- There is no NUL character in the text and no surrogate. -/
def Readable (text : String) : Prop :=
  '\x00' ∉ text.toList ∧ HasBytes text

/-- The characters of a text that are not blank outlast its trimming. -/
theorem mem_trim_iff {c : Char} (hc : Unicode.isBlank c = false) {cs : List Char} :
    c ∈ trim cs ↔ c ∈ cs := by
  have hdrop : ∀ ds : List Char, c ∈ ds.dropWhile Unicode.isBlank ↔ c ∈ ds := by
    intro ds
    induction ds with
    | nil => rfl
    | cons d ds ih =>
      rw [List.dropWhile_cons]
      split
      · next hd =>
        rw [ih, List.mem_cons]
        refine ⟨.inr, Or.rec ?_ id⟩
        rintro rfl
        rw [hc] at hd
        cases hd
      · rfl
  rw [trim, List.mem_reverse, hdrop, List.mem_reverse, hdrop]

theorem memRanges_of_above {n : Nat} {ranges : List (Nat × Nat)} (h : ∀ r ∈ ranges, r.2 < n) :
    Unicode.memRanges n ranges = false := by
  induction ranges with
  | nil => rfl
  | cons r rest ih =>
    rw [List.forall_mem_cons] at h
    rw [Unicode.memRanges, if_neg (Nat.not_le.mpr h.1), ih h.2, ite_self]

/-- Surrogates lie above all blanks. -/
theorem isBlank_of_isStandIn {c : Char} (h : Unicode.isStandIn c = true) :
    Unicode.isBlank c = false := by
  rw [Unicode.isStandIn, Unicode.isSurrogate, Bool.and_eq_true] at h
  have hlow : 0xD800 ≤ c.toNat - Unicode.standInShift := of_decide_eq_true h.1
  have hblank : ∀ r ∈ Unicode.blankRanges, r.2 < 0xD800 := by decide
  refine memRanges_of_above fun r hr => Nat.lt_of_lt_of_le (hblank r hr) ?_
  omega

/-- Trimming does not make a text readable. -/
theorem readable_trim : Readable (String.ofList (trim text.toList)) ↔ Readable text := by
  have hplain : isPlain (trim text.toList) = true ↔ isPlain text.toList = true := by
    simp only [isPlain, List.all_eq_true, Bool.not_eq_true']
    refine forall_congr' fun c => ?_
    cases hc : Unicode.isStandIn c with
    | true => rw [mem_trim_iff (isBlank_of_isStandIn hc)]
    | false => simp
  rw [Readable, hasBytes_ofList, String.toList_ofList, hplain, mem_trim_iff (by decide)]
  rfl

theorem null_mem_unifyLineEnds {cs : List Char} : '\x00' ∈ unifyLineEnds cs ↔ '\x00' ∈ cs := by
  fun_induction unifyLineEnds cs with
  | case1 => rfl
  | case2 rest ih => simpa using ih
  | case3 c rest hpair ih =>
    rw [List.mem_cons, List.mem_cons, ih]
    split
    · next hc => simp [hc]
    · rfl

section Parse

variable {source : String}

/-- A text that can be read is an expression or invalid. -/
theorem parseExpression_of_readable (h : Readable source) :
    parseExpression source = .error .invalid ∨ ∃ e, parseExpression source = .ok e := by
  have hnull : (unifyLineEnds source.toList).contains '\x00' = false := by
    rw [Bool.eq_false_iff, ne_eq, List.contains_iff_mem, null_mem_unifyLineEnds]
    exact h.1
  simp only [parseExpression, readable, checkEncodable_eq_ok_iff.mpr h.2, bind, Except.bind,
    Parser.run, hnull]
  rw [if_neg Bool.false_ne_true]
  split
  · exact .inl rfl
  · split
    · exact .inr ⟨_, rfl⟩
    · exact .inl rfl

/-- A text that cannot be read fails in another way. -/
theorem parseExpression_of_not_readable (h : ¬ Readable source) :
    ∃ err, err ≠ .invalid ∧ parseExpression source = .error err := by
  cases hcheck : checkEncodable source.toList with
  | error err =>
    exact ⟨.surrogates err, by simp, by simp only [parseExpression, readable, hcheck, bind,
      Except.bind]⟩
  | ok _ =>
    have hbytes : HasBytes source := checkEncodable_eq_ok_iff.mp hcheck
    have hnull : (unifyLineEnds source.toList).contains '\x00' = true := by
      rw [List.contains_iff_mem, null_mem_unifyLineEnds]
      exact Decidable.not_not.mp fun hnot => h ⟨hnot, hbytes⟩
    refine ⟨.nullCharacter, by simp, ?_⟩
    simp only [parseExpression, readable, hcheck, bind, Except.bind, Parser.run, hnull, if_true]

end Parse

/-! ## Names and the texts on the way to them -/

/-- The annotation is written in the text. A text that is only another text holds none. -/
structure Holds (text : String) (e : Expr) : Prop where
  parsed : parseExpression (String.ofList (trim text.toList)) = .ok e
  proper : ∀ x inner marked, e ≠ .constant x (.str inner marked)

theorem Holds.unique {e e' : Expr} (h : Holds text e) (h' : Holds text e') : e = e' :=
  Except.ok.inj (h.parsed.symm.trans h'.parsed)

/-- The texts in the annotation are shorter than the text. -/
theorem Holds.length_lt {inner : String} {e : Expr} (h : Holds text e) (hinner : HasText e inner) :
    inner.length < text.length := by
  have hlt := length_lt_of_parseExpression h.parsed hinner
  have hle : (trim text.toList).length ≤ text.length := by
    rw [trim, List.length_reverse, ← String.length_toList]
    refine (List.dropWhile_suffix _).length_le.trans ?_
    rw [List.length_reverse]
    exact (List.dropWhile_suffix _).length_le
  rw [String.length_ofList] at hlt
  omega

/-- The annotation refers to the name. -/
inductive Refers : Expr → String → Prop where
  | name {x : Extent} {id : String} : Refers (.name x id) id
  | member {x : Extent} {value : Expr} {attr : String} : Refers (.attribute x value attr) attr
  | none {x : Extent} : Refers (.constant x .none) "None"
  | text {x : Extent} {text name : String} {marked : Bool} {e : Expr} (hholds : Holds text e)
      (h : Refers e name) :
      Refers (.constant x (.str text marked)) name
  | annotated {x y : Extent} {value first : Expr} {rest : List Expr} {name : String}
      (hvalue : Refers value annotatedName) (h : Refers first name) :
      Refers (.subscript x value (.tuple y (first :: rest))) name

/-- The text is read to find out which name the annotation refers to. -/
inductive Consults : Expr → String → Prop where
  | text {x : Extent} {text : String} {marked : Bool} :
      Consults (.constant x (.str text marked)) text
  | inner {x : Extent} {text inner : String} {marked : Bool} {e : Expr} (hholds : Holds text e)
      (h : Consults e inner) : Consults (.constant x (.str text marked)) inner
  | value {x : Extent} {value index : Expr} {text : String} (h : Consults value text) :
      Consults (.subscript x value index) text
  | first {x y : Extent} {value first : Expr} {rest : List Expr} {text : String}
      (hvalue : Refers value annotatedName) (h : Consults first text) :
      Consults (.subscript x value (.tuple y (first :: rest))) text

/-- The outcome is the name that the annotation refers to. There is one, unless a text on
the way is not readable. -/
structure Settles (e : Expr) (outcome : Except ParseError (Option String)) : Prop where
  refers : ∀ name, outcome = .ok (some name) ↔ Refers e name
  total : (∃ found, outcome = .ok found) ↔ ∀ text, Consults e text → Readable text

section Settles

variable {e value first : Expr} {x y : Extent}

/-- An annotation that refers to nothing and leads to no text. -/
theorem settles_none (hrefers : ∀ name, ¬ Refers e name) (hconsults : ∀ text, ¬ Consults e text) :
    Settles e (.ok none) where
  refers name := by simpa using hrefers name
  total := ⟨fun _ text h => absurd h (hconsults text), fun _ => ⟨_, rfl⟩⟩

/-- An annotation that is itself the name. -/
theorem settles_some {name : String} (hrefers : ∀ other, name = other ↔ Refers e other)
    (hconsults : ∀ text, ¬ Consults e text) : Settles e (.ok (some name)) where
  refers other := by simpa using hrefers other
  total := ⟨fun _ text h => absurd h (hconsults text), fun _ => ⟨_, rfl⟩⟩

/-- A subscript with other indices refers to nothing, but what is subscripted is looked at. -/
theorem settles_subscript {index : Expr}
    (hvalue : Settles value outcome) (hindex : ∀ y first rest, index ≠ .tuple y (first :: rest)) :
    Settles (.subscript x value index) (outcome >>= fun _ => .ok none) where
  refers name := by
    constructor
    · intro h
      obtain ⟨-, -, h⟩ := bind_eq_ok.mp h
      cases h
    · intro h
      cases h with
      | annotated => exact absurd rfl (hindex _ _ _)
  total := by
    have hconsults : ∀ text, Consults (.subscript x value index) text ↔ Consults value text := by
      refine fun text => ⟨fun h => ?_, .value⟩
      cases h with
      | value h => exact h
      | first => exact absurd rfl (hindex _ _ _)
    simp only [hconsults, ← hvalue.total, bind_eq_ok]
    exact ⟨fun ⟨_, found, h, _⟩ => ⟨found, h⟩, fun ⟨found, h⟩ => ⟨none, found, h, rfl⟩⟩

/-- `Annotated` counts as its first index. -/
theorem settles_annotated {rest : List Expr} {outcome' : Except ParseError (Option String)}
    (hvalue : Settles value outcome) (hfirst : Settles first outcome') :
    Settles (.subscript x value (.tuple y (first :: rest)))
      (outcome >>= fun found => if found = some annotatedName then outcome' else .ok none) := by
  have hinv : ∀ name, Refers (.subscript x value (.tuple y (first :: rest))) name ↔
      Refers value annotatedName ∧ Refers first name :=
    fun name => ⟨fun | .annotated hv hf => ⟨hv, hf⟩, fun ⟨hv, hf⟩ => .annotated hv hf⟩
  have hconsults : ∀ text, Consults (.subscript x value (.tuple y (first :: rest))) text ↔
      Consults value text ∨ Refers value annotatedName ∧ Consults first text :=
    fun text => ⟨fun | .value h => .inl h | .first hv h => .inr ⟨hv, h⟩,
      fun | .inl h => .value h | .inr ⟨hv, h⟩ => .first hv h⟩
  cases outcome with
  | error err =>
    -- what is subscripted already leads to a text that is not readable
    have hvalue' : ¬ ∀ text, Consults value text → Readable text := fun h => by
      obtain ⟨_, h⟩ := hvalue.total.mpr h
      cases h
    refine ⟨fun name => ?_, ?_⟩
    · rw [hinv, ← hvalue.refers]
      exact ⟨nofun, nofun⟩
    · refine ⟨nofun, fun h => absurd (fun text htext => h text ?_) hvalue'⟩
      exact (hconsults text).mpr (.inl htext)
  | ok found =>
    have hreadable := hvalue.total.mp ⟨found, rfl⟩
    -- only behind `Annotated` is the first index looked at
    by_cases hfound : found = some annotatedName
    · have hrefers : Refers value annotatedName := (hvalue.refers _).mp (congrArg Except.ok hfound)
      simp only [bind, Except.bind, hfound, if_true]
      refine ⟨fun name => ?_, ?_⟩
      · rw [hinv, hfirst.refers]
        exact ⟨fun h => ⟨hrefers, h⟩, And.right⟩
      · rw [hfirst.total]
        simp only [hconsults]
        exact ⟨fun h text => Or.rec (hreadable text) fun ⟨_, hf⟩ => h text hf,
          fun h text hf => h text (.inr ⟨hrefers, hf⟩)⟩
    · have hrefers : ¬ Refers value annotatedName := fun h =>
        hfound (Except.ok.inj ((hvalue.refers _).mpr h))
      simp only [bind, Except.bind, hfound, if_false]
      refine ⟨fun name => ?_, ?_⟩
      · rw [hinv]
        exact ⟨nofun, fun h => absurd h.1 hrefers⟩
      · simp only [hconsults]
        exact ⟨fun _ text => Or.rec (hreadable text) fun h => absurd h.1 hrefers, fun _ => ⟨_, rfl⟩⟩

/-- What is known of a text that another annotation is written in. -/
theorem settles_of_holds {marked : Bool}
    (hholds : Holds text e) (hreadable : Readable text) (h : Settles e outcome) :
    Settles (.constant x (.str text marked)) outcome where
  refers name := by
    rw [h.refers]
    exact ⟨.text hholds, fun | .text hholds' h => hholds'.unique hholds ▸ h⟩
  total := by
    rw [h.total]
    constructor
    · rintro hinner _ (_ | ⟨hholds', hconsults⟩)
      · exact hreadable
      · exact hinner _ (hholds'.unique hholds ▸ hconsults)
    · exact fun hall inner hconsults => hall inner (.inner hholds hconsults)

end Settles

/-! ## The step and the run -/

/-- **The step.** The name of a tree, where the texts in it are settled. -/
theorem settles_nameOf {forward : String → Except ParseError (Option String)} {e : Expr}
    (hforward : ∀ text, HasText e text →
      ∀ x marked, Settles (.constant x (.str text marked)) (forward text)) :
    Settles e (nameOf forward e) := by
  fun_induction nameOf forward e with
  | case1 x id => exact settles_some (fun other => ⟨fun h => h ▸ .name, fun | .name => rfl⟩) nofun
  | case2 x value attr =>
    exact settles_some (fun other => ⟨fun h => h ▸ .member, fun | .member => rfl⟩) nofun
  | case3 x => exact settles_some (fun other => ⟨fun h => h ▸ .none, fun | .none => rfl⟩) nofun
  | case4 x text marked => exact hforward text .constant x marked
  | case5 x value y first rest ihvalue ihfirst =>
    refine settles_annotated (ihvalue fun text h =>
      hforward text (.value h)) (ihfirst fun text h => ?_)
    exact hforward text (.index (.first h))
  | case6 x value index hindex ihvalue =>
    exact settles_subscript (ihvalue fun text h => hforward text (.value h)) hindex
  | case7 e hname hattribute hnone htext htuple hsubscript =>
    refine settles_none (fun name h => ?_) (fun text h => ?_)
    · cases h with
      | name => exact hname _ _ rfl
      | member => exact hattribute _ _ _ rfl
      | none => exact hnone _ rfl
      | text => exact htext _ _ _ rfl
      | annotated => exact htuple _ _ _ _ _ rfl
    · cases h with
      | text | inner => exact htext _ _ _ rfl
      | value | first => exact hsubscript _ _ _ rfl

/-- What the reading of a text can do. -/
theorem forwardName_cases (depth : Nat) (text : String) :
    (Readable text ∧ ∃ e, Holds text e ∧
      forwardName (depth + 1) text = nameOf (forwardName depth) e) ∨
    (Readable text ∧ (∀ e, ¬ Holds text e) ∧ forwardName (depth + 1) text = .ok none) ∨
    (¬ Readable text ∧ (∀ e, ¬ Holds text e) ∧
      ∃ err, forwardName (depth + 1) text = .error err) := by
  by_cases hreadable : Readable text
  · rcases parseExpression_of_readable (readable_trim.mpr hreadable) with herror | ⟨e, he⟩
    · refine .inr (.inl ⟨hreadable, fun e h => ?_, by rw [forwardName, herror]⟩)
      rw [h.parsed] at herror
      cases herror
    · by_cases hproper : ∃ x inner marked, e = .constant x (.str inner marked)
      · obtain ⟨x, inner, marked, rfl⟩ := hproper
        refine .inr (.inl ⟨hreadable, fun e h => ?_, by rw [forwardName, he]⟩)
        exact h.proper x inner marked (Except.ok.inj (h.parsed.symm.trans he))
      · have hholds : Holds text e :=
          ⟨he, fun x inner marked heq => hproper ⟨x, inner, marked, heq⟩⟩
        refine .inl ⟨hreadable, e, hholds, ?_⟩
        rw [forwardName, he]
        split
        · next heq => cases heq
        · next heq => cases heq
        · next heq => exact absurd (Except.ok.inj heq) (hholds.proper _ _ _)
        · next heq => rw [Except.ok.inj heq]
  · obtain ⟨err, hne, herror⟩ := parseExpression_of_not_readable (readable_trim.not.mpr hreadable)
    refine .inr (.inr ⟨hreadable, fun e h => ?_, err, ?_⟩)
    · rw [h.parsed] at herror
      cases herror
    · rw [forwardName, herror]
      cases err <;> simp_all

/-- **The run.** The name behind a text, through texts in texts. Each of them is shorter than the
one around it, so a depth above the length of the first is enough. -/
theorem settles_forwardName {depth : Nat} (h : text.length < depth) (x : Extent) (marked : Bool) :
    Settles (.constant x (.str text marked)) (forwardName depth text) := by
  induction depth generalizing text x marked with
  | zero => exact absurd h (Nat.not_lt_zero _)
  | succ depth ih =>
    rcases forwardName_cases depth text with ⟨hreadable, e, hholds, heq⟩ | ⟨hreadable, hnone, heq⟩ |
      ⟨hnot, hnone, err, heq⟩
    · rw [heq]
      -- the texts in the annotation are shorter than this one, so the smaller
      -- depth is enough for them
      refine settles_of_holds hholds hreadable (settles_nameOf fun inner hinner => ih ?_)
      have := hholds.length_lt hinner
      omega
    · rw [heq]
      refine ⟨fun name => ⟨nofun, fun | .text hholds _ => absurd hholds (hnone _)⟩,
        fun _ inner hinner => ?_, fun _ => ⟨_, rfl⟩⟩
      cases hinner with
      | text => exact hreadable
      | inner hholds => exact absurd hholds (hnone _)
    · rw [heq]
      exact ⟨fun name => ⟨nofun, fun | .text hholds _ => absurd hholds (hnone _)⟩, nofun,
        fun hall => absurd (hall text .text) hnot⟩

/-- Every annotation is settled. -/
theorem settles_annotation (e : Expr) :
    Settles e (nameOf (fun text => forwardName (text.length + 1) text) e) :=
  settles_nameOf fun _ _ => settles_forwardName (Nat.lt_succ_self _)

/-! ## Tags -/

/-- The tag of a name is not empty, and it is the name itself unless the name is built in. -/
theorem ofName_cases (name : String) : ofName name ≠ "" ∧
    (ofName name = anyTag ∨ ofName name = "string" ∨ ofName name = "number" ∨
      ofName name = name ∧ builtinTag? name = none ∧ name ∉ wildNames) := by
  unfold ofName
  split
  · exact ⟨by decide, .inl rfl⟩
  next hname =>
  split
  · next tag htag =>
    unfold builtinTag? at htag
    split at htag
    · cases htag
      exact ⟨by decide, .inr (.inl rfl)⟩
    · cases htag
      exact ⟨by decide, .inr (.inr (.inl rfl))⟩
    · cases htag
      exact ⟨by decide, .inr (.inr (.inl rfl))⟩
    · cases htag
  · next htag =>
    split
    · exact ⟨by decide, .inl rfl⟩
    · next hwild => exact ⟨hname, .inr (.inr (.inr ⟨rfl, htag, by simpa using hwild⟩))⟩

theorem ofExpr_eq_ok_iff {e : Expr} {tag : String} : ofExpr e = .ok tag ↔
    ∃ found, nameOf (fun text => forwardName (text.length + 1) text) e = .ok found ∧
      tag = found.elim anyTag ofName := by
  rw [ofExpr, bind_eq_ok]
  refine exists_congr fun found => and_congr_right fun _ => ?_
  cases found <;> exact ⟨fun h => (Except.ok.inj h).symm, fun h => h ▸ rfl⟩

/-- **Every annotation has a tag, unless it leads to a text that is not readable.** The tag is that
of the name which the annotation refers to, and the wildcard where it refers to none. It is never
empty: it is the wildcard, one of the two built-in tags, or a name that is not built in. Of other
values, text is its own tag. -/
theorem tag_unless_unreadable (e : Expr) (v : Value) :
    ((∃ tag, ofExpr e = .ok tag) ↔ ∀ text, Consults e text → Readable text) ∧
    (∀ tag, ofExpr e = .ok tag → tag ≠ "" ∧
      (tag = anyTag ∨ tag = "string" ∨ tag = "number" ∨
        Refers e tag ∧ builtinTag? tag = none ∧ tag ∉ wildNames) ∧
      (∀ name, Refers e name → tag = ofName name) ∧ ((∀ name, ¬ Refers e name) → tag = anyTag)) ∧
    ofExpr? (some e) = ofExpr e ∧ ofExpr? none = .ok anyTag ∧
    ofValue v ≠ "" ∧ ∀ text, text ≠ "" → ofValue (.str text) = text := by
  have hsettles := settles_annotation e
  refine ⟨?_, fun tag htag => ?_, rfl, rfl, ?_, fun text htext => if_neg htext⟩
  · simp only [← hsettles.total, ofExpr_eq_ok_iff]
    exact ⟨fun ⟨_, found, h, _⟩ => ⟨found, h⟩, fun ⟨found, h⟩ => ⟨_, found, h, rfl⟩⟩
  · obtain ⟨found, hfound, rfl⟩ := ofExpr_eq_ok_iff.mp htag
    -- the name that was found is the only one that the annotation refers to
    have hname : ∀ name, found = some name ↔ Refers e name := by
      intro name
      rw [← hsettles.refers, hfound, Except.ok.injEq]
    cases found with
    | none =>
      refine ⟨by decide, .inl rfl, fun name h => ?_, fun _ => rfl⟩
      cases (hname name).mpr h
    | some name =>
      have hrefers := (hname name).mp rfl
      obtain ⟨hne, hcases⟩ := ofName_cases name
      refine ⟨hne, ?_, fun other h => ?_, fun hnone => absurd hrefers (hnone name)⟩
      · rcases hcases with hany | hstring | hnumber | ⟨hself, htable⟩
        · exact .inl hany
        · exact .inr (.inl hstring)
        · exact .inr (.inr (.inl hnumber))
        · refine .inr (.inr (.inr ?_))
          rw [Option.elim_some, hself]
          exact ⟨hrefers, htable⟩
      · rw [Option.some.inj ((hname other).mpr h)]
        rfl
  · unfold ofValue
    split
    · split
      · decide
      · next htext => exact htext
    · decide

/-- A text with a NUL character, or with a surrogate, has no tag. -/
theorem no_tag_for_unreadable_text :
    ofExpr (.constant ⟨⟨1, 0⟩, ⟨1, 4⟩⟩ (.str "\x00" false)) = .error .nullCharacter ∧
      ofExpr (.constant ⟨⟨1, 0⟩, ⟨1, 8⟩⟩ (.str (String.ofList [Unicode.charOfCode 0xD800]) false)) =
        .error (.surrogates ⟨0xD800, 0, 1⟩) := by
  decide +kernel

end Addon.TypeTag
