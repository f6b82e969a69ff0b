import Addon.Proofs.Descriptor.Agreement
import Addon.Proofs.Lexicon

/-!
# Translation — a lexicon replaces texts and nothing else

Texts go through the lexicon one by one on their way into a language file, at many places and
from many sources. The result is the same as if the file had been made without a lexicon, and
the texts in it had been looked up afterwards. So its keys, their order and their nesting do
not depend on the lexicon.

## The architecture

* **`documentSlots`** — where the texts of a language file are, told from its keys.
* **`Localization.mapTexts`** — the same for the texts before they are made into a file.
* **`localization_eq_map`** — looking texts up early or late; one lemma for each
  part, and this one for all.
* **`toValue_mapTexts`** — the texts before and after they are made into a file.
* **`outline`** — the keys of a document and how they are nested.
* **`get?_localizations`**, **`get?_localize`** — the language file of a tag among those of others,
  in assembly and in a build.
* **`translation_replaces_texts`** — all of it.
-/

namespace Addon.Descriptor

open Ace Lexicon

/-! ## Slots

The places of a language file that texts stand in. -/

/-- Changes the fields that have one of some names, each in its way. -/
def inFields (changes : Fields (Value → Value)) : Value → Value
  | .dict fields => .dict (fields.map fun f => (f.1, ((changes.get? f.1).getD id) f.2))
  | v => v

/-- Changes all fields. -/
def inEach (change : Value → Value) : Value → Value
  | .dict fields => .dict (Fields.mapValues change fields)
  | v => v

section Slots

variable (f : Value → Value)

/-- Changes the texts of a parameter. -/
def paramSlots : Value → Value :=
  inFields [("name", f), ("desc", f), ("items", inEach f)]

/-- Changes the texts of an action or a condition. -/
def methodSlots : Value → Value :=
  inFields [("list-name", f), ("display-text", f), ("description", f),
    ("params", inEach (paramSlots f))]

/-- Changes the texts of an expression. -/
def expressionSlots : Value → Value :=
  inFields [("translated-name", f), ("description", f), ("params", inEach (paramSlots f))]

/-- Changes the texts of a property. -/
def propertySlots : Value → Value :=
  inFields [("name", f), ("desc", f), ("items", inEach f), ("link-text", f)]

/-- Changes the texts of an addon. -/
def addonSlots : Value → Value :=
  inFields [("name", f), ("description", f), ("help-url", f), ("aceCategories", inEach f),
    ("properties", inEach (propertySlots f)), ("actions", inEach (methodSlots f)),
    ("conditions", inEach (methodSlots f)), ("expressions", inEach (expressionSlots f))]

/-- Changes the texts of a language file. They are those of the addon, under its type and its id. -/
def documentSlots : Value → Value :=
  inFields [("text", inEach (inEach (addonSlots f)))]

end Slots

/-! ## Texts before they are made into a file -/

section MapTexts

variable (f : Value → Value)

def ParamTexts.mapTexts (t : ParamTexts) : ParamTexts :=
  ⟨f t.name, f t.desc, t.items.map (Fields.mapValues f)⟩

def MethodTexts.mapTexts (t : MethodTexts) : MethodTexts :=
  ⟨f t.listName, f t.displayText, f t.description, t.params.mapValues (ParamTexts.mapTexts f)⟩

def ExpressionTexts.mapTexts (t : ExpressionTexts) : ExpressionTexts :=
  ⟨f t.name, f t.description, t.params.mapValues (ParamTexts.mapTexts f)⟩

def PropertyTexts.mapTexts (t : PropertyTexts) : PropertyTexts :=
  ⟨f t.name, f t.desc, t.items.map (Fields.mapValues f), t.linkText.map f⟩

/-- Changes the texts in a language. All else stays, above all the keys. -/
def Localization.mapTexts (l : Localization) : Localization :=
  { l with
    name := f l.name
    description := f l.description
    helpUrl := f l.helpUrl
    categories := l.categories.map fun c => (c.1, f c.2)
    properties := l.properties.mapValues (PropertyTexts.mapTexts f)
    actions := l.actions.mapValues (MethodTexts.mapTexts f)
    conditions := l.conditions.mapValues (MethodTexts.mapTexts f)
    expressions := l.expressions.mapValues (ExpressionTexts.mapTexts f) }

end MapTexts

/-! ### Early or late -/

@[simp] theorem localize_nil (v : Value) : localize [] v = v := by
  cases v <;> rfl

section Early

variable (table : Table)

theorem itemTexts_eq_map (items : List (Fields Value)) :
    itemTexts table items = (itemTexts [] items).mapValues (localize table) :=
  Fields.ofList_map (fun f => by rw [localize_nil]) items.flatten

theorem paramTexts_eq_map (p : Parameter) :
    paramTexts table p = (paramTexts [] p).mapTexts (localize table) := by
  have hitems : itemTexts table = fun items => (itemTexts [] items).mapValues (localize table) :=
    funext (itemTexts_eq_map table)
  unfold paramTexts ParamTexts.mapTexts
  rw [hitems]
  simp [Function.comp_def]

theorem paramsTexts_eq_map (params : List Parameter) :
    paramsTexts table params =
      (paramsTexts [] params).mapValues (ParamTexts.mapTexts (localize table)) :=
  Fields.ofList_map (paramTexts_eq_map table) params

theorem methodTexts_eq_map (r : Record) :
    methodTexts table r = (methodTexts [] r).mapTexts (localize table) := by
  unfold methodTexts MethodTexts.mapTexts
  simp [← paramsTexts_eq_map]

theorem expressionTexts_eq_map (r : Record) :
    expressionTexts table r = (expressionTexts [] r).mapTexts (localize table) := by
  unfold expressionTexts ExpressionTexts.mapTexts
  simp [← paramsTexts_eq_map]

theorem recordTexts_eq_map {α : Type} {texts plain : Record → α} {change : α → α}
    (h : ∀ r, texts r = change (plain r)) (records : List Record) :
    recordTexts texts records = (recordTexts plain records).mapValues change :=
  Fields.ofList_map h records

/-- Which labels are given does not depend on what they are in a language. -/
theorem categoryLabels_eq_map (m : Manifest) (r : Registry) :
    categoryLabels table m r = (categoryLabels [] m r).map fun c => (c.1, localize table c.2) := by
  have hlabel : ∀ t category,
      hasLabel (m.categories.map fun l => (l.1, localize t l.2)) category =
        hasLabel m.categories category := by
    intro t category
    unfold hasLabel
    rw [List.any_map]
    rfl
  unfold categoryLabels
  simp [hlabel]

theorem propertyTexts_eq_map (property : Fields Value) :
    propertyTexts table property =
      (propertyTexts [] property).map fun p => (p.1, p.2.mapTexts (localize table)) := by
  unfold propertyTexts
  cases propertyId property with
  | error e => rfl
  | ok id =>
    simp only [bind, Except.bind]
    -- Only a property with choices or with a link asks for more than its name and description.
    split
    · cases propertyItems (((property.get? "options").getD .null).orElse (.dict [])) with
      | error e => rfl
      | ok items =>
        simp [Except.map, pure, Except.pure, PropertyTexts.mapTexts, itemTexts_eq_map table items]
    · cases propertyLinkText property
        (((property.get? "options").getD .null).orElse (.dict [])) with
      | error e => rfl
      | ok text => simp [Except.map, pure, Except.pure, PropertyTexts.mapTexts]
    · simp [Except.map, pure, Except.pure, PropertyTexts.mapTexts]

/-- **Early or late.** The texts of an addon in a language are its own texts, looked up. -/
theorem localization_eq_map (m : Manifest) (r : Registry) (tag : String) :
    localization m r tag table =
      (localization m r tag []).map (Localization.mapTexts (localize table)) := by
  unfold localization
  rw [mapM_of_map (propertyTexts_eq_map table)]
  cases m.properties.mapM (propertyTexts []) with
  | error e => rfl
  | ok properties =>
    have hproperties :
        Fields.ofList (properties.map fun p => (p.1, p.2.mapTexts (localize table))) =
        (Fields.ofList properties).mapValues (PropertyTexts.mapTexts (localize table)) :=
      (Fields.mapValues_ofList _ properties).symm
    simp only [bind, Except.bind, Except.map, pure, Except.pure, Localization.mapTexts,
      localize_nil, hproperties,
      ← categoryLabels_eq_map, ← recordTexts_eq_map (methodTexts_eq_map table),
      ← recordTexts_eq_map (expressionTexts_eq_map table)]

end Early

/-! ### Before and after -/

section ToValue

variable (f : Value → Value)

@[simp] theorem inEach_dict (fields : List (String × Value)) :
    inEach f (.dict fields) = .dict (Fields.mapValues f fields) := rfl

theorem ParamTexts.toValue_mapTexts (t : ParamTexts) :
    (t.mapTexts f).toValue = paramSlots f t.toValue := by
  obtain ⟨name, desc, items⟩ := t
  cases items <;> rfl

theorem PropertyTexts.toValue_mapTexts (t : PropertyTexts) :
    (t.mapTexts f).toValue = propertySlots f t.toValue := by
  obtain ⟨name, desc, items, linkText⟩ := t
  cases items <;> cases linkText <;> rfl

/-- What is made of changed texts is what is made of the texts, changed. -/
theorem dict_mapValues {α : Type} {change : α → α} {toValue : α → Value} {slots : Value → Value}
    (h : ∀ a, toValue (change a) = slots (toValue a)) (fields : Fields α) :
    Value.dict ((fields.mapValues change).mapValues toValue) =
      inEach slots (.dict (fields.mapValues toValue)) := by
  rw [inEach_dict]
  simp [Fields.mapValues, h, Function.comp_def]

theorem paramsValue_mapTexts (params : Fields ParamTexts) :
    paramsValue (params.mapValues (ParamTexts.mapTexts f)) =
      inEach (paramSlots f) (paramsValue params) :=
  dict_mapValues (ParamTexts.toValue_mapTexts f) params

theorem MethodTexts.toValue_mapTexts (t : MethodTexts) :
    (t.mapTexts f).toValue = methodSlots f t.toValue := by
  unfold MethodTexts.toValue MethodTexts.mapTexts
  rw [paramsValue_mapTexts]
  rfl

theorem ExpressionTexts.toValue_mapTexts (t : ExpressionTexts) :
    (t.mapTexts f).toValue = expressionSlots f t.toValue := by
  unfold ExpressionTexts.toValue ExpressionTexts.mapTexts
  rw [paramsValue_mapTexts]
  rfl

theorem labelFields_map (labels : List (Value × Value)) :
    labelFields (labels.map fun c => (c.1, f c.2)) =
      (labelFields labels).map (Fields.mapValues f) := by
  induction labels with
  | nil => rfl
  | cons label rest ih =>
    obtain ⟨key, text⟩ := label
    simp only [List.map_cons, labelFields, ih]
    cases Json.keyText key with
    | error e => rfl
    | ok name => cases labelFields rest <;> rfl

/-- **Before and after.** The language file of changed texts is that of the texts,
changed in its slots. -/
theorem toValue_mapTexts (l : Localization) :
    (l.mapTexts f).toValue = l.toValue.map (documentSlots f) := by
  unfold Localization.toValue Localization.mapTexts
  dsimp only
  rw [labelFields_map, dict_mapValues (PropertyTexts.toValue_mapTexts f),
    dict_mapValues (MethodTexts.toValue_mapTexts f),
    dict_mapValues (MethodTexts.toValue_mapTexts f),
    dict_mapValues (ExpressionTexts.toValue_mapTexts f)]
  cases labelFields l.categories <;> rfl

end ToValue

/-! ## Outlines

What is left of a file when its texts are taken out. -/

mutual

/-- The keys of a document and how they are nested, without what is at the ends. -/
def outline : Value → Value
  | .dict fields => .dict (outlineFields fields)
  | _ => .null

def outlineFields : List (String × Value) → List (String × Value)
  | [] => []
  | (name, v) :: rest => (name, outline v) :: outlineFields rest

end

theorem outlineFields_eq_map (fields : List (String × Value)) :
    outlineFields fields = Fields.mapValues outline fields := by
  induction fields with
  | nil => rfl
  | cons f rest ih =>
    rw [outlineFields, ih]
    rfl

/-- A change that keeps outlines. -/
def KeepsOutline (change : Value → Value) : Prop :=
  ∀ v, outline (change v) = outline v

theorem keepsOutline_localize (table : Table) : KeepsOutline (localize table) := by
  intro v
  cases v <;> rfl

theorem KeepsOutline.inEach {change : Value → Value} (h : KeepsOutline change) :
    KeepsOutline (inEach change) := by
  intro v
  cases v with
  | dict fields =>
    rw [inEach_dict, outline, outline, outlineFields_eq_map, outlineFields_eq_map]
    simp [Fields.mapValues, h _, Function.comp_def]
  | _ => rfl

theorem keepsOutline_inFields {changes : Fields (Value → Value)}
    (h : ∀ c ∈ changes, KeepsOutline c.2) :
    KeepsOutline (inFields changes) := by
  have hchange : ∀ name v, outline (((changes.get? name).getD id) v) = outline v := by
    intro name v
    cases hget : changes.get? name with
    | none => rfl
    | some change => exact h _ (Fields.mem_of_get? hget) v
  intro v
  cases v with
  | dict fields =>
    rw [inFields, outline, outline, outlineFields_eq_map, outlineFields_eq_map]
    simp [Fields.mapValues, hchange]
  | _ => rfl

theorem keepsOutline_documentSlots {f : Value → Value} (h : KeepsOutline f) :
    KeepsOutline (documentSlots f) := by
  have hparam : KeepsOutline (paramSlots f) := keepsOutline_inFields (by simp [h, h.inEach])
  have hmethod : KeepsOutline (methodSlots f) := keepsOutline_inFields (by simp [h, hparam.inEach])
  have hexpression : KeepsOutline (expressionSlots f) :=
    keepsOutline_inFields (by simp [h, hparam.inEach])
  have hproperty : KeepsOutline (propertySlots f) := keepsOutline_inFields (by simp [h, h.inEach])
  have haddon : KeepsOutline (addonSlots f) :=
    keepsOutline_inFields (by simp [h, h.inEach, hproperty.inEach, hmethod.inEach,
      hexpression.inEach])
  exact keepsOutline_inFields (by simp [haddon.inEach.inEach])

/-! ## Languages beside each other -/

/-- The language file of a tag, made with a lexicon. -/
def languageDocument (m : Manifest) (r : Registry) (tag : String) (table : Table) :
    Attempt Value := do
  let l ← .ofMisfit (localization m r tag table)
  .ofWrite l.toValue

theorem languageDocument_eq_map (m : Manifest) (r : Registry) (tag : String) (table : Table) :
    languageDocument m r tag table =
      (languageDocument m r tag []).map (documentSlots (localize table)) := by
  unfold languageDocument
  rw [localization_eq_map]
  cases localization m r tag [] with
  | error e => rfl
  | ok l =>
    change Attempt.ofWrite (l.mapTexts (localize table)).toValue = (Attempt.ofWrite l.toValue).map _
    rw [toValue_mapTexts]
    cases l.toValue <;> rfl

theorem outline_languageDocument (m : Manifest) (r : Registry) (tag : String) (table : Table) :
    (languageDocument m r tag table).map outline = (languageDocument m r tag []).map outline := by
  rw [languageDocument_eq_map]
  cases languageDocument m r tag [] with
  | error e => rfl
  | ok v => exact congrArg Except.ok (keepsOutline_documentSlots (keepsOutline_localize table) v)

section Languages

variable {m : Manifest} {r : Registry} {done docs : Fields Localization}

/-- **Assembly.** The texts under a tag are made with the lexicon of that tag, whatever
comes before and after. -/
theorem get?_localizations {tableOf : String → Table} {tags : List String}
    (h : localizations m r tableOf done tags = .ok docs) (tag : String) :
    (tag ∈ tags → ∃ l, docs.get? tag = some l ∧ localization m r tag (tableOf tag) = .ok l) ∧
      (tag ∉ tags → docs.get? tag = done.get? tag) := by
  induction tags generalizing done with
  | nil =>
    obtain rfl := Except.ok.inj h
    simp
  | cons first rest ih =>
    obtain ⟨l, hl, hrest⟩ := bind_eq_ok.mp h
    obtain ⟨hin, hout⟩ := ih hrest
    rw [Fields.get?_insert] at hout
    refine ⟨fun htag => ?_, fun htag => ?_⟩
    · by_cases hlater : tag ∈ rest
      · exact hin hlater
      · obtain rfl := (List.mem_cons.mp htag).resolve_right hlater
        exact ⟨l, by rw [hout hlater, if_pos rfl], hl⟩
    · rw [List.mem_cons, not_or] at htag
      rw [hout htag.2, if_neg (Ne.symm htag.1)]

/-- The lexicon of a tag, as it is in the files. -/
def storedTable (t : File.Tree) (directory : Option File.Path) (tag : String) : Attempt Table :=
  (Lexicon.load t directory tag {}).1

theorem localizeIn_eq_ok {directory : Option File.Path} {tag : String} {l : Localization}
    {s s' : Build.Session}
    (hfaithful : s.cache.Faithful s.tree) (h : Build.localizeIn m r directory tag s = .ok l s') :
    (∃ table, storedTable s.tree directory tag = .ok table ∧ localization m r tag table = .ok l) ∧
      s'.tree = s.tree ∧ s'.cache.Faithful s.tree := by
  obtain ⟨table, s₁, hload, hlook⟩ := Build.run_bind_eq_ok.mp h
  obtain ⟨hmade, rfl⟩ := Build.Step.look_eq_ok.mp hlook
  obtain ⟨hsame, hkept⟩ := hfaithful.load_eq directory tag
  have hmade := Attempt.ofMisfit_eq_ok.mp hmade
  unfold Build.Step.loadTable at hload
  generalize Lexicon.load s.tree directory tag s.cache = result at hload hsame hkept
  obtain ⟨outcome, cache⟩ := result
  cases outcome with
  | error e => cases hload
  | ok found =>
    cases hload
    exact ⟨⟨table, hsame.symm, hmade⟩, rfl, hkept⟩

/-- **A build.** The texts under a tag are made with the lexicon of that tag in the files,
whatever was read before. -/
theorem get?_localize {directory : Option File.Path} {tags : List (Option String)}
    {s s' : Build.Session} (hfaithful : s.cache.Faithful s.tree)
    (h : Build.localize m r directory done tags s = .ok docs s') (tag : String) :
        (some tag ∈ tags → ∃ table l, storedTable s.tree directory tag = .ok table ∧
          docs.get? tag = some l ∧
        localization m r tag table = .ok l) ∧
      (some tag ∉ tags → docs.get? tag = done.get? tag) := by
  induction tags generalizing done s with
  | nil =>
    cases h
    simp
  | cons first rest ih =>
    cases first with
    | none =>
      obtain ⟨_, _, _, hthrow⟩ := Build.run_bind_eq_ok.mp h
      cases hthrow
    | some first =>
      obtain ⟨l, s₁, hl, hrest⟩ := Build.run_bind_eq_ok.mp h
      obtain ⟨⟨table, htable, hmade⟩, htree, hkept⟩ := localizeIn_eq_ok hfaithful hl
      rw [← htree] at hkept
      obtain ⟨hin, hout⟩ := ih hkept hrest
      rw [htree] at hin
      rw [Fields.get?_insert] at hout
      refine ⟨fun htag => ?_, fun htag => ?_⟩
      · by_cases hlater : some tag ∈ rest
        · exact hin hlater
        · obtain rfl := Option.some.inj ((List.mem_cons.mp htag).resolve_right hlater)
          exact ⟨table, l, htable, by rw [hout hlater, if_pos rfl], hmade⟩
      · rw [List.mem_cons, not_or] at htag
        rw [hout htag.2, if_neg fun heq => htag.1 (congrArg some heq.symm)]

end Languages

/-! ## Translation -/

/-- **Translation only replaces texts.** The texts of an addon in a language are its own, each
replaced by what the lexicon has for it, if it has something. So the language file is the one that
is made without a lexicon, with its slots looked up; both can be made, or neither. Its keys, their
order and their nesting are the same with every lexicon. The language file of a tag depends on the
lexicon of that tag, and neither on those of others nor on where the tag stands among them. In a
build the lexicon is the one in the files. -/
theorem translation_replaces_texts (m : Manifest) (r : Registry) :
    (∀ tag table,
      localization m r tag table =
        (localization m r tag []).map (Localization.mapTexts (localize table)) ∧
      languageDocument m r tag table =
        (languageDocument m r tag []).map (documentSlots (localize table))) ∧
    (∀ tag table table',
      (languageDocument m r tag table).map outline =
        (languageDocument m r tag table').map outline) ∧
    (∀ tableOf tags docs, localizations m r tableOf [] tags = .ok docs → ∀ tag ∈ tags,
      (∃ l, docs.get? tag = some l ∧ localization m r tag (tableOf tag) = .ok l) ∧
      ∀ tableOf' tags' docs', localizations m r tableOf' [] tags' = .ok docs' → tag ∈ tags' →
        tableOf' tag = tableOf tag → docs'.get? tag = docs.get? tag) ∧
    ∀ directory tags docs s s', s.cache.Faithful s.tree →
      Build.localize m r directory [] tags s = .ok docs s' → ∀ tag, some tag ∈ tags →
        ∃ table l, storedTable s.tree directory tag = .ok table ∧ docs.get? tag = some l ∧
          localization m r tag table = .ok l := by
  refine ⟨fun tag table =>
      ⟨localization_eq_map table m r tag, languageDocument_eq_map m r tag table⟩,
    fun tag table table' => ?_, fun tableOf tags docs hdocs tag htag => ?_,
    fun directory tags docs s s' hs hdocs tag =>
    (get?_localize hs hdocs tag).1⟩
  · rw [outline_languageDocument m r tag table, outline_languageDocument m r tag table']
  · obtain ⟨l, hget, hl⟩ := (get?_localizations hdocs tag).1 htag
    refine ⟨⟨l, hget, hl⟩, fun tableOf' tags' docs' hdocs' htag' hsame => ?_⟩
    obtain ⟨l', hget', hl'⟩ := (get?_localizations hdocs' tag).1 htag'
    rw [hsame, hl] at hl'
    rw [hget, hget', Except.ok.inj hl']

/-! ### Keys that are texts -/

/-- A property with a choice, and a record in a category: each has a key that is
a text of the lexicon. -/
def wordyManifest : Manifest :=
  { bareManifest with
    name := "Fast"
    categories := []
    properties := [[("id", .str "mode"), ("type", .str "combo"),
      ("options", .dict [("items", .list [.dict [("fast", .str "Fast")]])])]] }

def wordyRegistry : Registry where
  categories := [("fast", ⟨[{ failingRecord with description := .str "Fast" }], [], []⟩)]

def frenchTable : Table :=
  [("Fast", "Rapide"), ("fast", "vite"), ("f", "g"), ("mode", "m")]

/-- The way to a part of the texts of the addon. -/
def wordyWay (rest : List String) : List String :=
  ["text", "plugins", "bare"] ++ rest

set_option maxRecDepth 100000 in
/-- The texts are replaced, and the keys stay. -/
theorem translation_replaces_texts_wordy :
    ∃ plain d docs l, languageDocument wordyManifest wordyRegistry "fr" [] = .ok plain ∧
      languageDocument wordyManifest wordyRegistry "fr" frenchTable = .ok d ∧
      d = documentSlots (localize frenchTable) plain ∧ outline d = outline plain ∧
      localizations wordyManifest wordyRegistry (fun tag => if tag =
        "fr" then frenchTable else []) []
        ["en", "fr", "en"] = .ok docs ∧
      docs.get? "fr" = some l ∧ localization wordyManifest wordyRegistry "fr" frenchTable = .ok l ∧
      ∀ way ∈ [["name"], ["aceCategories", "fast"], ["properties", "mode", "items", "fast"],
          ["actions", "f", "description"]],
        partAt plain (wordyWay way) = some (.str "Fast") ∧
          partAt d (wordyWay way) = some (.str "Rapide") := by
  obtain ⟨hslots, houtline, htags, -⟩ := translation_replaces_texts wordyManifest wordyRegistry
  obtain ⟨plain, hplain, hparts⟩ : ∃ plain, languageDocument wordyManifest wordyRegistry "fr" [] =
    .ok plain ∧
      ∀ way ∈ [["name"], ["aceCategories", "fast"], ["properties", "mode", "items", "fast"],
          ["actions", "f", "description"]],
        partAt plain (wordyWay way) = some (.str "Fast") ∧
          partAt (documentSlots (localize frenchTable) plain) (wordyWay way) =
            some (.str "Rapide") := by
    refine ⟨_, rfl, ?_⟩
    simp only [List.forall_mem_cons]
    exact ⟨⟨rfl, rfl⟩, ⟨rfl, rfl⟩, ⟨rfl, rfl⟩, ⟨rfl, rfl⟩, by simp⟩
  obtain ⟨docs, hdocs⟩ : ∃ docs, localizations wordyManifest wordyRegistry
      (fun tag => if tag = "fr" then frenchTable else []) [] ["en", "fr", "en"] = .ok docs :=
        ⟨_, rfl⟩
  obtain ⟨⟨l, hget, hl⟩, -⟩ := htags _ _ docs hdocs "fr" (by decide)
  have hd : languageDocument wordyManifest wordyRegistry "fr" frenchTable =
      .ok (documentSlots (localize frenchTable) plain) := by
    rw [(hslots "fr" frenchTable).2, hplain]
    rfl
  have hsame : outline (documentSlots (localize frenchTable) plain) = outline plain := by
    have := houtline "fr" frenchTable []
    rw [hd, hplain] at this
    exact Except.ok.inj this
  exact ⟨plain, _, docs, l, hplain, hd, rfl, hsame, hdocs, hget, hl, hparts⟩

end Addon.Descriptor
