import Mathlib
import Addon.Proofs.Annotated.Extraction
import Addon.Proofs.Annotated.Registration
import Addon.Proofs.Attempt
import Addon.Proofs.Build.Step

/-!
# Agreement — three documents about the same records

The catalogue lists the records of a kind category by category, the language files hold their texts
under their ids, and the addon file leads from the ids to methods. All three are read off the
registry, in three different ways. They agree because the registry is consistent: an id that
occurred twice in a kind would be merged in a language file, but not in the catalogue.

## The architecture

* **`keysAt`** — the names at a way into a document, so that statements are about the documents
  themselves and not about what they are made of.
* **`catalogueOf_eq_ok`**, **`localization_eq_ok`**, **`keysAt_addonValue`** — what each
  document says about a kind, in terms of `flattened` and `dispatch`.
* **`Localized`** — the documents of some languages. Assembly and builds make them by different
  loops over the tags, of which `Localized.insert` is the common step.
-/

namespace Addon.Descriptor

open Ace

variable {r : Registry} {m : Manifest} {l : Localization} {seen : List String}
  {docs : Fields Localization}

/-! ## Ways into documents -/

/-- The part of a document that a way of names leads to. -/
def partAt (v : Value) : List String → Option Value
  | [] => some v
  | name :: rest =>
    match v with
    | .dict fields => (Fields.get? fields name).bind fun w => partAt w rest
    | _ => none

/-- The names of the fields that a way leads to. -/
def keysAt (v : Value) (way : List String) : Option (List String) :=
  match partAt v way with
  | some (.dict fields) => some (Fields.keys fields)
  | _ => none

/-- The ids that the catalogue lists for a kind, category by category. -/
def entryIds (c : Catalogue) (kind : Kind) : List (Option Value) :=
  c.flatMap fun category => (category.2.get kind).map fun e => Fields.get? e "id"

/-- The ids under which a language has the texts of a kind. -/
def Localization.sectionKeys (l : Localization) : Kind → List String
  | .action => l.actions.keys
  | .condition => l.conditions.keys
  | .expression => l.expressions.keys

/-- The way to the texts of the addon in its language file. -/
def Localization.rootWay (l : Localization) : List String :=
  ["text", l.addonType.textRoot, l.addonId]

/-! ## The catalogue -/

/-- An entry of the catalogue goes by the id of its record. -/
theorem get?_id_entry {r : Record} {e : Entry} (h : entry r = .ok e) :
    Fields.get? e "id" = some (.str r.id) := by
  obtain ⟨params, -, h⟩ := bind_eq_ok.mp h
  obtain rfl := Except.ok.inj h
  unfold nameFields
  split <;> rfl

theorem ids_of_mapM_entry {records : List Record} {es : List Entry}
    (h : records.mapM entry = .ok es) :
    es.map (fun e => Fields.get? e "id") = records.map fun r => some (.str r.id) :=
  map_eq_of_mapM (fun _ _ he => get?_id_entry he) h

/-- A category lists the records of its bucket, kind by kind. -/
theorem ids_of_bucketEntries {b : Bucket} {entries : ByKind (List Entry)}
    (h : bucketEntries b = .ok entries) (kind : Kind) :
    (entries.get kind).map (fun e => Fields.get? e "id") =
      (b.get kind).map fun r => some (.str r.id) := by
  simp only [bucketEntries, bind_eq_ok] at h
  obtain ⟨actions, hactions, conditions, hconditions, expressions, hexpressions, h⟩ := h
  obtain rfl := Except.ok.inj h
  cases kind with
  | action => exact ids_of_mapM_entry hactions
  | condition => exact ids_of_mapM_entry hconditions
  | expression => exact ids_of_mapM_entry hexpressions

/-- The catalogue has the categories of the registry. Read category by category, it lists the
records of a kind in the order in which the registry has them. -/
theorem catalogueOf_eq_ok {categories : Fields Bucket} {c : Catalogue}
    (h : catalogueOf categories = .ok c) (kind : Kind) :
    c.keys = categories.keys ∧
    entryIds c kind = (categories.flatMap fun b => b.2.get kind).map fun r => some (.str r.id) := by
  induction categories generalizing c with
  | nil =>
    obtain rfl := Except.ok.inj h
    exact ⟨rfl, rfl⟩
  | cons b rest ih =>
    simp only [catalogueOf, bind_eq_ok] at h
    obtain ⟨entries, hb, others, hrest, h⟩ := h
    obtain rfl := Except.ok.inj h
    obtain ⟨hkeys, hids⟩ := ih hrest
    refine ⟨by rw [Fields.keys_cons, Fields.keys_cons, hkeys], ?_⟩
    rw [List.flatMap_cons, List.map_append, ← hids, ← ids_of_bucketEntries hb kind]
    rfl

/-! ## Language files -/

/-- The texts of records with distinct ids stand under these ids, in order. -/
theorem keys_recordTexts {α : Type} (texts : Record → α) (records : List Record)
    (h : (records.map (·.id)).Nodup) : (recordTexts texts records).keys = records.map (·.id) := by
  have hkeys : Fields.keys (records.map fun r => (r.id, texts r)) = records.map (·.id) := by
    simp [Fields.keys]
  rw [recordTexts, Fields.ofList_of_nodup (by rwa [hkeys]), hkeys]

/-- The texts of an addon in a language: the tag is the one asked for, each kind has a text for each
of its records, and the labels are those of the manifest and the registry. -/
theorem localization_eq_ok {tag : String} {table : Lexicon.Table}
    (h : localization m r tag table = .ok l)
    (hnodup : ∀ kind, ((r.flattened kind).map (·.id)).Nodup) :
    l.tag = tag ∧ (∀ kind, l.sectionKeys kind = (r.flattened kind).map (·.id)) ∧
      l.categories = categoryLabels table m r := by
  obtain ⟨properties, -, h⟩ := bind_eq_ok.mp h
  obtain rfl := Except.ok.inj h
  refine ⟨rfl, fun kind => ?_, rfl⟩
  cases kind <;> exact keys_recordTexts _ _ (hnodup _)

/-- Only a text is equal to a text. -/
theorem eq_str_of_equal {v : Value} {text : String} (h : v.equal (.str text) = true) :
    v = .str text := by
  cases v <;> simp_all [Value.equal, Value.numeral?]

/-- Every category in use has a label under its name, be it one of the manifest. -/
theorem exists_label (table : Lexicon.Table) (m : Manifest) {category : String}
    (h : category ∈ r.categories.keys) :
    ∃ label, (Value.str category, label) ∈ categoryLabels table m r := by
  rw [categoryLabels]
  by_cases hgiven : hasLabel (m.categories.map fun l => (l.1, Lexicon.localize table l.2)) category
  · obtain ⟨l, hl, heq⟩ := List.any_eq_true.mp hgiven
    refine ⟨l.2, List.mem_append_left _ ?_⟩
    rwa [← eq_str_of_equal heq]
  · refine ⟨_, List.mem_append_right _ (List.mem_map.mpr ⟨category, ?_, rfl⟩)⟩
    exact List.mem_filter.mpr ⟨h, by simpa using hgiven⟩

theorem mem_keys_labelFields {labels : List (Value × Value)} {fields : List (String × Value)}
    {category : String} {label : Value} (h : labelFields labels = .ok fields)
    (hmem : (Value.str category, label) ∈ labels) : category ∈ Fields.keys fields := by
  induction labels generalizing fields with
  | nil => cases hmem
  | cons l rest ih =>
    simp only [labelFields, bind_eq_ok] at h
    obtain ⟨name, hname, others, hrest, h⟩ := h
    obtain rfl := Except.ok.inj h
    rw [Fields.keys_cons, List.mem_cons]
    rcases List.mem_cons.mp hmem with rfl | hmem
    · exact .inl (Except.ok.inj hname)
    · exact .inr (ih hrest hmem)

/-- The sections of a language file have the names that the language has, and
its labels are there. -/
theorem keysAt_toValue {v : Value} (h : l.toValue = .ok v) :
    (∀ kind, keysAt v (l.rootWay ++ [kind.plural]) = some (l.sectionKeys kind)) ∧
    ∃ labels, labelFields l.categories = .ok labels ∧
      keysAt v (l.rootWay ++ ["aceCategories"]) = some (Fields.keys labels) := by
  obtain ⟨labels, hlabels, h⟩ := bind_eq_ok.mp h
  obtain rfl := Except.ok.inj h
  refine ⟨fun kind => ?_, labels, hlabels, ?_⟩
  · cases kind <;>
      simp [keysAt, Localization.rootWay, partAt, Fields.get?, Kind.plural,
        Localization.sectionKeys]
  · simp [keysAt, Localization.rootWay, partAt, Fields.get?]

/-! ## The addon file -/

/-- The addon file leads to methods from the ids that the registry leads from. -/
theorem keysAt_addonValue (m : Manifest) (dispatch : ByKind (Fields MethodRef))
    (tags editorScripts : List String) (kind : Kind) :
    keysAt (addonValue m dispatch tags editorScripts) ["ace-dispatch", kind.plural] =
      some (dispatch.get kind).keys := by
  cases kind <;>
    simp [keysAt, addonValue, dispatchValue, partAt, Fields.get?, Kind.plural, ByKind.toFields,
      Kind.all, ByKind.map, ByKind.get]

/-! ## Languages -/

/-- The documents of languages, of which some tags have been seen: one for each tag, in the order of
their first mention, and each with the texts of its language in some lexicon. -/
structure Localized (m : Manifest) (r : Registry) (seen : List String)
    (docs : Fields Localization) :
    Prop where
  keys : docs.keys = seen.eraseDups
  made : ∀ d ∈ docs, ∃ table, localization m r d.1 table = .ok d.2

/-- **The step.** One more tag, with the texts of its language. -/
theorem Localized.insert {tag : String} {table : Lexicon.Table}
    (h : Localized m r seen docs) (hl : localization m r tag table = .ok l) :
    Localized m r (seen ++ [tag]) (docs.insert tag l) where
  keys := by
    rw [Fields.keys_insert, Registry.eraseDups_append_singleton, h.keys]
    simp only [List.mem_eraseDups]
  made := by
    intro d hd
    rcases Fields.mem_of_mem_insert hd with hd | rfl
    · exact h.made d hd
    · exact ⟨table, hl⟩

theorem Localized.nil (m : Manifest) (r : Registry) : Localized m r [] [] where
  keys := rfl
  made := by simp

/-- **The run** of assembly, by induction on the tags. -/
theorem localized_localizations {tableOf : String → Lexicon.Table}
    {tags : List String} {done : Fields Localization} (h : Localized m r seen done)
    (hdocs : localizations m r tableOf done tags = .ok docs) :
    Localized m r (seen ++ tags) docs := by
  induction tags generalizing seen done with
  | nil =>
    obtain rfl := Except.ok.inj hdocs
    rwa [List.append_nil]
  | cons tag rest ih =>
    obtain ⟨l, hl, hrest⟩ := bind_eq_ok.mp hdocs
    have := ih (h.insert hl) hrest
    rwa [List.append_assoc, List.singleton_append] at this

/-- **The run** of a build, which reads the lexicons from files and remembers them. -/
theorem localized_localize {directory : Option File.Path} {tags : List (Option String)}
    {done : Fields Localization} {s s' : Build.Session} (h : Localized m r seen done)
    (hdocs : Build.localize m r directory done tags s = .ok docs s') :
    Localized m r (seen ++ tags.filterMap id) docs := by
  induction tags generalizing seen done s with
  | nil =>
    obtain ⟨rfl, -⟩ := EStateM.Result.ok.inj hdocs
    simpa using h
  | cons tag rest ih =>
    cases tag with
    | none =>
      -- a language without a name ends the build
      obtain ⟨_, _, _, hthrow⟩ := Build.run_bind_eq_ok.mp hdocs
      cases hthrow
    | some tag =>
      obtain ⟨l, s₁, hl, hrest⟩ := Build.run_bind_eq_ok.mp hdocs
      obtain ⟨table, s₂, -, hlook⟩ := Build.run_bind_eq_ok.mp hl
      obtain ⟨hmade, -⟩ := Build.Step.look_eq_ok.mp hlook
      have := ih (h.insert (Attempt.ofMisfit_eq_ok.mp hmade)) hrest
      rwa [List.append_assoc, List.singleton_append] at this

/-! ## All three -/

/-- **The documents agree.** Let scripts be read in turn, with or without failures, and let a
catalogue and the documents of languages be made of what they registered, from any lexicons or in
a build. For each kind there is one list of ids without repetition that the catalogue lists
category by category, that every language has texts for, in the same order, and that the addon
file leads to methods from. Every category of the catalogue has a label in every language, and
each distinct tag one document. -/
theorem documents_agree (scripts : List (String × String)) (m : Manifest)
    (tags editorScripts : List String) (c : Catalogue) (docs : Fields Localization)
    (hc : catalogue (Annotated.extractAll .empty scripts) = .ok c)
    (hdocs :
      (∃ tableOf, localizations m (Annotated.extractAll .empty scripts) tableOf [] tags =
        .ok docs) ∨
      ∃ directory s s',
        Build.localize m (Annotated.extractAll .empty scripts) directory [] (tags.map some) s =
          .ok docs s') :
    (∀ kind : Kind, ∃ ids : List String, ids.Nodup ∧
      entryIds c kind = ids.map (fun id => some (.str id)) ∧
      (∀ d ∈ docs, d.2.sectionKeys kind = ids ∧
        ∀ v, d.2.toValue = .ok v → keysAt v (d.2.rootWay ++ [kind.plural]) = some ids) ∧
      ∃ keys, keysAt (addonValue m (Annotated.extractAll .empty scripts).dispatch tags
        editorScripts) ["ace-dispatch", kind.plural] = some keys ∧ ∀ id, id ∈ keys ↔ id ∈ ids) ∧
    (∀ category ∈ c.keys, ∀ d ∈ docs, (∃ label, (.str category, label) ∈ d.2.categories) ∧
      ∀ v, d.2.toValue = .ok v →
        ∃ names, keysAt v (d.2.rootWay ++ ["aceCategories"]) = some names ∧ category ∈ names) ∧
    docs.keys = tags.eraseDups ∧ ∀ d ∈ docs, d.2.tag = d.1 := by
  obtain ⟨done, hcons⟩ := Annotated.consistent_extractAll scripts
  generalize Annotated.extractAll .empty scripts = r at hc hdocs hcons
  -- from here on it does not matter which of the two loops made the documents
  have hlocalized : Localized m r tags docs := by
    rcases hdocs with ⟨tableOf, h⟩ | ⟨directory, s, s', h⟩
    · exact localized_localizations (.nil m r) h
    · have := localized_localize (.nil m r) h
      simpa using this
  have hmade : ∀ d ∈ docs, d.2.tag = d.1 ∧
      (∀ kind, d.2.sectionKeys kind = (r.flattened kind).map (·.id)) ∧
      ∃ table, d.2.categories = categoryLabels table m r := by
    intro d hd
    obtain ⟨table, hl⟩ := hlocalized.made d hd
    obtain ⟨htag, hkeys, hlabels⟩ := localization_eq_ok hl hcons.flattened_nodup
    exact ⟨htag, hkeys, table, hlabels⟩
  refine ⟨fun kind => ⟨(r.flattened kind).map (·.id), hcons.flattened_nodup kind, ?_, ?_, ?_⟩, ?_,
    hlocalized.keys, fun d hd => (hmade d hd).1⟩
  · rw [(catalogueOf_eq_ok hc kind).2, List.map_map]
    rfl
  · intro d hd
    have hkeys := (hmade d hd).2.1 kind
    refine ⟨hkeys, fun v hv => ?_⟩
    rw [(keysAt_toValue hv).1, hkeys]
  · exact ⟨_, keysAt_addonValue m r.dispatch tags editorScripts kind, hcons.dispatch_mem kind⟩
  · intro category hcategory d hd
    rw [(catalogueOf_eq_ok hc .action).1] at hcategory
    obtain ⟨table, hlabels⟩ := (hmade d hd).2.2
    obtain ⟨label, hlabel⟩ := exists_label table m hcategory
    rw [← hlabels] at hlabel
    refine ⟨⟨label, hlabel⟩, fun v hv => ?_⟩
    obtain ⟨labels, hfields, hnames⟩ := (keysAt_toValue hv).2
    exact ⟨_, hnames, mem_keys_labelFields hfields hlabel⟩

/-! ### A script that fails half way -/

/-- A script that stops at an id that is taken, and one that cannot be parsed. -/
def failingScripts : List (String × String) :=
  [("@AceClass\nclass A:\n @Action\n def f(s):0\n @Action\n def f(s):0\n", "a.py"), ("(", "b.py")]

/-- The one record that they register. -/
def failingRecord : Record :=
  { id := "f", kind := .action, category := "general", displayText := "F", listName := .str "F" }

theorem parseModule_failingScript :
    Script.parseModule "@AceClass\nclass A:\n @Action\n def f(s):0\n @Action\n def f(s):0\n" =
      .ok ⟨[Annotated.classStmt 1 ⟨6, 11⟩ "A"
        [Annotated.actionStmt 4 10 "f" [] [], Annotated.actionStmt 6 10 "f" [] []]]⟩ :=
  Script.parseModule_of_tokens
    (Annotated.classTokens 1 6 "A" (Annotated.actionTokens 4 10 "f" [] ++
      Annotated.actionTokens 6 10 "f" []) ++ [Script.tokenAt 7 0 0 .finish])
    (by decide +kernel) (by rfl)

set_option maxRecDepth 100000 in
theorem extractAll_failingScripts :
    Annotated.extractAll .empty failingScripts =
      { categories := [("general", ⟨[failingRecord], [], []⟩)]
        dispatch := ⟨[("f", ⟨"A", "f"⟩)], [], []⟩
        owners := ⟨[("f", "a.py")], [], []⟩ } := by
  simp only [failingScripts, Annotated.extractAll_cons,
    Annotated.extract_of_prepared parseModule_failingScript rfl]
  cbv

/-- A manifest that says no more than it has to. -/
def bareManifest : Manifest :=
  { addonType := .plugin, id := "Bare", name := "Bare", version := "1", author := .str ""
    website := .str "", documentation := .str "", description := .str "", category := .str "general"
    icon := .str "icon.svg", addonUrl := .null, githubUrl := .null, properties := []
    categories := [(.int 1, .str "One")], fileDependencies := [], info := .dict [] }

/-- The record that was registered before the failure is in all documents, and a tag that is given
twice has one document. -/
theorem documents_agree_failingScripts :
    ∃ c docs, catalogue (Annotated.extractAll .empty failingScripts) = .ok c ∧
      localizations bareManifest (Annotated.extractAll .empty failingScripts) (fun _ => []) []
        ["en-US", "fr-FR", "en-US"] = .ok docs ∧
      entryIds c .action = [some (.str "f")] ∧ docs.keys = ["en-US", "fr-FR"] ∧
      ∀ d ∈ docs, d.2.sectionKeys .action = ["f"] ∧
        ∃ label, (.str "general", label) ∈ d.2.categories := by
  obtain ⟨c, hc, hids⟩ : ∃ c, catalogue (Annotated.extractAll .empty failingScripts) = .ok c ∧
      entryIds c .action = [some (.str "f")] ∧ c.keys = ["general"] := by
    rw [extractAll_failingScripts]
    exact ⟨_, rfl, rfl, rfl⟩
  obtain ⟨docs, hdocs⟩ : ∃ docs, localizations bareManifest
      (Annotated.extractAll .empty failingScripts) (fun _ => []) [] ["en-US", "fr-FR", "en-US"] =
        .ok docs := by
    rw [extractAll_failingScripts]
    exact ⟨_, rfl⟩
  obtain ⟨hkinds, hlabels, htags, -⟩ := documents_agree failingScripts bareManifest
    ["en-US", "fr-FR", "en-US"] [] c docs hc (.inl ⟨_, hdocs⟩)
  obtain ⟨ids, -, hentries, hsections, -⟩ := hkinds .action
  have hsingle : ids = ["f"] := by
    rw [hids.1, eq_comm, List.map_eq_singleton_iff] at hentries
    obtain ⟨id, rfl, hid⟩ := hentries
    rw [Value.str.inj (Option.some.inj hid)]
  refine ⟨c, docs, hc, hdocs, hids.1, by rw [htags]; decide, fun d hd => ⟨?_, ?_⟩⟩
  · rw [(hsections d hd).1, hsingle]
  · exact (hlabels "general" (by rw [hids.2]; exact List.mem_singleton.mpr rfl) d hd).1

end Addon.Descriptor
