import Mathlib
import Addon.Proofs.Ace.Enrolment
import Addon.Proofs.Annotated.Exports
import Addon.Proofs.Descriptor.Agreement
import Addon.Proofs.Manifest

/-!
# Totality — what can be assembled

A configuration that is accepted and scripts that were read do not have to fit the assembly, which
takes items and options apart that may never have been looked at. The scripts do: whoever reads a
parameter insists on choices of one key each, so every record has a place in the catalogue. The
configuration does not: of a property nothing is known but that it has an id, and a language file
needs that id as a text and the options of some types as fields.

## The architecture

* **`OfMethod`** — a record that was read of a method. Its choices have one key each
  (`OfMethod.singleKeys`).
* **`exists_read_extractAll`** — the run over scripts: a registry holds nothing but such records.
* **`Displayable`** — the properties that a language file can show, by what they hold
  (`exists_propertyTexts_iff`).
-/

namespace Addon.Annotated

open Ace (Parameter Record Registry Registration)

variable {scope : Scope}

/-! ## Records that were read -/

/-- The record was read of a method with a marker. -/
def OfMethod (record : Record) : Prop :=
  ∃ scope r m decorator marker spans, readMarked scope r m decorator marker = .ok (record, spans)

/-- The choices of a parameter, if it has any, have one key each. -/
def SingleKeys (p : Parameter) : Prop :=
  ∀ items, p.items = some items → ∀ item ∈ items, ∃ field, item = [field]

theorem single_of_itemsOf? {values : List Value} {items : List (Fields Value)}
    (h : itemsOf? values = some items) : ∀ item ∈ items, ∃ field, item = [field] := by
  fun_induction itemsOf? values generalizing items with
  | case1 =>
    obtain rfl := Option.some.inj h
    simp
  | case2 field rest ih =>
    obtain ⟨others, hothers, rfl⟩ := Option.map_eq_some_iff.mp h
    rw [List.forall_mem_cons]
    exact ⟨⟨field, rfl⟩, ih hothers⟩
  | case3 => cases h

theorem single_of_paramItems {param : Script.Param} {given : Option Value}
    {items : List (Fields Value)} (h : paramItems scope param given = .ok (some items)) :
    ∀ item ∈ items, ∃ field, item = [field] := by
  unfold paramItems at h
  split at h
  · cases h
  · cases h
  · split at h
    · next hitems =>
      cases h
      exact single_of_itemsOf? hitems
    · exact absurd h complain_ne_ok
  · exact absurd h complain_ne_ok

theorem singleKeys_of_readParam {r : Reading} {param : Script.Param}
    {default : Option Script.Expr} {p : Parameter} {spans : List Source.Span}
    (h : readParam scope r param default = .ok (p, spans)) : SingleKeys p := by
  simp only [readParam, bind_eq_ok] at h
  obtain ⟨_, -, _, -, _, -, _, -, _, -, items, hitems, h⟩ := h
  obtain ⟨rfl, -⟩ := Prod.mk.inj (Except.ok.inj h)
  rintro given rfl
  exact single_of_paramItems hitems

theorem singleKeys_of_readParams {r : Reading} {params : List (Script.Param × Option Script.Expr)}
    {ps : List Parameter} {spans : List Source.Span}
    (h : readParams scope r params = .ok (ps, spans)) : ∀ p ∈ ps, SingleKeys p := by
  induction params generalizing ps spans with
  | nil =>
    cases h
    simp
  | cons param rest ih =>
    simp only [readParams, bind_eq_ok] at h
    obtain ⟨⟨p, mine⟩, hp, ⟨others, more⟩, hothers, h⟩ := h
    obtain ⟨rfl, -⟩ := Prod.mk.inj (Except.ok.inj h)
    rw [List.forall_mem_cons]
    exact ⟨singleKeys_of_readParam hp, ih hothers⟩

theorem OfMethod.singleKeys {record : Record} (h : OfMethod record) :
    ∀ p ∈ record.params, SingleKeys p := by
  obtain ⟨scope, r, m, decorator, marker, spans, h⟩ := h
  simp only [readMarked, bind_eq_ok] at h
  obtain ⟨_, -, _, -, h⟩ := h
  split at h
  · exact absurd h complain_ne_ok
  · simp only [bind_eq_ok] at h
    obtain ⟨⟨params, _⟩, hparams, _, -, _, -, h⟩ := h
    obtain ⟨rfl, -⟩ := Prod.mk.inj (Except.ok.inj h)
    exact singleKeys_of_readParams hparams

/-! ## The run over scripts -/

/-- **The step.** One more script adds only records that it was read of. -/
theorem exists_read_extract {r : Registry} {done : List Registration} (h : r.Tracks done)
    (hread : ∀ c ∈ done, OfMethod c.record) (source moduleName : String) :
    ∃ done, (extract r source moduleName).registry.Tracks done ∧ ∀ c ∈ done, OfMethod c.record := by
  obtain ⟨harvest, hregistry, -, -, read, -, hgives, -⟩ := exists_harvest source moduleName
  obtain ⟨calls, hcalls, henroll⟩ := r.exists_enrolled_prefix harvest.calls
  have hnext := h.enroll (show (r.enroll calls).2 = none by rw [henroll])
  rw [henroll, ← hregistry] at hnext
  refine ⟨done ++ calls, hnext, ?_⟩
  rw [List.forall_mem_append]
  refine ⟨hread, fun c hc => ?_⟩
  obtain ⟨i, hi, rfl⟩ := List.mem_iff_getElem.mp (hcalls.subset hc)
  obtain ⟨m, reading, -, -, hx⟩ := hgives.get (hgives.length_eq ▸ hi) hi
  obtain ⟨spans, hspans⟩ := hx.read
  exact ⟨_, _, _, _, _, spans, hspans⟩

/-- **The run.** After any scripts a registry holds only records that were read of methods. -/
theorem exists_read_extractAll (scripts : List (String × String)) :
    ∃ done, (extractAll .empty scripts).Tracks done ∧ ∀ c ∈ done, OfMethod c.record := by
  suffices h : ∀ (r : Registry) (done : List Registration), r.Tracks done →
      (∀ c ∈ done, OfMethod c.record) →
      ∃ done, (extractAll r scripts).Tracks done ∧ ∀ c ∈ done, OfMethod c.record from
    h .empty [] Registry.tracks_empty (by simp)
  induction scripts with
  | nil => exact fun r done h hread => ⟨done, h, hread⟩
  | cons script rest ih =>
    intro r done h hread
    obtain ⟨next, hnext, hnextRead⟩ := exists_read_extract h hread script.1 script.2
    rw [extractAll_cons]
    exact ih _ next hnext hnextRead

end Addon.Annotated

namespace Addon.Descriptor

open Ace
open Annotated (OfMethod SingleKeys)
open Manifest (value ListOf)

variable {property : Fields Value}

/-! ## The catalogue -/

theorem exists_paramEntry {p : Parameter} (h : SingleKeys p) : ∃ e, paramEntry p = .ok e := by
  unfold paramEntry
  cases hitems : p.items with
  | none => exact ⟨_, rfl⟩
  | some items =>
    obtain ⟨keys, hkeys⟩ : ∃ keys, items.mapM itemKey = .ok keys := by
      rw [exists_mapM_iff]
      intro item hitem
      obtain ⟨field, rfl⟩ := h items hitems item hitem
      exact ⟨_, rfl⟩
    exact ⟨_, by simp only [hkeys]; rfl⟩

theorem exists_entry {record : Record} (h : OfMethod record) : ∃ e, entry record = .ok e := by
  obtain ⟨params, hparams⟩ :=
    (exists_mapM_iff record.params).mpr fun p hp => exists_paramEntry (h.singleKeys p hp)
  exact ⟨_, by rw [entry, hparams]; rfl⟩

theorem exists_bucketEntries {b : Bucket} (h : ∀ kind, ∀ record ∈ b.get kind, OfMethod record) :
    ∃ entries, bucketEntries b = .ok entries := by
  have hkind : ∀ kind, ∃ es, (b.get kind).mapM entry = .ok es := fun kind =>
    (exists_mapM_iff _).mpr fun record hrecord => exists_entry (h kind record hrecord)
  obtain ⟨actions, hactions⟩ := hkind .action
  obtain ⟨conditions, hconditions⟩ := hkind .condition
  obtain ⟨expressions, hexpressions⟩ := hkind .expression
  simp only [ByKind.get] at hactions hconditions hexpressions
  exact ⟨_, by rw [bucketEntries, hactions, hconditions, hexpressions]; rfl⟩

theorem exists_catalogueOf {categories : Fields Bucket}
    (h : ∀ c ∈ categories, ∀ kind, ∀ record ∈ c.2.get kind, OfMethod record) :
    ∃ c, catalogueOf categories = .ok c := by
  induction categories with
  | nil => exact ⟨_, rfl⟩
  | cons c rest ih =>
    rw [List.forall_mem_cons] at h
    obtain ⟨entries, hentries⟩ := exists_bucketEntries h.1
    obtain ⟨others, hothers⟩ := ih h.2
    exact ⟨_, by rw [catalogueOf, hentries, hothers]; rfl⟩

/-- What scripts registered has a catalogue. -/
theorem exists_catalogue (scripts : List (String × String)) :
    ∃ c, catalogue (Annotated.extractAll .empty scripts) = .ok c := by
  obtain ⟨done, htracks, hread⟩ := Annotated.exists_read_extractAll scripts
  refine exists_catalogueOf fun c hc kind record hrecord => ?_
  have hmem := (htracks.flattened kind).mem_iff.mp (List.mem_flatMap.mpr ⟨c, hc, hrecord⟩)
  obtain ⟨call, hcall, rfl⟩ := List.mem_map.mp hmem
  exact hread call (List.mem_filter.mp hcall).1

/-! ## Properties -/

/-- A value with fields. -/
def IsDict (v : Value) : Prop :=
  ∃ fields, v = .dict fields

/-- A property that a language file can show. Its id is a text. Where its type makes use of options,
they have fields or count as false, and the items among them are listed as dicts. -/
structure Displayable (property : Fields Value) : Prop where
  id : ∀ v, property.get? "id" = some v → ∃ text, v = .str text
  combo : property.get? "type" = some (.str "combo") →
    (value property "options").isTruthy = false ∨
    ∃ fields, value property "options" = .dict fields ∧ ListOf IsDict (value fields "items")
  link : property.get? "type" = some (.str "link") →
    (value property "options").isTruthy = false ∨ IsDict (value property "options")

theorem fieldsOf_eq_ok {v : Value} {fields : Fields Value} :
    fieldsOf v = .ok fields ↔ v = .dict fields := by
  cases v <;> simp [fieldsOf]

theorem exists_fieldsOf_iff (v : Value) : (∃ fields, fieldsOf v = .ok fields) ↔ IsDict v := by
  simp only [fieldsOf_eq_ok, IsDict]

theorem exists_propertyItems_iff (v : Value) :
    (∃ items, propertyItems (v.orElse (.dict [])) = .ok items) ↔
      v.isTruthy = false ∨ ∃ fields, v = .dict fields ∧ ListOf IsDict (value fields "items") := by
  have hitems : ∀ w : Value, (∃ items, (w.orElse (.list [])).sequence = .ok items ∧
      ∃ fields, items.mapM fieldsOf = .ok fields) ↔ ListOf IsDict w := by
    intro w
    simp only [exists_mapM_iff, exists_fieldsOf_iff]
    exact Manifest.exists_items_iff (by simp [IsDict]) w
  have hopen : ∀ options : Value, (∃ items, propertyItems options = .ok items) ↔
      ∃ fields, options = .dict fields ∧ ListOf IsDict (value fields "items") := by
    intro options
    simp only [propertyItems, bind_eq_ok, fieldsOf_eq_ok, ← hitems, value]
    tauto
  rw [hopen, Value.orElse]
  cases htrue : v.isTruthy with
  | true => simp
  | false => simp [ListOf, value, Fields.get?, Value.isTruthy]

theorem exists_propertyLinkText_iff (property : Fields Value) (v : Value) :
    (∃ text, propertyLinkText property (v.orElse (.dict [])) = .ok text) ↔
      v.isTruthy = false ∨ IsDict v := by
  simp only [propertyLinkText, bind_eq_ok, fieldsOf_eq_ok, Value.orElse, IsDict]
  cases v.isTruthy <;> simp [pure, Except.pure]

theorem propertyId_eq_ok {id : String} :
    propertyId property = .ok id ↔ property.get? "id" = some (.str id) := by
  unfold propertyId
  split <;> simp_all

theorem type?_eq_some_iff {name : String} :
    (property.get? "type").bind Value.toText? = some name ↔
      property.get? "type" = some (.str name) := by
  rw [Option.bind_eq_some_iff]
  constructor
  · rintro ⟨v, hv, htext⟩
    cases v <;> cases htext
    exact hv
  · exact fun h => ⟨_, h, rfl⟩

theorem exists_get?_of_contains {fields : Fields Value} {name : String}
    (h : fields.contains name = true) :
    ∃ v, fields.get? name = some v := by
  by_contra hnone
  rw [← Option.ne_none_iff_exists', not_not, Fields.get?_eq_none_iff] at hnone
  simp_all [Fields.contains, Fields.keys]

/-- A property with an id can be shown exactly when it is displayable, whatever the lexicon. -/
theorem exists_propertyTexts_iff (hid : property.contains "id" = true)
    (table : Lexicon.Table) : (∃ t, propertyTexts table property = .ok t) ↔
      Displayable property := by
  obtain ⟨v, hv⟩ := exists_get?_of_contains hid
  by_cases hstr : ∃ id, v = .str id
  · obtain ⟨id, rfl⟩ := hstr
    have hshown : ∀ w, property.get? "id" = some w → ∃ text, w = .str text := fun w hw =>
      ⟨id, Option.some.inj (hw.symm.trans hv)⟩
    have hitems := exists_propertyItems_iff (value property "options")
    have hlink := exists_propertyLinkText_iff property (value property "options")
    unfold propertyTexts
    rw [propertyId_eq_ok.mpr hv, ← value]
    split
    · next htype =>
      rw [type?_eq_some_iff] at htype
      refine Iff.trans ?_ (hitems.trans ⟨fun h => ⟨hshown, fun _ => h, by simp [htype]⟩,
        fun h => h.combo htype⟩)
      simp [bind_eq_ok, pure, Except.pure]
    · next htype =>
      rw [type?_eq_some_iff] at htype
      refine Iff.trans ?_ (hlink.trans ⟨fun h => ⟨hshown, by simp [htype], fun _ => h⟩,
        fun h => h.link htype⟩)
      simp [bind_eq_ok, pure, Except.pure]
    · next hcombo hlink =>
      rw [type?_eq_some_iff] at hcombo hlink
      exact iff_of_true ⟨_, rfl⟩ ⟨hshown, fun h => absurd h hcombo, fun h => absurd h hlink⟩
  · refine iff_of_false ?_ fun h => hstr (h.id v hv)
    rintro ⟨t, ht⟩
    obtain ⟨id, hid, -⟩ := bind_eq_ok.mp ht
    exact hstr ⟨id, Option.some.inj (hv.symm.trans (propertyId_eq_ok.mp hid))⟩

/-! ## Language files -/

theorem exists_localization_iff {m : Manifest}
    (hm : ∀ p ∈ m.properties, Fields.contains p "id" = true)
    (r : Registry) (tag : String) (table : Lexicon.Table) :
    (∃ l, localization m r tag table = .ok l) ↔ ∀ p ∈ m.properties, Displayable p := by
  have hproperties : (∃ ts, m.properties.mapM (propertyTexts table) = .ok ts) ↔
      ∀ p ∈ m.properties, Displayable p := by
    rw [exists_mapM_iff]
    exact forall₂_congr fun p hp => exists_propertyTexts_iff (hm p hp) table
  rw [← hproperties]
  simp [localization, bind_eq_ok, pure, Except.pure]

/-- **The run** over the tags. Without tags nothing is looked at. -/
theorem exists_localizations_iff {m : Manifest}
    (hm : ∀ p ∈ m.properties, Fields.contains p "id" = true) (r : Registry)
    (tableOf : String → Lexicon.Table) (done : Fields Localization) (tags : List String) :
    (∃ docs, localizations m r tableOf done tags = .ok docs) ↔
      tags = [] ∨ ∀ p ∈ m.properties, Displayable p := by
  induction tags generalizing done with
  | nil => simp [localizations]
  | cons tag rest ih =>
    simp only [localizations, bind_eq_ok, reduceCtorEq, false_or]
    constructor
    · rintro ⟨docs, l, hl, -⟩
      exact (exists_localization_iff hm r tag (tableOf tag)).mp ⟨l, hl⟩
    · intro h
      obtain ⟨l, hl⟩ := (exists_localization_iff hm r tag (tableOf tag)).mpr h
      obtain ⟨docs, hdocs⟩ := (ih (done.insert tag l)).mpr (.inr h)
      exact ⟨docs, l, hl, hdocs⟩

/-! ## All three documents -/

/-- **What can be assembled.** Whatever the scripts, what they registered has a catalogue, and with
any manifest an addon file. Language files can be made of an accepted configuration, one for each
tag, exactly when all of its properties are displayable: that it was accepted is not enough. -/
theorem assembly_succeeds_iff {data : Fields Value} {m : Manifest}
    (h : Manifest.ofFields data = .ok m) (scripts : List (String × String))
    (tags editorScripts : List String) (tableOf : String → Lexicon.Table) :
    (∃ c, catalogue (Annotated.extractAll .empty scripts) = .ok c) ∧
    (∃ fields, addonValue m (Annotated.extractAll .empty scripts).dispatch tags editorScripts =
      .dict fields) ∧
    ((∃ docs, localizations m (Annotated.extractAll .empty scripts) tableOf [] tags = .ok docs ∧
        docs.keys = tags.eraseDups) ↔
      tags = [] ∨ ∀ p ∈ m.properties, Displayable p) := by
  refine ⟨exists_catalogue scripts, ⟨_, rfl⟩, ?_⟩
  rw [← exists_localizations_iff (Manifest.contains_id_of_ofFields h)
    (Annotated.extractAll .empty scripts) tableOf []]
  exact ⟨fun ⟨docs, hdocs, _⟩ => ⟨docs, hdocs⟩,
    fun ⟨docs, hdocs⟩ => ⟨docs, hdocs, (localized_localizations (.nil _ _) hdocs).keys⟩⟩

/-! ### Properties that are shown -/

/-- Choices. -/
def modeProperty : Fields Value :=
  [("id", .str "mode"), ("type", .str "combo"),
    ("options", .dict [("items", .list [.dict [("fast", .str "Fast")]])])]

/-- A link without options. -/
def homeProperty : Fields Value :=
  [("id", .str "home"), ("type", .str "link")]

/-- A configuration with some properties. -/
def withProperties (properties : List (Fields Value)) : Fields Value :=
  [("addonType", .str "plugin"), ("id", .str "a"), ("name", .str "A"), ("version", .str "1"),
    ("properties", .list (properties.map .dict))]

theorem displayable_modeProperty : Displayable modeProperty where
  id := by simp [modeProperty, Fields.get?]
  combo _ := .inr ⟨_, rfl, .inr ⟨_, .inl rfl, by simp [IsDict]⟩⟩
  link := by simp [modeProperty, Fields.get?]

theorem displayable_homeProperty : Displayable homeProperty where
  id := by simp [homeProperty, Fields.get?]
  combo := by simp [homeProperty, Fields.get?]
  link _ := .inl rfl

/-- With both of them and the scripts that fail half way there are all documents. -/
theorem assembly_succeeds_withProperties :
    ∃ m c docs, Manifest.ofFields (withProperties [modeProperty, homeProperty]) = .ok m ∧
      m.properties = [modeProperty, homeProperty] ∧
      catalogue (Annotated.extractAll .empty failingScripts) = .ok c ∧
      localizations m (Annotated.extractAll .empty failingScripts) (fun _ => []) []
        ["en-US", "fr-FR", "en-US"] = .ok docs ∧ docs.keys = ["en-US", "fr-FR"] := by
  obtain ⟨m, hm, hproperties⟩ :
    ∃ m, Manifest.ofFields (withProperties [modeProperty, homeProperty]) = .ok m ∧
      m.properties = [modeProperty, homeProperty] := ⟨_, rfl, rfl⟩
  obtain ⟨⟨c, hc⟩, -, hdocs⟩ :=
    assembly_succeeds_iff hm failingScripts ["en-US", "fr-FR", "en-US"] []
    fun _ => []
  have hshown : ∀ p ∈ m.properties, Displayable p := by
    rw [hproperties, List.forall_mem_cons, List.forall_mem_singleton]
    exact ⟨displayable_modeProperty, displayable_homeProperty⟩
  obtain ⟨docs, hdocs, hkeys⟩ := hdocs.mpr (.inr hshown)
  exact ⟨m, c, docs, hm, hproperties, hc, hdocs, hkeys.trans (by decide)⟩

/-! ### An id that is a number -/

/-- A property with a number for an id is accepted, but there is no language file with it. -/
theorem numbered_property_accepted :
    ∃ m, Manifest.ofFields (withProperties [[("id", .int 5), ("name", .str "P")]]) = .ok m ∧
      localizations m (Annotated.extractAll .empty []) (fun _ => []) [] ["en-US"] =
        .error .noText :=
  ⟨_, rfl, rfl⟩

end Addon.Descriptor
