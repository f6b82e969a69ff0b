import Addon.Proofs.Descriptor.Totality

/-!
# Options — which options an entry of the catalogue has

The options of a method and of its parameters are free, so that an option can have the name of a
field that the entry of the method has itself. Then the field counts. The other options are in the
entry as they were given, but for those that are dropped.

## The architecture

* **`Fields.get?_merge`** — of two merged tables the second counts.
* **`recordFields`, `paramFields`** — the fields that do not come from options. An entry has these,
  and the options that are neither dropped nor named like them (`Shows`).
-/

namespace Addon.Fields

variable {α : Type}

theorem get?_merge {fs gs : Fields α} (h : gs.keys.Nodup) (name : String) :
    (fs.merge gs).get? name = (gs.get? name).or (fs.get? name) := by
  cases hname : gs.get? name with
  | none => exact get?_merge_of_not_mem ((get?_eq_none_iff gs name).mp hname)
  | some a => exact get?_merge_of_mem h (mem_of_get? hname)

theorem contains_eq_isSome (fs : Fields α) (name : String) :
    fs.contains name = (fs.get? name).isSome := by
  induction fs with
  | nil => rfl
  | cons f rest ih => by_cases hf : f.1 = name <;> simp_all [contains, get?_cons]

theorem nodup_keys_filter {fs : Fields α} (keep : String × α → Bool) (h : fs.keys.Nodup) :
    (keys (fs.filter keep)).Nodup :=
  h.sublist (List.filter_sublist.map _)

end Addon.Fields

namespace Addon.Descriptor

open Ace
open Annotated (SingleKeys)

/-! ## Fields and options -/

/-- An entry has some fields of its own, and of the options those that are not dropped
and have other names. -/
structure Shows (own options : Fields Value) (dropped : List String) (e : Entry) : Prop where
  nodup : options.keys.Nodup → e.keys.Nodup
  get? : ∀ key, e.get? key = (own.get? key).or (if key ∈ dropped then none else options.get? key)

/-- A field that need not be there. -/
def field (name : String) (v : Option Value) : Fields Value :=
  v.toList.map fun v => (name, v)

theorem get?_field (name key : String) (v : Option Value) :
    (field name v).get? key = if name = key then v else none := by
  cases v <;> simp [field, Fields.get?_cons]

/-- The fields of a parameter that do not come from its options. -/
def paramFields (p : Parameter) : Fields Value :=
  [("id", Value.str p.id), ("type", Value.str p.type)] ++ field "initialValue" p.initialValue ++
    field "items" (p.items.map fun items => Value.list ((items.flatMap Fields.keys).map Value.str))

/-- The fields of a method that do not come from its options. -/
def recordFields (r : Record) (params : List Entry) : Fields Value :=
  [("id", Value.str r.id), ("scriptName", Value.str r.id)] ++
    field "expressionName" (if r.kind = .expression then some (Value.str r.id) else none) ++
    [("params", Value.list (params.map Value.dict))] ++
      field "returnType" (r.returnType.map Value.str)

theorem mapM_itemKey {items : List (Fields Value)} (h : ∀ item ∈ items, ∃ field, item = [field]) :
    items.mapM itemKey = .ok ((items.flatMap Fields.keys).map .str) := by
  induction items with
  | nil => rfl
  | cons item rest ih =>
    obtain ⟨⟨field, rfl⟩, hrest⟩ := List.forall_mem_cons.mp h
    exact mapM_cons_eq_ok.mpr ⟨_, _, rfl, ih hrest, rfl⟩

/-- A parameter puts its fields over its options. -/
theorem fields_eq_merge (p : Parameter) :
    p.fields = p.extra.merge
      ([("id", Value.str p.id), ("name", p.name), ("desc", p.desc), ("type", Value.str p.type)] ++
      field "items" (p.items.map fun items => Value.list (items.map Value.dict)) ++
      field "initialValue" p.initialValue) := by
  unfold Parameter.fields
  cases p.items <;> cases p.initialValue <;> rfl

theorem shows_paramEntry {p : Parameter} (hitems : SingleKeys p) :
    ∃ e, paramEntry p = .ok e ∧ Shows (paramFields p) p.extra displayKeys e := by
  have hnodup (h : p.extra.keys.Nodup) :
      (Fields.keys (p.fields.filter fun f => !displayKeys.contains f.1)).Nodup :=
    Fields.nodup_keys_filter _ (fields_eq_merge p ▸ Fields.nodup_keys_merge h)
  have hkept := Fields.get?_filter (fun name => !displayKeys.contains name) p.fields
  have hfields (key : String) : p.fields.get? key = _ :=
    (congrArg (Fields.get? · key) (fields_eq_merge p)).trans
    (Fields.get?_merge (by cases p.items <;> cases p.initialValue <;> simp [field]) key)
  unfold paramEntry paramFields
  cases hi : p.items with
  | none =>
    refine ⟨_, rfl, hnodup, fun key => ?_⟩
    rw [hkept, hfields, hi]
    simp only [Fields.get?_append, get?_field, Fields.get?_cons, Fields.get?_nil, displayKeys]
    grind
  | some items =>
    refine ⟨_, by simp only [mapM_itemKey (hitems items hi)]; rfl,
      fun hextra => Fields.nodup_keys_insert _ _ (hnodup hextra), fun key => ?_⟩
    rw [Fields.get?_insert, hkept, hfields, hi]
    simp only [Fields.get?_append, get?_field, Fields.get?_cons, Fields.get?_nil, displayKeys]
    grind

theorem nameFields_eq (r : Record) :
    nameFields r = [("id", Value.str r.id), ("scriptName", Value.str r.id)] ++
    field "expressionName" (if r.kind = .expression then some (Value.str r.id) else none) := by
  unfold nameFields
  split <;> rfl

/-- A method puts its fields over its options. -/
theorem recordFields_eq_merge (r : Record) :
    r.fields = r.overrides.merge ([("id", Value.str r.id), ("displayText", Value.str r.displayText),
      ("listName", r.listName), ("category", Value.str r.category),
      ("params", Value.list (r.params.map fun p => Value.dict p.fields)),
      ("description", r.description)] ++
      field "returnType" (r.returnType.map Value.str)) := by
  unfold Record.fields
  cases r.returnType <;> rfl

theorem shows_entry {r : Record} {params : List Entry}
    (hparams : r.params.mapM paramEntry = .ok params) :
    ∃ e, entry r = .ok e ∧ Shows (recordFields r params) r.overrides droppedKeys e := by
  refine ⟨_, by rw [entry, hparams]; rfl, fun hoverrides => ?_, fun key => ?_⟩
  · have hnames : (nameFields r).keys.Nodup ∧ "params" ∉ (nameFields r).keys := by
      rw [nameFields_eq]
      split <;> simp [Fields.keys, field]
    have hothers :=
      Fields.nodup_keys_filter (fun f => !droppedKeys.contains f.1 && !(nameFields r).contains f.1)
      (recordFields_eq_merge r ▸ Fields.nodup_keys_merge hoverrides)
    have hkept : ∀ name ∈
        Fields.keys (r.fields.filter fun f => !droppedKeys.contains f.1 &&
          !(nameFields r).contains f.1),
        name ∉ droppedKeys ∧ name ∉ (nameFields r).keys := by
      intro name hname
      obtain ⟨f, hf, rfl⟩ := List.mem_map.mp hname
      simpa [Fields.contains_eq_isSome, Fields.get?_eq_none_iff] using (List.mem_filter.mp hf).2
    -- three parts: the names, the other fields, and the parameters, which are
    -- among the dropped keys
    rw [Fields.keys, List.map_append, List.map_append]
    refine (hnames.1.append hothers fun name hname hother =>
      (hkept name hother).2 hname).append (by simp) ?_
    rintro name hname hparams
    obtain rfl : name = "params" := List.mem_singleton.mp hparams
    rcases List.mem_append.mp hname with hname | hname
    · exact hnames.2 hname
    · exact (hkept _ hname).1 (by decide)
  · rw [Fields.get?_append, Fields.get?_append,
      Fields.get?_filter fun name => !droppedKeys.contains name && !(nameFields r).contains name,
      Fields.contains_eq_isSome, recordFields_eq_merge,
      Fields.get?_merge (by cases r.returnType <;> simp [field]), nameFields_eq, recordFields]
    simp only [Fields.get?_append, get?_field, Fields.get?_cons, Fields.get?_nil, droppedKeys]
    grind

theorem forall₂_mapM {ε α β : Type} {f : α → Except ε β} {R : α → β → Prop} {as : List α}
    (h : ∀ a ∈ as, ∃ b, f a = .ok b ∧ R a b) : ∃ bs, as.mapM f = .ok bs ∧ List.Forall₂ R as bs := by
  induction as with
  | nil => exact ⟨[], rfl, .nil⟩
  | cons a as ih =>
    obtain ⟨⟨b, hb, hR⟩, hrest⟩ := List.forall_mem_cons.mp h
    obtain ⟨bs, hbs, hall⟩ := ih hrest
    exact ⟨b :: bs, mapM_cons_eq_ok.mpr ⟨b, bs, hb, hbs, rfl⟩, .cons hR hall⟩

/-- **Options neither replace fields of the catalogue nor get lost.** Every record whose choices
have one key each has an entry, with its own fields, those options that are not dropped and have
other names, and nothing else. Among its fields is the list of its parameters in order, and the same
holds of each of these. -/
theorem entry_shows_options {r : Record} (hitems : ∀ p ∈ r.params, SingleKeys p) :
    ∃ e params, entry r = .ok e ∧ Shows (recordFields r params) r.overrides droppedKeys e ∧
      List.Forall₂ (fun p => Shows (paramFields p) p.extra displayKeys) r.params params := by
  obtain ⟨params, hparams, hshows⟩ := forall₂_mapM fun p hp => shows_paramEntry (hitems p hp)
  obtain ⟨e, he, hentry⟩ := shows_entry hparams
  exact ⟨e, params, he, hentry, hshows⟩

/-- Many of its options have names of fields, and one is dropped. -/
def clashingRecord : Record :=
  { id := "f", kind := .expression, category := "general", displayText := "F", listName := .str "F"
    params := [{
      id := "a", name := .str "A", items := some [[("k", .str "K")], [("l", .null)]]
      extra := [("items", .null), ("type", .null), ("unit", .str "m")] }]
    overrides := [("params", .null), ("expressionName", .null), ("handler", .null),
      ("isStatic", .bool true)] }

theorem entry_shows_options_clashing :
    (∀ p ∈ clashingRecord.params, SingleKeys p) ∧
    ∃ e params, entry clashingRecord = .ok e ∧
      Shows (recordFields clashingRecord params) clashingRecord.overrides droppedKeys e ∧
      List.Forall₂ (fun p => Shows (paramFields p) p.extra displayKeys) clashingRecord.params
        params := by
  have hitems : ∀ p ∈ clashingRecord.params, SingleKeys p := by
    simp [clashingRecord, SingleKeys]
  exact ⟨hitems, entry_shows_options hitems⟩

end Addon.Descriptor
