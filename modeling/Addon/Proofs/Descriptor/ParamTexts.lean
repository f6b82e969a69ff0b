import Addon.Proofs.Descriptor.Totality

/-!
# ParamTexts — which parameters keep their texts

The catalogue lists the parameters of a method, and a language file holds their texts under
their ids. The ids are free to choose, and nobody asks whether two of a method are the same.
So the list can have an id twice, and then the language file has the texts of the last
parameter with this id only.

## The architecture

* **`Fields.keys_ofList`** — the names of a table of pairs, once each. Of the pairs with one name it
  has the last (`Fields.get?_ofList_of_last`).
* **`get?_params_entry`** — what the catalogue says about the parameters of a record;
  `exists_mem_catalogueOf` finds the entry of a record.
* **`partAt_params`** — what a language file says about them. It takes the records to have distinct
  ids, which is where the registry comes in.
-/

namespace Addon.Fields

variable {α : Type}

/-! ## Tables of pairs -/

/-- The names of a table, in the order of their first mention. -/
theorem keys_ofList (pairs : List (String × α)) : (ofList pairs).keys = (keys pairs).eraseDups := by
  induction pairs using List.reverseRecOn with
  | nil => rfl
  | append_singleton init f ih =>
    have hkeys : keys (init ++ [f]) = keys init ++ [f.1] := by simp [keys]
    have hstep : (ofList (init ++ [f])).keys = ((ofList init).insert f.1 f.2).keys := by
      rw [ofList_append]
      rfl
    rw [hstep, keys_insert, hkeys, Ace.Registry.eraseDups_append_singleton, ih]
    simp only [List.mem_eraseDups]

end Addon.Fields

namespace Addon.Descriptor

open Ace

/-! ## The catalogue -/

/-- A parameter has its id among its fields, whatever the further options are. -/
theorem get?_id_fields (p : Parameter) : p.fields.get? "id" = some (.str p.id) := by
  unfold Parameter.fields
  split <;> split <;> simp [Fields.merge, Fields.get?_insert]

theorem get?_id_paramEntry {p : Parameter} {e : Entry} (h : paramEntry p = .ok e) :
    Fields.get? e "id" = some (.str p.id) := by
  have hkept : Fields.get? (p.fields.filter fun f => !displayKeys.contains f.1) "id" =
      some (.str p.id) := by
    rw [Fields.get?_filter fun name => !displayKeys.contains name, if_pos (by decide),
      get?_id_fields]
  unfold paramEntry at h
  split at h
  · obtain ⟨keys, -, h⟩ := bind_eq_ok.mp h
    obtain rfl := Except.ok.inj h
    rw [Fields.get?_insert, if_neg (by decide), hkept]
  · obtain rfl := Except.ok.inj h
    exact hkept

/-- The entry of a record lists its parameters by their ids, in order. -/
theorem get?_params_entry {r : Record} {e : Entry} (h : entry r = .ok e) :
    ∃ params : List Entry, Fields.get? e "params" = some (.list (params.map .dict)) ∧
      params.map (fun p => Fields.get? p "id") = r.params.map fun p => some (.str p.id) := by
  obtain ⟨params, hparams, h⟩ := bind_eq_ok.mp h
  obtain rfl := Except.ok.inj h
  refine ⟨params, ?_, map_eq_of_mapM (fun p e he => get?_id_paramEntry he) hparams⟩
  -- neither the names nor the other fields go by this name
  have hnames : Fields.get? (nameFields r) "params" = none := by
    unfold nameFields
    split <;> rfl
  have hothers :=
    Fields.get?_filter (fun name => !droppedKeys.contains name && !(nameFields r).contains name)
    r.fields "params"
  rw [Fields.get?_append, Fields.get?_append, hnames, hothers]
  rfl

/-- The catalogue has an entry for each record. -/
theorem exists_mem_catalogueOf {categories : Fields Bucket} {c : Catalogue}
    (h : catalogueOf categories = .ok c)
    {kind : Kind} {record : Record} (hrecord : record ∈ categories.flatMap fun b => b.2.get kind) :
    ∃ category ∈ c, ∃ e ∈ category.2.get kind, entry record = .ok e := by
  induction categories generalizing c with
  | nil => cases hrecord
  | cons b rest ih =>
    simp only [catalogueOf, bucketEntries, bind_eq_ok] at h
    obtain ⟨entries, ⟨actions, hactions, conditions, hconditions, expressions, hexpressions, hb⟩,
      others, hrest, h⟩ := h
    obtain rfl := Except.ok.inj hb
    obtain rfl := Except.ok.inj h
    rw [List.flatMap_cons, List.mem_append] at hrecord
    rcases hrecord with hrecord | hrecord
    · refine ⟨_, List.mem_cons_self, ?_⟩
      cases kind with
      | action => exact exists_mem_of_mapM hactions hrecord
      | condition => exact exists_mem_of_mapM hconditions hrecord
      | expression => exact exists_mem_of_mapM hexpressions hrecord
    · obtain ⟨category, hcategory, he⟩ := ih hrest hrecord
      exact ⟨category, List.mem_cons_of_mem _ hcategory, he⟩

/-! ## Language files -/

theorem get?_recordTexts {α : Type} (texts : Record → α) {records : List Record} {record : Record}
    (hnodup : (records.map (·.id)).Nodup) (hrecord : record ∈ records) :
    (recordTexts texts records).get? record.id = some (texts record) := by
  have hkeys : Fields.keys (records.map fun r => (r.id, texts r)) = records.map (·.id) := by
    simp [Fields.keys]
  exact Fields.get?_merge_of_mem (by rwa [hkeys]) (List.mem_map_of_mem hrecord)

/-- A language file holds the texts of the parameters of a record. -/
theorem partAt_params {m : Manifest} {r : Registry} {tag : String} {table : Lexicon.Table}
    {l : Localization} {v : Value} (hl : localization m r tag table = .ok l)
    (hv : l.toValue = .ok v) {kind : Kind} {record : Record}
    (hnodup : ((r.flattened kind).map (·.id)).Nodup) (hrecord : record ∈ r.flattened kind) :
    partAt v (l.rootWay ++ [kind.plural, record.id, "params"]) =
      some (paramsValue (paramsTexts table record.params)) := by
  obtain ⟨properties, -, hl⟩ := bind_eq_ok.mp hl
  obtain rfl := Except.ok.inj hl
  obtain ⟨labels, -, hv⟩ := bind_eq_ok.mp hv
  obtain rfl := Except.ok.inj hv
  cases kind <;>
    simp [Localization.rootWay, partAt, Fields.get?, Kind.plural, Fields.get?_mapValues,
      get?_recordTexts _ hnodup hrecord, MethodTexts.toValue, methodTexts, ExpressionTexts.toValue,
      expressionTexts]

theorem paramsValue_paramsTexts (table : Lexicon.Table) (params : List Parameter) :
    paramsValue (paramsTexts table params) =
      .dict (Fields.ofList (params.map fun p => (p.id, (paramTexts table p).toValue))) := by
  rw [paramsValue, paramsTexts, Fields.mapValues_ofList, Fields.mapValues, List.map_map]
  rfl

/-- **The texts of parameters stand under their ids, and of those with one id only the last keeps
its texts.** The catalogue lists all parameters of a record, by their ids and in order. A language
file has an entry for each id. The entries are the texts of the parameters, one for each, exactly
when no two of them share an id. -/
theorem texts_of_last_param (scripts : List (String × String)) {m : Manifest} {tag : String}
    {table : Lexicon.Table} {l : Localization} {v : Value}
    (hl : localization m (Annotated.extractAll .empty scripts) tag table = .ok l)
    (hv : l.toValue = .ok v) {kind : Kind} {record : Record}
    (hrecord : record ∈ (Annotated.extractAll .empty scripts).flattened kind) :
    (∃ c, catalogue (Annotated.extractAll .empty scripts) = .ok c ∧
      ∃ category ∈ c, ∃ e ∈ category.2.get kind,
      Fields.get? e "id" = some (.str record.id) ∧ ∃ params : List Entry,
        Fields.get? e "params" = some (.list (params.map .dict)) ∧
        params.map (fun p => Fields.get? p "id") = record.params.map fun p => some (.str p.id)) ∧
    ∃ texts : Fields Value, partAt v (l.rootWay ++ [kind.plural, record.id, "params"]) =
      some (.dict texts) ∧
      texts.keys = (record.params.map (·.id)).eraseDups ∧
      (∀ before p after, record.params = before ++ p :: after → (∀ q ∈ after, q.id ≠ p.id) →
        texts.get? p.id = some (paramTexts table p).toValue) ∧
      (texts = record.params.map (fun p => (p.id, (paramTexts table p).toValue)) ↔
        (record.params.map (·.id)).Nodup) := by
  obtain ⟨done, hcons⟩ := Annotated.consistent_extractAll scripts
  constructor
  · obtain ⟨c, hc⟩ := exists_catalogue scripts
    obtain ⟨category, hcategory, e, he, hentry⟩ := exists_mem_catalogueOf hc hrecord
    exact ⟨c, hc, category, hcategory, e, he, get?_id_entry hentry, get?_params_entry hentry⟩
  · have hpart := partAt_params hl hv (hcons.flattened_nodup kind) hrecord
    rw [paramsValue_paramsTexts] at hpart
    have hkeys : Fields.keys (record.params.map fun p => (p.id, (paramTexts table p).toValue)) =
        record.params.map (·.id) := by
      simp [Fields.keys]
    refine ⟨_, hpart, by rw [Fields.keys_ofList, hkeys], ?_, ?_⟩
    · intro before p after hparams hlast
      rw [hparams, List.map_append, List.map_cons]
      exact Fields.get?_ofList_of_last (by simpa [Fields.keys] using hlast)
    · -- a table never has a name twice, so it is the list of pairs only if that has none twice
      rw [← hkeys]
      exact ⟨fun h => h ▸ Fields.nodup_keys_merge List.nodup_nil, Fields.ofList_of_nodup⟩

/-! ### Two parameters with one id -/

/-- A method with two parameters, the first of which goes by the name of the second. -/
def sharedScripts : List (String × String) :=
  [("@AceClass\nclass A:\n @Action\n def f(s,a:Param(id='b',name='A'),b):0\n", "a.py")]

def sharedRecord : Record :=
  { id := "f", kind := .action, category := "general", displayText := "F (\x7b0\x7d, \x7b1\x7d)",
    listName := .str "F"
    params := [{ id := "b", name := .str "A" }, { id := "b", name := .str "B" }] }

set_option maxRecDepth 10000 in
theorem parseModule_sharedScript :
    Script.parseModule "@AceClass\nclass A:\n @Action\n def f(s,a:Param(id='b',name='A'),b):0\n" =
      .ok ⟨[Annotated.classStmt 1 ⟨4, 38⟩ "A" [Annotated.actionStmt 4 37 "f"
        [⟨⟨⟨4, 9⟩, ⟨4, 33⟩⟩, "a",
            some (.call ⟨⟨4, 11⟩, ⟨4, 33⟩⟩ (.name ⟨⟨4, 11⟩, ⟨4, 16⟩⟩ "Param") []
              [⟨"id", .constant ⟨⟨4, 20⟩, ⟨4, 23⟩⟩ (.str "b" false)⟩,
              ⟨"name", .constant ⟨⟨4, 29⟩, ⟨4, 32⟩⟩ (.str "A" false)⟩])⟩,
          ⟨⟨⟨4, 34⟩, ⟨4, 35⟩⟩, "b", none⟩] []]]⟩ :=
  Script.parseModule_of_tokens
    (Annotated.classTokens 1 4 "A" (Annotated.actionTokens 4 37 "f"
      [Script.tokenAt 4 8 1 (.op ","), Script.tokenAt 4 9 1 (.name "a" true),
        Script.tokenAt 4 10 1 (.op ":"),
        Script.tokenAt 4 11 5 (.name "Param" true), Script.tokenAt 4 16 1 (.op "("),
        Script.tokenAt 4 17 2 (.name "id" true), Script.tokenAt 4 19 1 (.op "="),
        Script.tokenAt 4 20 3 (.quoted ⟨false, false, false, false, ['b']⟩),
        Script.tokenAt 4 23 1 (.op ","),
        Script.tokenAt 4 24 4 (.name "name" true), Script.tokenAt 4 28 1 (.op "="),
        Script.tokenAt 4 29 3 (.quoted ⟨false, false, false, false, ['A']⟩),
        Script.tokenAt 4 32 1 (.op ")"),
        Script.tokenAt 4 33 1 (.op ","), Script.tokenAt 4 34 1 (.name "b" true)]) ++
      [Script.tokenAt 5 0 0 .finish])
    (by decide +kernel) (by rfl)

set_option maxRecDepth 100000 in
theorem extractAll_sharedScripts :
    Annotated.extractAll .empty sharedScripts =
      { categories := [("general", ⟨[sharedRecord], [], []⟩)]
        dispatch := ⟨[("f", ⟨"A", "f"⟩)], [], []⟩
        owners := ⟨[("f", "a.py")], [], []⟩ } := by
  simp only [sharedScripts, Annotated.extractAll_cons,
    Annotated.extract_of_prepared parseModule_sharedScript rfl]
  cbv

def sharedManifest : Manifest :=
  { bareManifest with categories := [] }

/-- Both parameters are listed under one id, which has the texts of the second. -/
theorem texts_of_last_param_shared :
    ∃ l v texts,
      localization sharedManifest (Annotated.extractAll .empty sharedScripts) "en-US" [] = .ok l ∧
      l.toValue = .ok v ∧
        sharedRecord ∈ (Annotated.extractAll .empty sharedScripts).flattened .action ∧
      partAt v (l.rootWay ++ ["actions", "f", "params"]) = some (.dict texts) ∧
        Fields.keys texts = ["b"] ∧
      Fields.get? texts "b" = some (paramTexts [] { id := "b", name := .str "B" }).toValue ∧
      texts ≠ sharedRecord.params.map fun p => (p.id, (paramTexts [] p).toValue) := by
  obtain ⟨l, v, hl, hv⟩ :
    ∃ l v, localization sharedManifest (Annotated.extractAll .empty sharedScripts) "en-US" [] =
      .ok l ∧ l.toValue = .ok v := by
    rw [extractAll_sharedScripts]
    exact ⟨_, _, rfl, rfl⟩
  have hrecord : sharedRecord ∈ (Annotated.extractAll .empty sharedScripts).flattened .action := by
    rw [extractAll_sharedScripts]
    exact List.mem_cons_self
  obtain ⟨-, texts, hpart, hkeys, hlast, hiff⟩ := texts_of_last_param sharedScripts hl hv hrecord
  refine ⟨l, v, texts, hl, hv, hrecord, hpart, hkeys.trans (by decide),
    hlast [_] _ [] rfl (by simp), ?_⟩
  exact fun h => absurd (hiff.mp h) (by decide)

/-- The name that is given to the first parameter is nowhere among the texts of the method. -/
theorem shared_id_loses_text :
    ∃ record ∈ (Annotated.extractAll .empty sharedScripts).flattened .action,
      record.params.map (fun p => (p.id, p.name)) = [("b", .str "A"), ("b", .str "B")] ∧
      ∃ l v, localization sharedManifest (Annotated.extractAll .empty sharedScripts) "en-US" [] =
        .ok l ∧
        l.toValue = .ok v ∧ partAt v (l.rootWay ++ ["actions", "f", "params"]) =
          some (.dict [("b", .dict [("name", .str "B"), ("desc", .str "")])]) := by
  rw [extractAll_sharedScripts]
  exact ⟨sharedRecord, List.mem_cons_self, rfl, _, _, rfl, rfl, rfl⟩

end Addon.Descriptor
