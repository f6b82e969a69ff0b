import Addon.Fields
import Mathlib.Data.List.Nodup

/-!
# Fields — laws of the ordered table

A table of named values keeps names in the order in which they were first put in. The laws say what
`insert` does to each view of a table: to the values (`get?_insert`), to the names (`keys_insert`)
and to everything that can be collected from the values (`flatMap_insert_perm`).
-/

namespace Addon.Fields

variable {α β : Type} {fs gs : Fields α} {name other : String} {f : String × α}

@[simp] theorem keys_nil : keys ([] : Fields α) = [] := rfl

@[simp] theorem keys_cons (f : String × α) (fs : Fields α) : keys (f :: fs) = f.1 :: keys fs := rfl

/-! ## Values -/

@[simp] theorem get?_nil (name : String) : get? ([] : Fields α) name = none := rfl

theorem get?_cons (f : String × α) (fs : Fields α) (name : String) :
    get? (f :: fs) name = if f.1 = name then some f.2 else get? fs name := rfl

/-- A name has no value exactly when it is not among the names. -/
theorem get?_eq_none_iff (fs : Fields α) (name : String) :
    fs.get? name = none ↔ name ∉ fs.keys := by
  induction fs with
  | nil => simp
  | cons f rest ih =>
    rw [get?_cons, keys_cons, List.mem_cons, not_or]
    split
    · next h => simp [h]
    · next h => rw [ih, and_iff_right (Ne.symm h)]

theorem mem_of_get? {a : α} (h : fs.get? name = some a) : (name, a) ∈ fs := by
  induction fs with
  | nil => cases h
  | cons f rest ih =>
    rw [get?_cons] at h
    split at h
    · next hname =>
      obtain rfl := Option.some.inj h
      rw [← hname]
      exact List.mem_cons_self
    · exact List.mem_cons_of_mem f (ih h)

/-- In a table without repeated names every entry is the value of its name. -/
theorem get?_of_mem (hnodup : fs.keys.Nodup) (hf : f ∈ fs) :
    fs.get? f.1 = some f.2 := by
  induction fs with
  | nil => simp at hf
  | cons g rest ih =>
    rw [keys_cons, List.nodup_cons] at hnodup
    obtain ⟨hg, hrest⟩ := hnodup
    rw [get?_cons]
    rcases List.mem_cons.mp hf with rfl | hmem
    · rw [if_pos rfl]
    · -- another entry of this name would repeat it
      have hne : g.1 ≠ f.1 := by
        intro heq
        rw [heq] at hg
        exact hg (List.mem_map_of_mem hmem)
      rw [if_neg hne, ih hrest hmem]

theorem get?_filter (keep : String → Bool) (fs : Fields α) (name : String) :
    get? (fs.filter fun f => keep f.1) name = if keep name then fs.get? name else none := by
  induction fs with
  | nil => simp
  | cons f rest ih =>
    rw [List.filter_cons, get?_cons]
    split <;> grind [get?_cons]

theorem get?_append (fs gs : Fields α) (name : String) :
    get? (fs ++ gs) name = (fs.get? name).or (gs.get? name) := by
  induction fs with
  | nil => simp
  | cons f rest ih => grind [get?_cons]

/-- The order of entries does not matter for the values, as long as no name is repeated. -/
theorem get?_perm (hnodup : fs.keys.Nodup) (h : fs.Perm gs) (name : String) :
    fs.get? name = gs.get? name := by
  have hkeys : fs.keys.Perm gs.keys := h.map _
  by_cases hname : name ∈ fs.keys
  · obtain ⟨f, hf, rfl⟩ := List.mem_map.mp hname
    rw [get?_of_mem hnodup hf, get?_of_mem (hkeys.nodup_iff.mp hnodup) (h.mem_iff.mp hf)]
  · rw [(get?_eq_none_iff fs name).mpr hname,
      (get?_eq_none_iff gs name).mpr fun hg => hname (hkeys.mem_iff.mpr hg)]

/-- After an insertion the name has the new value and all others keep theirs. -/
theorem get?_insert (fs : Fields α) (name other : String) (a : α) :
    (fs.insert name a).get? other = if name = other then some a else fs.get? other := by
  induction fs with
  | nil => rw [insert, get?_cons]
  | cons f rest ih =>
    rw [insert]
    split
    · next h =>
      subst h
      rw [get?_cons, get?_cons]
      split <;> rfl
    · next h =>
      rw [get?_cons, get?_cons, ih]
      split
      · next ho =>
        subst ho
        rw [if_neg (Ne.symm h)]
      · rfl

theorem get?_erase_of_ne (h : name ≠ other) :
    (fs.erase name).get? other = fs.get? other := by
  induction fs with
  | nil => rfl
  | cons f rest ih =>
    unfold erase at ih ⊢
    by_cases hf : f.1 = name
    · rw [List.filter_cons_of_neg (by simp [hf]), ih, get?_cons, if_neg (hf ▸ h)]
    · rw [List.filter_cons_of_pos (by simp [hf]), get?_cons, get?_cons, ih]

theorem get?_erase_self (fs : Fields α) (name : String) : (fs.erase name).get? name = none := by
  rw [get?_eq_none_iff, keys, List.mem_map]
  rintro ⟨f, hf, hname⟩
  simpa [hname] using (List.mem_filter.mp hf).2

/-! ## Names -/

/-- A new name goes to the end. -/
theorem insert_of_not_mem (a : α) (h : name ∉ fs.keys) :
    fs.insert name a = fs ++ [(name, a)] := by
  induction fs with
  | nil => rfl
  | cons f rest ih =>
    rw [keys_cons, List.mem_cons, not_or] at h
    rw [insert, if_neg (Ne.symm h.1), ih h.2, List.cons_append]

/-- A name that is there keeps its place. -/
theorem keys_insert (fs : Fields α) (name : String) (a : α) :
    (fs.insert name a).keys = if name ∈ fs.keys then fs.keys else fs.keys ++ [name] := by
  split
  · next h =>
    induction fs with
    | nil => simp at h
    | cons f rest ih =>
      rw [insert]
      split
      · next hf => simp [hf]
      · next hf =>
        rw [keys_cons, List.mem_cons] at h
        rw [keys_cons, keys_cons, ih (h.resolve_left (Ne.symm hf))]
  · next h =>
    rw [insert_of_not_mem a h]
    simp [keys]

theorem mem_keys_insert {a : α} :
    other ∈ (fs.insert name a).keys ↔ other = name ∨ other ∈ fs.keys := by
  rw [keys_insert]
  split <;> grind

/-- An insertion repeats no name. -/
theorem nodup_keys_insert (name : String) (a : α) (h : fs.keys.Nodup) :
    (fs.insert name a).keys.Nodup := by
  rw [keys_insert]
  split
  · exact h
  · next hnew =>
    rw [← List.concat_eq_append]
    exact h.concat hnew

/-- What is in a table after an insertion was there before or is new. -/
theorem mem_of_mem_insert {a : α} (h : f ∈ fs.insert name a) : f ∈ fs ∨ f = (name, a) := by
  induction fs with
  | nil => exact .inr (List.mem_singleton.mp h)
  | cons g rest ih =>
    rw [insert] at h
    split at h
    · rcases List.mem_cons.mp h with rfl | h
      · exact .inr rfl
      · exact .inl (List.mem_cons_of_mem g h)
    · rcases List.mem_cons.mp h with rfl | h
      · exact .inl List.mem_cons_self
      · exact (ih h).imp_left (List.mem_cons_of_mem g)

/-- What holds of the fields of two tables holds of those of the merged one. -/
theorem forall_mem_merge {P : String × α → Prop} (hfs : ∀ f ∈ fs, P f)
    (hgs : ∀ g ∈ gs, P g) : ∀ f ∈ fs.merge gs, P f := by
  induction gs generalizing fs with
  | nil => exact hfs
  | cons g rest ih =>
    rw [List.forall_mem_cons] at hgs
    refine ih (fun f hf => ?_) hgs.2
    rcases mem_of_mem_insert hf with hf | rfl
    · exact hfs f hf
    · exact hgs.1

/-- A table of other names goes behind the first one as it is. -/
theorem merge_of_nodup (h : (fs.keys ++ gs.keys).Nodup) :
    fs.merge gs = fs ++ gs := by
  induction gs generalizing fs with
  | nil => exact (List.append_nil fs).symm
  | cons g rest ih =>
    have hg : g.1 ∉ fs.keys := by
      intro hmem
      exact (List.nodup_append.mp h).2.2 g.1 hmem g.1 List.mem_cons_self rfl
    have hinsert : fs.insert g.1 g.2 = fs ++ [g] := insert_of_not_mem g.2 hg
    have hrest : ((fs ++ [g]).keys ++ keys rest).Nodup := by
      simpa [keys] using h
    rw [merge, List.foldl_cons, hinsert, ← merge, ih hrest, List.append_assoc,
      List.singleton_append]

theorem mem_keys_merge :
    name ∈ (fs.merge gs).keys ↔ name ∈ fs.keys ∨ name ∈ gs.keys := by
  induction gs generalizing fs with
  | nil => simp [merge]
  | cons g rest ih =>
    rw [merge, List.foldl_cons, ← merge, ih, mem_keys_insert, keys_cons, List.mem_cons]
    tauto

theorem get?_merge_of_not_mem (h : name ∉ gs.keys) :
    (fs.merge gs).get? name = fs.get? name := by
  induction gs generalizing fs with
  | nil => rfl
  | cons g rest ih =>
    rw [keys_cons, List.mem_cons, not_or] at h
    rw [merge, List.foldl_cons, ← merge, ih h.2, get?_insert, if_neg (Ne.symm h.1)]

/-- The values of a table that is merged in take the place of others, if it repeats no name. -/
theorem get?_merge_of_mem {g : String × α} (hnodup : gs.keys.Nodup) (hg : g ∈ gs) :
    (fs.merge gs).get? g.1 = some g.2 := by
  induction gs generalizing fs with
  | nil => cases hg
  | cons first rest ih =>
    obtain ⟨hfirst, hrest⟩ := List.nodup_cons.mp hnodup
    rw [merge, List.foldl_cons, ← merge]
    rcases List.mem_cons.mp hg with rfl | hg
    · rw [get?_merge_of_not_mem hfirst, get?_insert, if_pos rfl]
    · exact ih hrest hg

/-- A merged table repeats a name only if the first one does. -/
theorem nodup_keys_merge (h : fs.keys.Nodup) : (fs.merge gs).keys.Nodup := by
  induction gs generalizing fs with
  | nil => exact h
  | cons g rest ih => exact ih (nodup_keys_insert g.1 g.2 h)

/-- Pairs with distinct names are a table already. -/
theorem ofList_of_nodup {pairs : List (String × α)} (h : (keys pairs).Nodup) :
    ofList pairs = pairs :=
  merge_of_nodup h

theorem ofList_append (pairs others : List (String × α)) :
    ofList (pairs ++ others) = (ofList pairs).merge others :=
  List.foldl_append

theorem insert_insert (fs : Fields α) (name : String) (a b : α) :
    (fs.insert name a).insert name b = fs.insert name b := by
  induction fs with
  | nil => simp [insert]
  | cons f rest ih => by_cases hf : f.1 = name <;> simp [insert, hf, ih]

theorem insert_comm (hname : name ∈ fs.keys) (hne : name ≠ other) (a b : α) :
    (fs.insert other b).insert name a = (fs.insert name a).insert other b := by
  induction fs with
  | nil => cases hname
  | cons f rest ih => grind [insert, keys_cons]

/-- A value can be replaced before other names are put in. -/
theorem merge_insert_of_mem (hname : name ∈ fs.keys) (hgs : name ∉ gs.keys) (a : α) :
    (fs.merge gs).insert name a = (fs.insert name a).merge gs := by
  induction gs generalizing fs with
  | nil => rfl
  | cons g rest ih =>
    rw [keys_cons, List.mem_cons, not_or] at hgs
    have hmem : name ∈ (fs.insert g.1 g.2).keys := mem_keys_insert.mpr (.inr hname)
    have hrest := ih hmem hgs.2
    rw [insert_comm hname hgs.1] at hrest
    exact hrest

theorem merge_insert (hnodup : gs.keys.Nodup) (fs : Fields α) (name : String) (a : α) :
    fs.merge (gs.insert name a) = (fs.merge gs).insert name a := by
  induction gs generalizing fs with
  | nil => rfl
  | cons g rest ih =>
    obtain ⟨hg, hrest⟩ := List.nodup_cons.mp hnodup
    rw [insert]
    split
    · next hname =>
      subst hname
      have hmem : g.1 ∈ (fs.insert g.1 g.2).keys := mem_keys_insert.mpr (.inl rfl)
      have hreplace := merge_insert_of_mem hmem hg a
      rw [insert_insert] at hreplace
      exact hreplace.symm
    · exact ih hrest _

theorem merge_merge (hnodup : gs.keys.Nodup) (fs hs : Fields α) :
    fs.merge (gs.merge hs) = (fs.merge gs).merge hs := by
  induction hs generalizing gs with
  | nil => rfl
  | cons h rest ih =>
    have hinsert := ih (nodup_keys_insert h.1 h.2 hnodup)
    rw [merge_insert hnodup] at hinsert
    exact hinsert

/-- Pairs can be put into a table one by one, or all together as a table of their own. -/
theorem merge_ofList (fs : Fields α) (pairs : List (String × α)) :
    fs.merge (ofList pairs) = fs.merge pairs :=
  @merge_merge α [] List.nodup_nil fs pairs

/-- Of pairs with the same name the last one counts. -/
theorem get?_ofList_of_last {before after : List (String × α)} (h : f.1 ∉ keys after) :
    (ofList (before ++ f :: after)).get? f.1 = some f.2 := by
  rw [ofList_append]
  change (merge ((ofList before).insert f.1 f.2) after).get? f.1 = _
  rw [get?_merge_of_not_mem h, get?_insert, if_pos rfl]

@[simp] theorem keys_mapValues (f : α → β) (fs : Fields α) : (fs.mapValues f).keys = fs.keys := by
  simp [mapValues, keys]

theorem get?_mapValues (g : α → β) (fs : Fields α) (name : String) :
    (fs.mapValues g).get? name = (fs.get? name).map g := by
  induction fs with
  | nil => rfl
  | cons f rest ih =>
    rw [get?_cons, apply_ite (Option.map g), Option.map_some, ← ih]
    rfl

theorem mapValues_insert (f : α → β) (fs : Fields α) (name : String) (a : α) :
    (fs.insert name a).mapValues f = (fs.mapValues f).insert name (f a) := by
  induction fs with
  | nil => rfl
  | cons g rest ih =>
    rw [insert]
    split
    · next h => simp [mapValues, insert, h]
    · next h =>
      change (g.1, f g.2) :: mapValues f (insert rest name a) =
        insert ((g.1, f g.2) :: mapValues f rest) name (f a)
      rw [ih, insert, if_neg h]

theorem mapValues_merge (f : α → β) (fs gs : Fields α) :
    (fs.merge gs).mapValues f = (fs.mapValues f).merge (gs.mapValues f) := by
  induction gs generalizing fs with
  | nil => rfl
  | cons g rest ih =>
    have hrest := ih (fs.insert g.1 g.2)
    rw [mapValues_insert] at hrest
    exact hrest

/-- A function can be applied before or after pairs are made into a table. -/
theorem mapValues_ofList (f : α → β) (pairs : List (String × α)) :
    (ofList pairs).mapValues f = ofList (mapValues f pairs) :=
  mapValues_merge f [] pairs

/-- What is made of the values under some names can be made one by one. -/
theorem ofList_map {γ : Type} {name : γ → String} {plain : γ → α} {made : γ → β} {f : α → β}
    (h : ∀ c, made c = f (plain c)) (cs : List γ) :
    ofList (cs.map fun c => (name c, made c)) =
      (ofList (cs.map fun c => (name c, plain c))).mapValues f := by
  rw [mapValues_ofList]
  simp [mapValues, h, Function.comp_def]

/-! ## What is collected from the values

Let every value carry a list. If the new value of a name carries the list of the old one with
something behind it, then the whole table carries what it did, and this. -/

theorem flatMap_insert_perm (g : α → List β) (fs : Fields α) (name : String) (a missing : α)
    (extra : List β) (hmissing : g missing = [])
    (ha : g a = g ((fs.get? name).getD missing) ++ extra) :
    ((fs.insert name a).flatMap fun f => g f.2).Perm ((fs.flatMap fun f => g f.2) ++ extra) := by
  induction fs with
  | nil => simp [insert, ha, hmissing]
  | cons f rest ih =>
    rw [get?_cons] at ha
    rw [insert]
    split
    · next h =>
      -- the value is replaced here, so that its addition has to move behind the rest of the table
      rw [if_pos h, Option.getD_some] at ha
      rw [List.flatMap_cons, List.flatMap_cons, ha, List.append_assoc, List.append_assoc]
      exact List.perm_append_comm.append_left _
    · next h =>
      rw [if_neg h] at ha
      rw [List.flatMap_cons, List.flatMap_cons, List.append_assoc]
      exact (ih ha).append_left _

end Addon.Fields
