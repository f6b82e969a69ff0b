import Addon.Ace.Registry
import Addon.Proofs.Fields

/-!
# The registry — one invariant for three tables

A registry keeps its records three times over: grouped by category and kind, as a table from ids to
methods, and as a table from ids to modules. Each registration changes all three.

## The architecture

* **`Registration`** — the arguments of one call. A run is a list of them, which goes on behind
  calls that fail (`attemptAll`). `accepted` lists the calls that succeed.
* **`register_cases`** — what a call can do: it succeeds, or it fails and
  leaves the registry as it was.
* **`Tracks`** — the invariant. It describes every table as a function of the accepted calls, in
  their order, so that nothing has to be said about how the tables relate to each other.
* **`tracks_register`** — the step: a registration that succeeds adds one call to the list.
* **`tracks_attemptAll`** — the run, by induction on the calls.
* **`Consistent`** — what the tables have to do with each other, read off `Tracks`.
-/

namespace Addon.Ace

variable {r : Registry}

/-! ## Kinds -/

namespace ByKind

variable {α : Type}

@[simp] theorem get_const (a : α) (kind : Kind) : (const a).get kind = a := by
  cases kind <;> rfl

theorem get_set (t : ByKind α) (kind other : Kind) (a : α) :
    (t.set kind a).get other = if kind = other then a else t.get other := by
  cases kind <;> cases other <;> rfl

end ByKind

/-! ## Runs -/

/-- What is given to a registration. -/
structure Registration where
  record : Record
  ref : MethodRef
  moduleName : String

namespace Registration

/-- What may be registered once only. -/
def key (c : Registration) : Kind × String :=
  (c.record.kind, c.record.id)

/-- The registrations of a kind. -/
def ofKind (calls : List Registration) (kind : Kind) : List Registration :=
  calls.filter fun c => c.record.kind = kind

/-- The registrations of a kind in a category. -/
def inBucket (calls : List Registration) (category : String) (kind : Kind) : List Registration :=
  calls.filter fun c => c.record.category = category ∧ c.record.kind = kind

end Registration

open Registration

namespace Registry

/-- The registry after a call, whether that succeeds or not. -/
def attempt (r : Registry) (c : Registration) : Registry :=
  match register c.record c.ref c.moduleName r with
  | .ok _ next => next
  | .error _ after => after

/-- The registry after a run of calls, which goes on behind failures. -/
def attemptAll (r : Registry) (calls : List Registration) : Registry :=
  calls.foldl attempt r

/-- The calls of a run that succeed. -/
def accepted (r : Registry) : List Registration → List Registration
  | [] => []
  | c :: rest =>
    match register c.record c.ref c.moduleName r with
    | .ok _ next => c :: next.accepted rest
    | .error _ after => after.accepted rest

/-! ## The invariant -/

/-- Among first occurrences the last item shows only if it is new. -/
theorem eraseDups_append_singleton (names : List String) (name : String) :
    (names ++ [name]).eraseDups =
      if name ∈ names then names.eraseDups else names.eraseDups ++ [name] := by
  rw [List.eraseDups_append, List.removeAll, List.filter_singleton]
  by_cases h : name ∈ names <;> simp [h, List.eraseDups_cons]

/-- The tables of a registry in terms of the calls that succeeded, in their order. -/
structure Tracks (r : Registry) (done : List Registration) : Prop where
  distinct : (done.map key).Nodup
  owners : ∀ kind, r.owners.get kind = (ofKind done kind).map fun c => (c.record.id, c.moduleName)
  dispatch : ∀ kind, r.dispatch.get kind = (ofKind done kind).map fun c => (c.record.id, c.ref)
  categories : r.categories.keys = (done.map (·.record.category)).eraseDups
  nodup : r.categories.keys.Nodup
  bucket : ∀ category kind,
    (r.bucket category).get kind = (inBucket done category kind).map (·.record)
  flattened : ∀ kind, (r.flattened kind).Perm ((ofKind done kind).map (·.record))

theorem tracks_empty : Tracks empty [] where
  distinct := List.nodup_nil
  owners kind := by simp [empty, ofKind]
  dispatch kind := by simp [empty, ofKind]
  categories := rfl
  nodup := List.nodup_nil
  bucket category kind := by simp [empty, Registry.bucket, inBucket]
  flattened kind := by simp [empty, Registry.flattened, ofKind]

variable {done : List Registration}

/-- An id is owned exactly when a record of the kind was registered under it. -/
theorem Tracks.mem_owners_keys (h : r.Tracks done) (kind : Kind) (id : String) :
    id ∈ (r.owners.get kind).keys ↔ (kind, id) ∈ done.map key := by
  rw [h.owners]
  simp only [Fields.keys, List.map_map, List.mem_map, Function.comp_apply, ofKind, List.mem_filter,
    decide_eq_true_eq, key, Prod.mk.injEq]
  constructor
  · rintro ⟨c, ⟨hc, hkind⟩, hid⟩
    exact ⟨c, hc, hkind, hid⟩
  · rintro ⟨c, hc, hkind, hid⟩
    exact ⟨c, ⟨hc, hkind⟩, hid⟩

/-! ## What one registration does -/

/-- The two outcomes of a registration. The tables change only when the id is not owned yet. -/
theorem register_cases (r : Registry) (c : Registration) :
    (∃ owner, (r.owners.get c.record.kind).get? c.record.id = some owner ∧
      register c.record c.ref c.moduleName r =
        .error (.duplicate c.record.kind c.record.id owner) r) ∨
    (c.record.id ∉ (r.owners.get c.record.kind).keys ∧
      register c.record c.ref c.moduleName r = .ok ()
        { categories := r.append c.record
          dispatch := r.dispatch.set c.record.kind
            ((r.dispatch.get c.record.kind).insert c.record.id c.ref)
          owners := r.owners.set c.record.kind
            ((r.owners.get c.record.kind).insert c.record.id c.moduleName) }) := by
  have hget : (get : EStateM Violation Registry Registry) r = .ok r r := rfl
  cases h : (r.owners.get c.record.kind).get? c.record.id with
  | some owner =>
    refine .inl ⟨owner, rfl, ?_⟩
    simp only [register, bind, EStateM.bind, hget, h]
    rfl
  | none =>
    refine .inr ⟨(Fields.get?_eq_none_iff _ _).mp h, ?_⟩
    simp only [register, bind, EStateM.bind, hget, h]
    rfl

/-- A call that fails changes nothing. -/
theorem eq_of_register_error {after : Registry} {c : Registration} {v : Violation}
    (h : register c.record c.ref c.moduleName r = .error v after) : after = r := by
  rcases register_cases r c with ⟨owner, -, heq⟩ | ⟨-, heq⟩
  · exact (EStateM.Result.error.inj (h.symm.trans heq)).2
  · cases h.symm.trans heq

/-- A call fails exactly when its kind and id were registered before. -/
theorem Tracks.register_error_iff (h : r.Tracks done) (c : Registration) :
    (∃ v after, register c.record c.ref c.moduleName r = .error v after) ↔
      c.key ∈ done.map key := by
  rw [key, ← h.mem_owners_keys]
  rcases register_cases r c with ⟨owner, howner, heq⟩ | ⟨hnew, heq⟩
  · have hmem : c.record.id ∈ (r.owners.get c.record.kind).keys := by
      by_contra hnot
      rw [(Fields.get?_eq_none_iff _ _).mpr hnot] at howner
      contradiction
    simp [heq, hmem]
  · simp [heq, hnew]

/-- A new id goes to the end of the table of its kind; the tables of other kinds stay. The tables of
methods and of modules change alike, so the value is a parameter. -/
theorem get_set_insert {α : Type} (table : ByKind (Fields α)) (value : Registration → α)
    (done : List Registration) (c : Registration)
    (htable : ∀ kind, table.get kind = (ofKind done kind).map fun d => (d.record.id, value d))
    (hnew : c.record.id ∉ (table.get c.record.kind).keys) (kind : Kind) :
    (table.set c.record.kind ((table.get c.record.kind).insert c.record.id (value c))).get kind =
      (ofKind (done ++ [c]) kind).map fun d => (d.record.id, value d) := by
  rw [ByKind.get_set, Fields.insert_of_not_mem _ hnew]
  by_cases hkind : c.record.kind = kind
  · subst hkind
    simp [htable, ofKind]
  · simp [htable, ofKind, hkind]

/-- The record goes to the end of the bucket of its category and kind; all other buckets stay. -/
theorem bucket_append (r : Registry) (record : Record) (category : String) (kind : Kind) :
    (((r.append record).get? category).getD (.const [])).get kind =
      (r.bucket category).get kind ++
        if record.category = category ∧ record.kind = kind then [record] else [] := by
  rw [append, Fields.get?_insert]
  by_cases hcategory : record.category = category
  · subst hcategory
    by_cases hkind : record.kind = kind
    · subst hkind
      simp [ByKind.get_set]
    · simp [ByKind.get_set, hkind]
  · simp [hcategory, bucket]

/-- Read category by category, a kind gains the record somewhere in the middle. -/
theorem flattened_append (r : Registry) (record : Record) (kind : Kind) :
    ((r.append record).flatMap fun c => c.2.get kind).Perm
      (r.flattened kind ++ if record.kind = kind then [record] else []) := by
  refine Fields.flatMap_insert_perm (fun b => b.get kind) r.categories record.category _
    (.const []) _ (ByKind.get_const _ _) ?_
  rw [ByKind.get_set]
  by_cases hkind : record.kind = kind
  · subst hkind
    simp [bucket]
  · simp [hkind, bucket]

/-- **The step.** A registration that succeeds adds its call to the list. -/
theorem tracks_register {next : Registry} {c : Registration}
    (h : r.Tracks done) (hnext : register c.record c.ref c.moduleName r = .ok () next) :
    next.Tracks (done ++ [c]) := by
  have hkey : c.key ∉ done.map key := by
    intro hmem
    obtain ⟨v, after, hv⟩ := (h.register_error_iff c).mpr hmem
    rw [hv] at hnext
    contradiction
  rcases register_cases r c with ⟨owner, -, heq⟩ | ⟨hnew, heq⟩
  · rw [heq] at hnext
    contradiction
  · obtain ⟨-, rfl⟩ := EStateM.Result.ok.inj (heq.symm.trans hnext)
    -- the ids of the table of methods are those of the table of modules
    have hnewRef : c.record.id ∉ (r.dispatch.get c.record.kind).keys := by
      rw [h.owners] at hnew
      rw [h.dispatch]
      simpa [Fields.keys] using hnew
    exact {
      distinct := by
        rw [List.map_append, List.map_singleton, ← List.concat_eq_append]
        exact h.distinct.concat hkey
      owners := get_set_insert r.owners (·.moduleName) done c h.owners hnew
      dispatch := get_set_insert r.dispatch (·.ref) done c h.dispatch hnewRef
      categories := by
        rw [append, Fields.keys_insert, List.map_append, List.map_singleton,
          eraseDups_append_singleton, h.categories]
        simp only [List.mem_eraseDups]
      nodup := Fields.nodup_keys_insert _ _ h.nodup
      bucket := by
        intro category kind
        rw [bucket, bucket_append, h.bucket, inBucket, inBucket, List.filter_append,
          List.map_append]
        congr 1
        by_cases hin : c.record.category = category ∧ c.record.kind = kind <;> simp [hin]
      flattened := by
        intro kind
        rw [flattened]
        refine (flattened_append r c.record kind).trans ?_
        rw [ofKind, List.filter_append, List.map_append]
        refine (h.flattened kind).append ?_
        by_cases hkind : c.record.kind = kind <;> simp [hkind] }

/-- **The run.** The calls that a run accepts are added to the list, and no others. -/
theorem tracks_attemptAll (h : r.Tracks done)
    (calls : List Registration) : (r.attemptAll calls).Tracks (done ++ r.accepted calls) := by
  induction calls generalizing r done with
  | nil => simpa [attemptAll, accepted] using h
  | cons c rest ih =>
    rw [attemptAll, List.foldl_cons, attempt, accepted]
    cases hc : register c.record c.ref c.moduleName r with
    | ok _ next =>
      have hrest := ih (tracks_register h hc)
      rwa [List.append_assoc, List.singleton_append] at hrest
    | error v after => exact ih (eq_of_register_error hc ▸ h)

/-! ## What the tables have to do with each other -/

/-- The tables of a registry agree with each other and with the calls that succeeded. -/
structure Consistent (r : Registry) (done : List Registration) : Prop where
  /-- The owned ids of a kind are those of its records. -/
  owners_mem : ∀ kind id, id ∈ (r.owners.get kind).keys ↔ id ∈ (r.flattened kind).map (·.id)
  /-- The ids of a kind that lead to methods are those of its records. -/
  dispatch_mem : ∀ kind id, id ∈ (r.dispatch.get kind).keys ↔ id ∈ (r.flattened kind).map (·.id)
  /-- No two records of a kind share an id. -/
  flattened_nodup : ∀ kind, ((r.flattened kind).map (·.id)).Nodup
  /-- Every record is in the bucket of its own category and kind. -/
  record_place : ∀ c ∈ r.categories, ∀ kind, ∀ record ∈ c.2.get kind,
    record.category = c.1 ∧ record.kind = kind
  /-- No category is without records. -/
  bucket_nonempty : ∀ c ∈ r.categories, ∃ kind, c.2.get kind ≠ []
  /-- Categories stand once each, in the order of their first use. -/
  categories_order : r.categories.keys = (done.map (·.record.category)).eraseDups
  /-- The records of a bucket stand in the order of their registration. -/
  bucket_order : ∀ c ∈ r.categories, ∀ kind,
    c.2.get kind = (inBucket done c.1 kind).map (·.record)
  /-- The ids of a kind that lead to methods stand in the order of their registration. -/
  dispatch_order : ∀ kind,
    r.dispatch.get kind = (ofKind done kind).map fun c => (c.record.id, c.ref)
  /-- There are as many records as calls that succeeded. -/
  recordCount_eq : r.recordCount = done.length

/-- The ids of the records of a kind, in whatever order, are those of the calls. -/
theorem Tracks.ids_perm (h : r.Tracks done) (kind : Kind) :
    ((r.flattened kind).map (·.id)).Perm ((ofKind done kind).map (·.record.id)) := by
  have := (h.flattened kind).map (·.id)
  rwa [List.map_map] at this

/-- Among the calls of one kind the ids alone are distinct. -/
theorem Tracks.ids_nodup (h : r.Tracks done) (kind : Kind) :
    ((ofKind done kind).map (·.record.id)).Nodup := by
  have hkeys : ((ofKind done kind).map key).Nodup :=
    h.distinct.sublist (List.filter_sublist.map key)
  rw [List.Nodup, List.pairwise_map] at hkeys ⊢
  refine hkeys.imp_of_mem ?_
  intro c d hc hd hne hid
  have hkinds : c.record.kind = d.record.kind := by
    rw [ofKind, List.mem_filter, decide_eq_true_eq] at hc hd
    rw [hc.2, hd.2]
  exact hne (by rw [key, key, hkinds, hid])

/-- An entry of the categories is the bucket of its name. -/
theorem Tracks.bucket_of_mem (h : r.Tracks done)
    {c : String × Bucket} (hc : c ∈ r.categories) : r.bucket c.1 = c.2 := by
  rw [Registry.bucket, Fields.get?_of_mem h.nodup hc, Option.getD_some]

/-- Each call counts for exactly one kind. -/
theorem recordCount_of_ofKind (h : ∀ kind, (r.flattened kind).length = (ofKind done kind).length) :
    r.recordCount = done.length := by
  simp only [recordCount, Kind.all, List.foldr_cons, List.foldr_nil, h]
  clear h
  induction done with
  | nil => rfl
  | cons c rest ih =>
    simp only [ofKind, List.filter_cons, List.length_cons] at ih ⊢
    cases c.record.kind <;> simp <;> omega

theorem Tracks.consistent (h : r.Tracks done) :
    r.Consistent done where
  owners_mem kind id := by
    rw [(h.ids_perm kind).mem_iff, h.owners, Fields.keys, List.map_map]
    rfl
  dispatch_mem kind id := by
    rw [(h.ids_perm kind).mem_iff, h.dispatch, Fields.keys, List.map_map]
    rfl
  flattened_nodup kind := (h.ids_perm kind).nodup_iff.mpr (h.ids_nodup kind)
  record_place := by
    intro c hc kind record hrecord
    rw [← h.bucket_of_mem hc, h.bucket, List.mem_map] at hrecord
    obtain ⟨d, hd, rfl⟩ := hrecord
    rw [inBucket, List.mem_filter, decide_eq_true_eq] at hd
    exact hd.2
  bucket_nonempty := by
    intro c hc
    -- the category was used by some call, whose record is in the bucket
    have hkey : c.1 ∈ r.categories.keys := List.mem_map_of_mem hc
    rw [h.categories, List.mem_eraseDups, List.mem_map] at hkey
    obtain ⟨d, hd, hcategory⟩ := hkey
    refine ⟨d.record.kind, ?_⟩
    rw [← h.bucket_of_mem hc, h.bucket]
    refine List.ne_nil_of_mem (List.mem_map_of_mem (a := d) ?_)
    rw [inBucket, List.mem_filter, decide_eq_true_eq]
    exact ⟨hd, hcategory, rfl⟩
  categories_order := h.categories
  bucket_order := by
    intro c hc kind
    rw [← h.bucket_of_mem hc, h.bucket]
  dispatch_order := h.dispatch
  recordCount_eq := recordCount_of_ofKind fun kind => by
    rw [(h.flattened kind).length_eq, List.length_map]

/-- **The registry over whole runs.** After any run of registrations, with failures among them, the
tables agree with each other and with the calls that succeeded; a further call fails exactly when
its kind and id are taken by one of those, and then it changes nothing. -/
theorem consistent_attemptAll (calls : List Registration) :
    (empty.attemptAll calls).Consistent (empty.accepted calls) ∧
    ∀ c : Registration,
      ((∃ v after, register c.record c.ref c.moduleName (empty.attemptAll calls) = .error v after) ↔
        ∃ d ∈ empty.accepted calls, d.record.kind = c.record.kind ∧ d.record.id = c.record.id) ∧
      ∀ v after, register c.record c.ref c.moduleName (empty.attemptAll calls) = .error v after →
        after = empty.attemptAll calls ∧
          empty.attemptAll (calls ++ [c]) = empty.attemptAll calls := by
  have htracks : (empty.attemptAll calls).Tracks (empty.accepted calls) :=
    tracks_attemptAll tracks_empty calls
  refine ⟨htracks.consistent, fun c => ⟨?_, fun v after hv => ?_⟩⟩
  · rw [htracks.register_error_iff c, List.mem_map]
    simp only [key, Prod.mk.injEq]
  · have hafter := eq_of_register_error hv
    refine ⟨hafter, ?_⟩
    rw [attemptAll, List.foldl_append, List.foldl_cons, List.foldl_nil, ← attemptAll, attempt, hv]
    exact hafter

end Registry

end Addon.Ace
