import Mathlib
import Addon.Manifest
import Addon.Proofs.Static.Safety
import Addon.Proofs.Value.Faults

/-!
# Manifest — what becomes of a configuration

A configuration is any table of values. It gives a manifest, or it is complained about, or it breaks
the reading: some shapes are used before anything is asked about them.

## The architecture

* **`Breaks`** — a failure that is no complaint. `breaks_bind` takes a chain apart link by link.
* **`Value.IsWritable`** — the values that have a text, by the integers in them (`exists_text_iff`).
  A text of a value that counts as true is never empty (`ne_empty_of_text`).
* **`ListOf`**, **`HasLabels`** — the shapes that the reading gets through;
  `TruthyScalar` is what it breaks at.
* **`Accepted`**, **`Escapes`** — the configurations that give a manifest and those that break the
  reading, by what they hold. A complaint is all that is left.
-/

namespace Addon

/-! ## Texts of values -/

namespace Value

/-- Every integer in the value has few enough digits to be written. -/
def IsWritable (v : Value) : Prop :=
  ∀ n, .int n ∈ v.nodes → n.natAbs < Number.tenPow Number.maxIntDigits

theorem exists_intText_iff (n : Int) :
    (∃ t, intText n = .ok t) ↔ n.natAbs < Number.tenPow Number.maxIntDigits := by
  unfold intText Number.intText?
  split <;> simp_all

theorem isWritable_list {items : List Value} :
    IsWritable (.list items) ↔ ∀ v ∈ items, v.IsWritable := by
  simp only [IsWritable, nodes, List.mem_cons, reduceCtorEq, false_or, mem_nodesOfItems]
  constructor
  · exact fun h v hv n hn => h n ⟨v, hv, hn⟩
  · rintro h n ⟨v, hv, hn⟩
    exact h v hv n hn

theorem isWritable_tuple {items : List Value} :
    IsWritable (.tuple items) ↔ IsWritable (.list items) := by
  simp [IsWritable, nodes]

theorem isWritable_dict {fields : List (String × Value)} :
    IsWritable (.dict fields) ↔ ∀ f ∈ fields, f.2.IsWritable := by
  simp only [IsWritable, nodes, List.mem_cons, reduceCtorEq, false_or, mem_nodesOfFields]
  constructor
  · exact fun h f hf n hn => h n ⟨f, hf, hn⟩
  · rintro h n ⟨f, hf, hn⟩
    exact h f hf n hn

theorem exists_map_iff {α β : Type} {x : Except Fault α} {f : α → β} :
    (∃ b, (do return f (← x) : Except Fault β) = .ok b) ↔ ∃ a, x = .ok a := by
  cases x <;> simp [bind, Except.bind, pure, Except.pure]

mutual

/-- A value has a text inside containers exactly when its integers have. -/
theorem exists_shown_iff : ∀ v : Value, (∃ t, v.shown = .ok t) ↔ v.IsWritable
  | .null | .bool _ | .float _ | .nan _ | .complex .. | .str _ => by
    simp [shown, IsWritable, nodes, pure, Except.pure]
  | .int n => by
    rw [shown, exists_intText_iff]
    simp [IsWritable, nodes]
  | .list items => by
    rw [shown, isWritable_list, ← exists_shownItems_iff items]
    exact exists_map_iff
  | .tuple items => by
    rw [shown, isWritable_tuple, isWritable_list, ← exists_shownItems_iff items]
    exact exists_map_iff
  | .dict fields => by
    rw [shown, isWritable_dict, ← exists_shownFields_iff fields]
    exact exists_map_iff

theorem exists_shownItems_iff : ∀ items : List Value,
    (∃ ts, shownItems items = .ok ts) ↔ ∀ v ∈ items, v.IsWritable
  | [] => by simp [shownItems, pure, Except.pure]
  | v :: rest => by
    rw [List.forall_mem_cons, ← exists_shown_iff v, ← exists_shownItems_iff rest, shownItems]
    simp [bind_eq_ok, pure, Except.pure]

theorem exists_shownFields_iff : ∀ fields : List (String × Value),
    (∃ ts, shownFields fields = .ok ts) ↔ ∀ f ∈ fields, f.2.IsWritable
  | [] => by simp [shownFields, pure, Except.pure]
  | (name, v) :: rest => by
    rw [List.forall_mem_cons, ← exists_shown_iff v, ← exists_shownFields_iff rest, shownFields]
    simp [bind_eq_ok, pure, Except.pure]

end

theorem exists_text_iff (v : Value) : (∃ t, v.text = .ok t) ↔ v.IsWritable := by
  cases v with
  | str s => simp [text, IsWritable, nodes, pure, Except.pure]
  | _ => exact exists_shown_iff _

end Value

/-! ### No text is empty -/

theorem Number.intText?_ne_empty {n : Int} {t : String} (h : intText? n = some t) : t ≠ "" := by
  unfold intText? at h
  split at h
  · obtain rfl := Option.some.inj h
    cases n with
    | ofNat m =>
      change Nat.repr m ≠ ""
      simp [Nat.repr]
    | negSucc m =>
      change "-" ++ Nat.repr (m + 1) ≠ ""
      simp
  · cases h

theorem Number.positional_ne_nil (ds : List Char) (point : Int) :
    positional ds point true ≠ [] := by
  unfold positional
  dsimp only
  split
  · simp
  · split <;> simp

theorem Number.floatText_ne_empty (x : Float) : floatText x ≠ "" := by
  have hchars : floatChars true x ≠ [] := by
    unfold floatChars
    split
    · simp
    · split <;> simp
    · dsimp only
      split
      · simp
      · split
        · exact positional_ne_nil _ _
        · simp [scientific]
  simpa [floatText] using hchars

namespace Value

theorem complexText_ne_empty (re im : Float) : complexText re im ≠ "" := by
  unfold complexText
  split <;> simp [Number.imaginaryText]

theorem ne_empty_of_intText {n : Int} {t : String} (h : intText n = .ok t) : t ≠ "" := by
  unfold intText at h
  generalize htext : Number.intText? n = text? at h
  cases text? with
  | none => cases h
  | some text =>
    obtain rfl := Except.ok.inj h
    exact Number.intText?_ne_empty htext

/-- Inside containers every value has some text. -/
theorem ne_empty_of_shown {v : Value} {t : String} (h : v.shown = .ok t) : t ≠ "" := by
  cases v with
  | int n =>
    rw [shown] at h
    exact ne_empty_of_intText h
  | bool b =>
    obtain rfl := Except.ok.inj h
    cases b <;> decide
  | null | float x | nan o | complex re im | str s =>
    obtain rfl := Except.ok.inj h
    simp [Number.floatText_ne_empty, complexText_ne_empty, Text.quoted]
  | list items | dict fields =>
    obtain ⟨texts, -, h⟩ := bind_eq_ok.mp h
    obtain rfl := Except.ok.inj h
    simp
  | tuple items =>
    obtain ⟨texts, -, h⟩ := bind_eq_ok.mp h
    obtain rfl := Except.ok.inj h
    split <;> simp

/-- The text of a value that counts as true is not empty. -/
theorem ne_empty_of_text {v : Value} {t : String} (htrue : v.isTruthy = true) (h : v.text = .ok t) :
    t ≠ "" := by
  cases v with
  | str s =>
    obtain rfl := Except.ok.inj h
    simpa [isTruthy] using htrue
  | _ => exact ne_empty_of_shown h

end Value

/-! ## Failures that are no complaints -/

/-- The attempt fails, and not with a complaint. -/
def Breaks {α : Type} (x : Attempt α) : Prop :=
  ∃ f, x = .error f ∧ ∀ c, f ≠ .complaint c

section Breaks

variable {α β : Type}

theorem not_breaks_ok (a : α) : ¬ Breaks (.ok a : Attempt α) := by
  rintro ⟨f, h, -⟩
  cases h

theorem not_breaks_complaint (c : Complaint) : ¬ Breaks (.error (.complaint c) : Attempt α) := by
  rintro ⟨f, h, hf⟩
  exact hf c (Except.error.inj h).symm

theorem breaks_bind {x : Attempt α} {f : α → Attempt β} :
    Breaks (x >>= f) ↔ Breaks x ∨ ∃ a, x = .ok a ∧ Breaks (f a) := by
  cases x with
  | error e => simp [Breaks, bind, Except.bind]
  | ok a => simp [Breaks, bind, Except.bind]

theorem breaks_ofMisfit {x : Except Misfit α} : Breaks (.ofMisfit x) ↔ ¬ ∃ a, x = .ok a := by
  cases x <;> simp [Breaks, Attempt.ofMisfit]

theorem breaks_ofValue {x : Except Fault α} : Breaks (.ofValue x) ↔ ¬ ∃ a, x = .ok a := by
  cases x <;> simp [Breaks, Attempt.ofValue]

theorem ofMisfit_ne_complaint {x : Except Misfit α} {c : Complaint} :
    Attempt.ofMisfit x ≠ .error (.complaint c) := by
  cases x <;> simp [Attempt.ofMisfit]

theorem ofValue_ne_complaint {x : Except Fault α} {c : Complaint} :
    Attempt.ofValue x ≠ .error (.complaint c) := by
  cases x <;> simp [Attempt.ofValue]

/-- An attempt at each item breaks only at an item that does. -/
theorem not_breaks_mapM {f : α → Attempt β} (hf : ∀ a, ¬ Breaks (f a)) (as : List α) :
    ¬ Breaks (as.mapM f) := by
  induction as with
  | nil => exact not_breaks_ok _
  | cons a rest ih =>
    rw [List.mapM_cons, breaks_bind]
    rintro (h | ⟨b, -, h⟩)
    · exact hf a h
    rw [breaks_bind] at h
    rcases h with h | ⟨bs, -, h⟩
    · exact ih h
    · exact not_breaks_ok _ h

end Breaks

namespace Manifest

/-! ## Shapes -/

/-- The value counts as true and holds no others: `true`, or a number other than zero. -/
def TruthyScalar (v : Value) : Prop :=
  v.isTruthy = true ∧ ∀ items, v.sequence ≠ .ok items

/-- The value counts as false or lists values of a kind. -/
def ListOf (P : Value → Prop) (v : Value) : Prop :=
  v.isTruthy = false ∨ ∃ items, (v = .list items ∨ v = .tuple items) ∧ ∀ w ∈ items, P w

/-- A dict with the name of a file. -/
def IsDependency (v : Value) : Prop :=
  ∃ fields filename, v = .dict fields ∧ Fields.get? fields "filename" = some (.str filename)

/-- A dict with an id, whatever the id is. -/
def IsProperty (v : Value) : Prop :=
  ∃ fields, v = .dict fields ∧ Fields.contains fields "id" = true

/-- Two values, the first of which can be a key. -/
def IsPair (v : Value) : Prop :=
  ∃ key label, v.sequence = .ok [key, label] ∧ key.unhashable? = none

/-- The value counts as false, is a dict, or lists pairs. -/
def HasLabels (v : Value) : Prop :=
  (∃ fields, v = .dict fields) ∨ ListOf IsPair v

/-! ### Lists of dicts -/

theorem exists_readDependency_iff (v : Value) :
    (∃ d, readDependency v = .ok d) ↔ IsDependency v := by
  unfold readDependency IsDependency
  split
  · split <;> simp_all
  · simp_all

theorem not_breaks_readDependency (v : Value) : ¬ Breaks (readDependency v) := by
  unfold readDependency
  split
  · split
    · exact not_breaks_ok _
    · exact not_breaks_complaint _
  · exact not_breaks_complaint _

theorem exists_readProperty_iff (v : Value) : (∃ p, readProperty v = .ok p) ↔ IsProperty v := by
  unfold readProperty IsProperty
  split
  · split <;> simp_all
  · simp_all

theorem not_breaks_readProperty (v : Value) : ¬ Breaks (readProperty v) := by
  unfold readProperty
  split
  · split
    · exact not_breaks_ok _
    · exact not_breaks_complaint _
  · exact not_breaks_complaint _

/-- Reads each of the values under a key that may be missing. -/
def readAll {α : Type} (read : Value → Attempt α) (v : Value) : Attempt (List α) := do
  let items ← .ofMisfit (v.orElse (.list [])).sequence
  items.mapM read

section ReadAll

variable {α : Type} {read : Value → Attempt α} {P : Value → Prop}

/-- The items of a text and of a dict are texts, so that only lists of other things pass. -/
theorem exists_items_iff (htext : ∀ s, ¬ P (.str s)) (v : Value) :
    (∃ items, (v.orElse (.list [])).sequence = .ok items ∧ ∀ w ∈ items, P w) ↔ ListOf P v := by
  rw [ListOf, Value.orElse]
  cases htrue : v.isTruthy with
  | false => simp [Value.sequence]
  | true =>
    cases v with
    | list items | tuple items => simp [Value.sequence]
    | str s =>
      have hne : s.toList ≠ [] := by simpa [Value.isTruthy] using htrue
      simpa [Value.sequence, htext] using List.exists_mem_of_ne_nil _ hne
    | dict fields =>
      have hne : fields ≠ [] := by simpa [Value.isTruthy] using htrue
      obtain ⟨f, hf⟩ := List.exists_mem_of_ne_nil fields hne
      simpa [Value.sequence, htext] using ⟨f.1, f.2, hf⟩
    | _ => simp [Value.sequence]

theorem exists_readAll_iff (hread : ∀ v, (∃ a, read v = .ok a) ↔ P v) (htext : ∀ s, ¬ P (.str s))
    (v : Value) : (∃ as, readAll read v = .ok as) ↔ ListOf P v := by
  simp only [readAll, bind_eq_ok, Attempt.ofMisfit_eq_ok]
  rw [exists_comm, ← exists_items_iff htext]
  simp only [exists_and_left, exists_mapM_iff, hread]

/-- What was read was read of some value. -/
theorem exists_read_of_mem {v : Value} {as : List α} (h : readAll read v = .ok as) :
    ∀ a ∈ as, ∃ w, read w = .ok a := by
  obtain ⟨items, -, hitems⟩ := bind_eq_ok.mp h
  clear h
  induction items generalizing as with
  | nil =>
    obtain rfl := Except.ok.inj hitems
    simp
  | cons w rest ih =>
    obtain ⟨a, others, ha, hothers, rfl⟩ := mapM_cons_eq_ok.mp hitems
    rw [List.forall_mem_cons]
    exact ⟨⟨w, ha⟩, ih hothers⟩

theorem breaks_readAll_iff (hread : ∀ v, ¬ Breaks (read v)) (v : Value) :
    Breaks (readAll read v) ↔ TruthyScalar v := by
  have hmapM : ∀ items : List Value, ¬ Breaks (items.mapM read) := not_breaks_mapM hread
  simp only [readAll, breaks_bind, breaks_ofMisfit, hmapM, and_false, exists_false, or_false,
    TruthyScalar, Value.orElse]
  cases htrue : v.isTruthy with
  | false => simp [Value.sequence]
  | true => simp

end ReadAll

/-! ### Labels -/

/-- A character is no pair. -/
theorem not_isPair_char (c : Char) : ¬ IsPair (.str c.toString) := by
  rintro ⟨key, label, h, -⟩
  simp [Value.sequence] at h

/-- Pairs are read one by one, whatever was read before. -/
theorem exists_readPairs_iff (labels : List (Value × Value)) (place : Nat) (items : List Value) :
    (∃ r, readPairs labels place items = .ok r) ↔ ∀ w ∈ items, IsPair w := by
  induction items generalizing labels place with
  | nil => simp [readPairs]
  | cons w rest ih =>
    rw [List.forall_mem_cons, readPairs]
    simp only [bind_eq_ok]
    constructor
    · rintro ⟨r, parts, hparts, h⟩
      split at h
      · next key label =>
        split at h
        · cases h
        · next hkey => exact ⟨⟨key, label, hparts, by simpa using hkey⟩, (ih _ _).mp ⟨r, h⟩⟩
      · cases h
    · rintro ⟨⟨key, label, hparts, hkey⟩, hrest⟩
      obtain ⟨r, hr⟩ := (ih (putLabel labels key label) (place + 1)).mpr hrest
      exact ⟨r, _, hparts, by simpa [hkey] using hr⟩

theorem exists_readCategories_iff (v : Value) :
    (∃ r, readCategories (v.orElse (.dict [])) = .ok r) ↔ HasLabels v := by
  rw [HasLabels, ListOf, Value.orElse]
  cases htrue : v.isTruthy with
  | false => simp [readCategories, pure, Except.pure]
  | true =>
    cases v with
    | dict fields => simp [readCategories, pure, Except.pure]
    | list items | tuple items =>
      simpa [readCategories, Value.sequence, bind,
        Except.bind] using exists_readPairs_iff [] 0 items
    | str s =>
      have hne : s.toList ≠ [] := by simpa [Value.isTruthy] using htrue
      obtain ⟨c, hc⟩ := List.exists_mem_of_ne_nil _ hne
      have hnot := (exists_readPairs_iff [] 0 (s.toList.map fun c => .str c.toString)).not.mpr
        fun h => not_isPair_char c (h _ (List.mem_map_of_mem hc))
      simpa [readCategories, Value.sequence, bind, Except.bind] using hnot
    | _ => simp [readCategories, Value.sequence, bind, Except.bind]

/-! ### The type -/

theorem ofName?_eq_some_iff {name : String} {type : AddonType} :
    AddonType.ofName? name = some type ↔ name = type.name := by
  constructor
  · unfold AddonType.ofName?
    split <;> rintro ⟨⟩ <;> rfl
  · rintro rfl
    cases type <;> rfl

theorem type?_eq_some_iff {v : Value} {type : AddonType} :
    v.toText?.bind AddonType.ofName? = some type ↔ v = .str type.name := by
  cases v with
  | str s => simp [Value.toText?, ofName?_eq_some_iff]
  | _ => simp [Value.toText?]

theorem readType_of_key {v : Value} (h : v.unhashable?.isSome = true) :
    readType v = .error (.misfit .noKey) := by
  simp [readType, h, bind, Except.bind, throw, throwThe, MonadExceptOf.throw]

theorem readType_of_known {v : Value} {type : AddonType} (h : v = .str type.name) :
    readType v = .ok type := by
  subst h
  cases type <;> rfl

/-- A type that is none of the three is shown in the complaint about it. -/
theorem readType_of_unknown {v : Value} (hkey : v.unhashable? = none)
    (hunknown : ∀ type : AddonType, v ≠ .str type.name) :
    readType v = Attempt.ofValue v.text >>= fun shown =>
      .error (.complaint (.plain (.unknownAddonType shown))) := by
  have hnone : v.toText?.bind AddonType.ofName? = none :=
    Option.eq_none_iff_forall_ne_some.mpr fun type h => hunknown type (type?_eq_some_iff.mp h)
  unfold readType
  rw [hkey, hnone]
  rfl

theorem readType_eq_ok_iff {v : Value} {type : AddonType} :
    readType v = .ok type ↔ v = .str type.name := by
  refine ⟨fun h => ?_, readType_of_known⟩
  by_contra hne
  by_cases hkey : v.unhashable?.isSome = true
  · rw [readType_of_key hkey] at h
    cases h
  by_cases hknown : ∃ other : AddonType, v = .str other.name
  · obtain ⟨other, hother⟩ := hknown
    rw [readType_of_known hother] at h
    obtain rfl := Except.ok.inj h
    exact hne hother
  · rw [readType_of_unknown (by simpa using hkey) (by simpa using hknown), bind_eq_ok] at h
    obtain ⟨_, -, h⟩ := h
    cases h

/-- The reading breaks at a type that cannot be a key, and at one whose text cannot be shown. -/
theorem breaks_readType_iff (v : Value) :
    Breaks (readType v) ↔
      v.unhashable?.isSome = true ∨ (∀ type : AddonType, v ≠ .str type.name) ∧ ¬ v.IsWritable := by
  by_cases hkey : v.unhashable?.isSome = true
  · rw [readType_of_key hkey]
    exact iff_of_true ⟨_, rfl, by simp⟩ (.inl hkey)
  by_cases hknown : ∃ type : AddonType, v = .str type.name
  · obtain ⟨type, rfl⟩ := hknown
    rw [readType_of_known rfl]
    exact iff_of_false (not_breaks_ok _) fun h => (h.resolve_left hkey).1 type rfl
  · have hunknown : ∀ type : AddonType, v ≠ .str type.name := by simpa using hknown
    rw [readType_of_unknown (by simpa using hkey) hunknown, breaks_bind, breaks_ofValue,
      Value.exists_text_iff]
    constructor
    · rintro (h | ⟨t, -, h⟩)
      · exact .inr ⟨hunknown, h⟩
      · exact absurd h (not_breaks_complaint _)
    · exact fun h => .inl (h.resolve_left hkey).2

/-! ## Configurations -/

/-- The keys whose values become texts. -/
def textKeys : List String :=
  ["id", "name", "version"]

/-- What a configuration has to be for a manifest. -/
structure Accepted (data : Fields Value) : Prop where
  keys : ∀ key ∈ requiredKeys, (value data key).isTruthy = true
  type : ∃ type : AddonType, value data "addonType" = .str type.name
  files : ListOf IsDependency (value data "fileDependencies")
  properties : ListOf IsProperty (value data "properties")
  texts : ∀ key ∈ textKeys, (value data key).IsWritable
  labels : HasLabels (value data "aceCategories")

/-- How a configuration breaks the reading. What is read before has to be in order. -/
inductive Escapes (data : Fields Value) : Prop where
  /-- The type is a list or a dict. -/
  | type (keys : ∀ key ∈ requiredKeys, (value data key).isTruthy = true)
      (h : (value data "addonType").unhashable?.isSome = true)
  /-- The type is a number that is too long for the complaint about it. -/
  | typeText (keys : ∀ key ∈ requiredKeys, (value data key).isTruthy = true)
      (unknown : ∀ type : AddonType, value data "addonType" ≠ .str type.name)
      (h : ¬ (value data "addonType").IsWritable)
  | files (keys : ∀ key ∈ requiredKeys, (value data key).isTruthy = true)
      (type : ∃ type : AddonType, value data "addonType" = .str type.name)
      (h : TruthyScalar (value data "fileDependencies"))
  | properties (keys : ∀ key ∈ requiredKeys, (value data key).isTruthy = true)
      (type : ∃ type : AddonType, value data "addonType" = .str type.name)
      (files : ListOf IsDependency (value data "fileDependencies"))
      (h : TruthyScalar (value data "properties"))
  /-- The id, the name or the version is too long a number, or the labels are
  neither a dict nor pairs. -/
  | rest (keys : ∀ key ∈ requiredKeys, (value data key).isTruthy = true)
      (type : ∃ type : AddonType, value data "addonType" = .str type.name)
      (files : ListOf IsDependency (value data "fileDependencies"))
      (properties : ListOf IsProperty (value data "properties"))
      (h : (∃ key ∈ textKeys, ¬ (value data key).IsWritable) ∨
        ¬ HasLabels (value data "aceCategories"))

theorem missingKeys_eq_nil_iff (data : Fields Value) :
    missingKeys data = [] ↔ ∀ key ∈ requiredKeys, (value data key).isTruthy = true := by
  simp [missingKeys, List.filter_eq_nil_iff]

theorem ofFields_of_missing {data : Fields Value} (h : missingKeys data ≠ []) :
    ofFields data = .error (.complaint (.plain (.missingKeys (missingKeys data)))) := by
  simp [ofFields, h, bind, Except.bind, throw, throwThe, MonadExceptOf.throw]

/-- A reading in four steps. -/
theorem ofFields_of_keys {data : Fields Value} (h : missingKeys data = []) :
    ofFields data = (do
      let type ← readType (value data "addonType")
      let dependencies ← readAll readDependency (value data "fileDependencies")
      let properties ← readAll readProperty (value data "properties")
      readRest data type dependencies properties) := by
  simp only [ofFields, h, readAll, bind_assoc, List.isEmpty_nil, Bool.not_true,
    Bool.false_eq_true, if_false]

section Steps

variable {data : Fields Value}

theorem exists_readFiles_iff :
    (∃ ds, readAll readDependency (value data "fileDependencies") = .ok ds) ↔
      ListOf IsDependency (value data "fileDependencies") :=
  exists_readAll_iff exists_readDependency_iff (by simp [IsDependency]) _

theorem exists_readProperties_iff :
    (∃ ps, readAll readProperty (value data "properties") = .ok ps) ↔
      ListOf IsProperty (value data "properties") :=
  exists_readAll_iff exists_readProperty_iff (by simp [IsProperty]) _

theorem readRest_eq_ok {type : AddonType} {ds : List FileDependency} {ps : List (Fields Value)}
    {m : Manifest} (h : readRest data type ds ps = .ok m) :
    m.addonType = type ∧ m.properties = ps ∧ (value data "id").text = .ok m.id ∧
      (value data "name").text = .ok m.name ∧ (value data "version").text = .ok m.version := by
  simp only [readRest, bind_eq_ok, Attempt.ofValue_eq_ok] at h
  obtain ⟨id, hid, name, hname, version, hversion, labels, -, h⟩ := h
  obtain rfl := Except.ok.inj h
  exact ⟨rfl, rfl, hid, hname, hversion⟩

theorem exists_readRest_iff (type : AddonType) (ds : List FileDependency)
    (ps : List (Fields Value)) : (∃ m, readRest data type ds ps = .ok m) ↔
      (∀ key ∈ textKeys, (value data key).IsWritable) ∧ HasLabels (value data "aceCategories") := by
  simp only [textKeys, List.forall_mem_cons, List.not_mem_nil, false_imp_iff,
    implies_true, and_true, ← Value.exists_text_iff, ← exists_readCategories_iff]
  constructor
  · rintro ⟨m, h⟩
    simp only [readRest, bind_eq_ok, Attempt.ofValue_eq_ok, Attempt.ofMisfit_eq_ok] at h
    obtain ⟨id, hid, name, hname, version, hversion, labels, hlabels, -⟩ := h
    exact ⟨⟨⟨id, hid⟩, ⟨name, hname⟩, version, hversion⟩, labels, hlabels⟩
  · rintro ⟨⟨⟨id, hid⟩, ⟨name, hname⟩, version, hversion⟩, labels, hlabels⟩
    simp [readRest, hid, hname, hversion, hlabels, Attempt.ofValue, Attempt.ofMisfit, bind,
      Except.bind, pure, Except.pure]

/-- The end of the reading knows no complaints. -/
theorem breaks_readRest_iff (type : AddonType) (ds : List FileDependency)
    (ps : List (Fields Value)) :
    Breaks (readRest data type ds ps) ↔ ¬ ∃ m, readRest data type ds ps = .ok m := by
  cases h : readRest data type ds ps with
  | ok m => exact iff_of_false (not_breaks_ok m) (by simp)
  | error f =>
    refine iff_of_true ⟨f, rfl, ?_⟩ (by simp)
    rintro c rfl
    simp only [readRest, bind_eq_error] at h
    rcases h with h | ⟨_, -, h | ⟨_, -, h | ⟨_, -, h | ⟨_, -, h⟩⟩⟩⟩
    · exact ofValue_ne_complaint h
    · exact ofValue_ne_complaint h
    · exact ofValue_ne_complaint h
    · exact ofMisfit_ne_complaint h
    · cases h

theorem exists_ofFields_iff : (∃ m, ofFields data = .ok m) ↔ Accepted data := by
  by_cases hkeys : missingKeys data = []
  · rw [ofFields_of_keys hkeys]
    simp only [bind_eq_ok]
    constructor
    · rintro ⟨m, type, htype, ds, hds, ps, hps, h⟩
      obtain ⟨htexts, hlabels⟩ := (exists_readRest_iff type ds ps).mp ⟨m, h⟩
      exact ⟨(missingKeys_eq_nil_iff data).mp hkeys, ⟨type, readType_eq_ok_iff.mp htype⟩,
        exists_readFiles_iff.mp ⟨ds, hds⟩, exists_readProperties_iff.mp ⟨ps, hps⟩, htexts, hlabels⟩
    · intro h
      obtain ⟨type, htype⟩ := h.type
      obtain ⟨ds, hds⟩ := exists_readFiles_iff.mpr h.files
      obtain ⟨ps, hps⟩ := exists_readProperties_iff.mpr h.properties
      obtain ⟨m, hm⟩ := (exists_readRest_iff type ds ps).mpr ⟨h.texts, h.labels⟩
      exact ⟨m, type, readType_of_known htype, ds, hds, ps, hps, hm⟩
  · rw [ofFields_of_missing hkeys]
    refine iff_of_false (by simp) fun h => hkeys ((missingKeys_eq_nil_iff data).mpr h.keys)

/-- The steps break in their order. -/
theorem breaks_ofFields_iff : Breaks (ofFields data) ↔ Escapes data := by
  by_cases hkeys : missingKeys data = []
  · have hall := (missingKeys_eq_nil_iff data).mp hkeys
    rw [ofFields_of_keys hkeys]
    simp only [breaks_bind, breaks_readType_iff, readType_eq_ok_iff,
      breaks_readAll_iff not_breaks_readDependency, breaks_readAll_iff not_breaks_readProperty,
      breaks_readRest_iff, exists_readRest_iff]
    -- a step breaks only if the steps before it have come to their end
    constructor
    · rintro ((h | ⟨hunknown, h⟩) | ⟨type, htype, h | ⟨ds, hds, h | ⟨ps, hps, h⟩⟩⟩)
      · exact .type hall h
      · exact .typeText hall hunknown h
      · exact .files hall ⟨type, htype⟩ h
      · exact .properties hall ⟨type, htype⟩ (exists_readFiles_iff.mp ⟨ds, hds⟩) h
      · refine .rest hall ⟨type, htype⟩ (exists_readFiles_iff.mp ⟨ds, hds⟩)
          (exists_readProperties_iff.mp ⟨ps, hps⟩) ?_
        rw [not_and_or] at h
        simpa using h
    · rintro (⟨-, h⟩ | ⟨-, hunknown, h⟩ | ⟨-, ⟨type, htype⟩, h⟩ | ⟨-, ⟨type, htype⟩, hfiles, h⟩ |
        ⟨-, ⟨type, htype⟩, hfiles, hproperties, h⟩)
      · exact .inl (.inl h)
      · exact .inl (.inr ⟨hunknown, h⟩)
      · exact .inr ⟨type, htype, .inl h⟩
      · obtain ⟨ds, hds⟩ := exists_readFiles_iff.mpr hfiles
        exact .inr ⟨type, htype, .inr ⟨ds, hds, .inl h⟩⟩
      · obtain ⟨ds, hds⟩ := exists_readFiles_iff.mpr hfiles
        obtain ⟨ps, hps⟩ := exists_readProperties_iff.mpr hproperties
        refine .inr ⟨type, htype, .inr ⟨ds, hds, .inr ⟨ps, hps, ?_⟩⟩⟩
        rw [not_and_or]
        simpa using h
  · rw [ofFields_of_missing hkeys]
    refine iff_of_false (not_breaks_complaint _) fun h =>
      hkeys ((missingKeys_eq_nil_iff data).mpr ?_)
    cases h <;> assumption

end Steps

/-! ### What breaks the reading -/

/-- The failures that are no complaints. -/
def IsRaw (f : Failure) : Prop :=
  f = .misfit .noKey ∨ f = .misfit .noSequence ∨
    (∃ place length, f = .misfit (.pairLength place length)) ∨
    f = .fault .tooManyDigits

/-- A complaint, or one of those. -/
def IsComplaintOrRaw (f : Failure) : Prop :=
  (∃ c, f = .complaint c) ∨ IsRaw f

theorem failsOnly_sequence (v : Value) : FailsOnly (· = .noSequence) v.sequence := by
  cases v with
  | list _ | tuple _ | str _ | dict _ => exact failsOnly_ok _
  | _ => exact failsOnly_error rfl

theorem failsOnly_ofMisfit {α : Type} {P : Misfit → Prop} {x : Except Misfit α}
    (h : FailsOnly P x) :
    FailsOnly (fun f => ∃ m, P m ∧ f = .misfit m) (Attempt.ofMisfit x) := by
  cases x with
  | ok a => exact failsOnly_ok a
  | error m => exact failsOnly_error ⟨m, h m rfl, rfl⟩

theorem failsOnly_ofText (v : Value) : FailsOnly IsComplaintOrRaw (Attempt.ofValue v.text) := by
  have h := Value.failsOnly_text v
  generalize v.text = x at h
  cases x with
  | ok t => exact failsOnly_ok t
  | error f =>
    obtain rfl := h f rfl
    exact failsOnly_error (.inr (.inr (.inr (.inr rfl))))

theorem failsOnly_mapM {α β : Type} {P : Failure → Prop} {f : α → Attempt β}
    (hf : ∀ a, FailsOnly P (f a)) (as : List α) : FailsOnly P (as.mapM f) := by
  induction as with
  | nil => exact failsOnly_ok _
  | cons a rest ih =>
    rw [List.mapM_cons]
    exact (hf a).bind fun _ => ih.bind fun _ => failsOnly_ok _

theorem failsOnly_readAll {α : Type} {read : Value → Attempt α} (hread : ∀ v, ¬ Breaks (read v))
    (v : Value) : FailsOnly IsComplaintOrRaw (readAll read v) := by
  refine FailsOnly.bind ?_ fun items => failsOnly_mapM (fun w f hf => ?_) items
  · refine (failsOnly_ofMisfit (failsOnly_sequence _)).mono ?_
    rintro f ⟨m, rfl, rfl⟩
    exact .inr (.inr (.inl rfl))
  · by_contra hnot
    exact hread w ⟨f, hf, fun c hc => hnot (.inl ⟨c, hc⟩)⟩

theorem failsOnly_readType (v : Value) : FailsOnly IsComplaintOrRaw (readType v) := by
  by_cases hkey : v.unhashable?.isSome = true
  · rw [readType_of_key hkey]
    exact failsOnly_error (.inr (.inl rfl))
  by_cases hknown : ∃ type : AddonType, v = .str type.name
  · obtain ⟨type, htype⟩ := hknown
    rw [readType_of_known htype]
    exact failsOnly_ok type
  · rw [readType_of_unknown (by simpa using hkey) (by simpa using hknown)]
    exact (failsOnly_ofText v).bind fun _ => failsOnly_error (.inl ⟨_, rfl⟩)

/-- What keeps labels from being read. -/
def IsLabelMisfit (m : Misfit) : Prop :=
  m = .noKey ∨ m = .noSequence ∨ ∃ place length, m = .pairLength place length

theorem failsOnly_readPairs (labels : List (Value × Value)) (place : Nat) (items : List Value) :
    FailsOnly IsLabelMisfit (readPairs labels place items) := by
  induction items generalizing labels place with
  | nil => exact failsOnly_ok _
  | cons w rest ih =>
    rw [readPairs]
    refine ((failsOnly_sequence w).mono fun m hm => .inr (.inl hm)).bind fun parts => ?_
    split
    · exact FailsOnly.ite (failsOnly_error (.inl rfl)) (ih _ _)
    · exact failsOnly_error (.inr (.inr ⟨_, _, rfl⟩))

theorem failsOnly_readCategories (v : Value) : FailsOnly IsLabelMisfit (readCategories v) := by
  unfold readCategories
  split
  · exact failsOnly_ok _
  · refine ((failsOnly_sequence _).mono fun m hm => .inr (.inl hm)).bind fun items => ?_
    exact failsOnly_readPairs [] 0 items

theorem failsOnly_ofFields (data : Fields Value) : FailsOnly IsComplaintOrRaw (ofFields data) := by
  by_cases hkeys : missingKeys data = []
  · rw [ofFields_of_keys hkeys]
    refine (failsOnly_readType _).bind fun type => ?_
    refine (failsOnly_readAll not_breaks_readDependency _).bind fun ds => ?_
    refine (failsOnly_readAll not_breaks_readProperty _).bind fun ps => ?_
    refine (failsOnly_ofText _).bind fun _ => (failsOnly_ofText _).bind fun _ => ?_
    refine (failsOnly_ofText _).bind fun _ => FailsOnly.bind ?_ fun _ => failsOnly_ok _
    refine (failsOnly_ofMisfit (failsOnly_readCategories _)).mono ?_
    rintro f ⟨m, rfl | rfl | ⟨place, length, rfl⟩, rfl⟩
    · exact .inr (.inl rfl)
    · exact .inr (.inr (.inl rfl))
    · exact .inr (.inr (.inr (.inl ⟨place, length, rfl⟩)))
  · rw [ofFields_of_missing hkeys]
    exact failsOnly_error (.inl ⟨_, rfl⟩)

/-! ## All configurations -/

/-- A manifest comes from the last step, with the type and the properties that were read before. -/
theorem exists_steps {data : Fields Value} {m : Manifest} (h : ofFields data = .ok m) :
    ∃ type ds ps, readType (value data "addonType") = .ok type ∧
      readAll readProperty (value data "properties") = .ok ps ∧
        readRest data type ds ps = .ok m := by
  have hkeys := (exists_ofFields_iff.mp ⟨m, h⟩).keys
  rw [ofFields_of_keys ((missingKeys_eq_nil_iff data).mpr hkeys)] at h
  simp only [bind_eq_ok] at h
  obtain ⟨type, htype, ds, -, ps, hps, hrest⟩ := h
  exact ⟨type, ds, ps, htype, hps, hrest⟩

/-- The manifest of a configuration has the type that stands there, and no
empty id, name or version. -/
theorem ofFields_eq_ok {data : Fields Value} {m : Manifest} (h : ofFields data = .ok m) :
    value data "addonType" = .str m.addonType.name ∧ m.id ≠ "" ∧ m.name ≠ "" ∧ m.version ≠ "" := by
  have hkeys := (exists_ofFields_iff.mp ⟨m, h⟩).keys
  obtain ⟨type, ds, ps, htype, -, hrest⟩ := exists_steps h
  obtain ⟨rfl, -, hid, hname, hversion⟩ := readRest_eq_ok hrest
  exact ⟨readType_eq_ok_iff.mp htype, Value.ne_empty_of_text (hkeys "id" (by decide)) hid,
    Value.ne_empty_of_text (hkeys "name" (by decide)) hname,
    Value.ne_empty_of_text (hkeys "version" (by decide)) hversion⟩

/-- Its properties have ids, whatever these are. -/
theorem contains_id_of_ofFields {data : Fields Value} {m : Manifest} (h : ofFields data = .ok m) :
    ∀ p ∈ m.properties, Fields.contains p "id" = true := by
  obtain ⟨type, ds, ps, -, hps, hrest⟩ := exists_steps h
  obtain ⟨-, rfl, -⟩ := readRest_eq_ok hrest
  intro p hp
  obtain ⟨w, hw⟩ := exists_read_of_mem hps p hp
  unfold readProperty at hw
  split at hw
  · split at hw
    · next hid =>
      obtain rfl := Except.ok.inj hw
      exact hid
    · cases hw
  · cases hw

/-- **What becomes of a configuration.** Every table of values gives a manifest, is complained
about, or breaks the reading, and which of the three is told by what it holds. A manifest has the
type of the configuration, one of the three, and an id, a name and a version that are not empty. The
reading breaks only at a type that is a list or a dict, at values that should be listed and are not,
at labels that are no pairs, and at numbers that are too long to be written; all else is a
complaint, also about every other type than the three. -/
theorem configuration_outcomes (data : Fields Value) :
    ((∃ m, ofFields data = .ok m) ↔ Accepted data) ∧
    (∀ m, ofFields data = .ok m →
      value data "addonType" = .str m.addonType.name ∧ m.id ≠ "" ∧ m.name ≠ "" ∧ m.version ≠ "") ∧
    ((∃ c, ofFields data = .error (.complaint c)) ↔ ¬ Accepted data ∧ ¬ Escapes data) ∧
    ((∃ f, ofFields data = .error f ∧ IsRaw f) ↔ Escapes data) ∧
    ((∀ type : AddonType, value data "addonType" ≠ .str type.name) →
      (value data "addonType").unhashable? = none → (value data "addonType").IsWritable →
      ∃ c, ofFields data = .error (.complaint c)) := by
  have hraw : (∃ f, ofFields data = .error f ∧ IsRaw f) ↔ Escapes data := by
    rw [← breaks_ofFields_iff]
    constructor
    · rintro ⟨f, hf, hraw⟩
      refine ⟨f, hf, ?_⟩
      rintro c rfl
      rcases hraw with h | h | ⟨_, _, h⟩ | h <;> cases h
    · rintro ⟨f, hf, hnot⟩
      rcases failsOnly_ofFields data f hf with ⟨c, hc⟩ | hraw
      · exact absurd hc (hnot c)
      · exact ⟨f, hf, hraw⟩
  -- what is neither accepted nor breaks is complained about
  have hcomplaint : (∃ c, ofFields data = .error (.complaint c)) ↔ ¬ Accepted data ∧
      ¬ Escapes data := by
    rw [← exists_ofFields_iff, ← breaks_ofFields_iff]
    cases h : ofFields data with
    | ok m => simp
    | error f =>
      by_cases hc : ∃ c, f = .complaint c
      · obtain ⟨c, rfl⟩ := hc
        exact iff_of_true ⟨c, rfl⟩ ⟨by simp, not_breaks_complaint c⟩
      · refine iff_of_false (by simpa using hc) fun hnot => hnot.2 ⟨f, rfl, ?_⟩
        rintro c rfl
        exact hc ⟨c, rfl⟩
  refine ⟨exists_ofFields_iff, fun m => ofFields_eq_ok, hcomplaint, hraw, ?_⟩
  intro hunknown hkey hwritable
  refine hcomplaint.mpr ⟨fun h => ?_, fun h => ?_⟩
  · obtain ⟨type, htype⟩ := h.type
    exact hunknown type htype
  · cases h with
    | type _ h => simp [hkey] at h
    | typeText _ _ h => exact h hwritable
    | files _ type | properties _ type | rest _ type =>
      obtain ⟨type, htype⟩ := type
      exact hunknown type htype

/-! ### A list in place of a type -/

/-- A configuration whose type is a list. -/
def listedType : Fields Value :=
  [("addonType", .list [.str "plugin"]), ("id", .str "a"), ("name", .str "A"),
    ("version", .str "1")]

/-- It is not complained about. -/
theorem listed_type_breaks : ofFields listedType = .error (.misfit .noKey) ∧ Escapes listedType :=
  ⟨rfl, breaks_ofFields_iff.mp ⟨_, rfl, by simp⟩⟩

end Manifest

end Addon
