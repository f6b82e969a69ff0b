import Addon.Proofs.Annotated.Exports
import Addon.Proofs.Static.Constants

/-!
# Dependence — what the records of a class are made of

The constants and the imports of a script are collected before any class is read, so that a
class sees those that come behind it as well. The records of a class depend on the rest of the
script through the values of the constants that its marker arguments and defaults mention, and
through the names of markers.

## The architecture

* **`Export.constants`** — the names that the arguments of markers and the
  defaults of a method mention.
* **`Alike`** — two attempts have related results if both succeed, which chains of attempts keep.
  The two attempts are at the same expressions, in environments that agree on the names in them.
* **`alike_readMarked`** — the records that are read of a method in two scripts.
* **`Leaves`** — a statement that neither binds one of some constants nor imports markers.
* **`records_ignore_later_statements`** — a class in two scripts, which differ
  in what comes behind it.
* **`later_assignment_matters`** — a constant that is bound once more behind the class.
-/

namespace Addon.Annotated

open Script Source
open Static (Agree agree_append reads readsAll readsEntries readsKeywords)

/-! ## Constants of an export -/

/-- The names that the arguments of a marker mention. -/
def argumentReads : Expr → List String
  | .call _ _ args keywords => readsAll args ++ readsKeywords keywords
  | _ => []

/-- The names that the arguments of the markers in an annotation mention. -/
def noteReads (note : Expr) : List String :=
  match annotatedItems? note with
  | some items => items.tail.flatMap argumentReads
  | none => argumentReads note

/-- The names that the annotation of a parameter mentions. -/
def annotationReads : Script.Param → List String
  | ⟨_, _, some note⟩ => noteReads note
  | ⟨_, _, none⟩ => []

/-- The names that a parameter and its default mention. -/
def paramReads (p : Script.Param × Option Expr) : List String :=
  annotationReads p.1 ++ p.2.toList.flatMap reads

/-- The names that the marker, the parameters and the defaults of an exported method mention. -/
def Export.constants (x : Export) : List String :=
  argumentReads x.decorator ++ (callerParams x.method.params x.method.decorators).flatMap paramReads

/-! ## Two attempts -/

/-- If both attempts have a result, these are related. -/
def Alike {α β : Type} (R : α → β → Prop) (x : Attempt α) (y : Attempt β) : Prop :=
  ∀ a b, x = .ok a → y = .ok b → R a b

section Alike

variable {α β γ δ : Type} {R : α → β → Prop} {S : γ → δ → Prop}

theorem alike_ok {a : α} {b : β} (h : R a b) : Alike R (.ok a) (.ok b) := by
  intro _ _ ha hb
  cases ha
  cases hb
  exact h

theorem alike_refl (x : Attempt α) : Alike Eq x x :=
  fun _ _ ha hb => Except.ok.inj (ha.symm.trans hb)

theorem alike_complain (scope : Scope) (v : Violation) (place : Option Mark) (y : Attempt β) :
    Alike R (complain scope v place) y :=
  fun _ _ ha _ => absurd ha complain_ne_ok

theorem alike_any (x : Attempt α) (y : Attempt β) : Alike (fun _ _ => True) x y :=
  fun _ _ _ _ => trivial

theorem Alike.bind {x : Attempt α} {y : Attempt β} {f : α → Attempt γ} {g : β → Attempt δ}
    (hxy : Alike R x y) (hfg : ∀ a b, R a b → Alike S (f a) (g b)) :
    Alike S (x >>= f) (y >>= g) := by
  intro c d hc hd
  obtain ⟨a, ha, hc⟩ := bind_eq_ok.mp hc
  obtain ⟨b, hb, hd⟩ := bind_eq_ok.mp hd
  exact hfg a b (hxy a b ha hb) c d hc hd

/-- Attempts with the same result go on with it. -/
theorem Alike.bind_eq {x y : Attempt α} {f : α → Attempt γ} {g : α → Attempt δ}
    (hxy : Alike Eq x y) (hfg : ∀ a, Alike S (f a) (g a)) : Alike S (x >>= f) (y >>= g) := by
  refine hxy.bind ?_
  rintro a _ rfl
  exact hfg a

end Alike

/-! ## Options -/

section Options

variable (scope scope' : Scope) {env env' : Static.Env}

theorem alike_resolve (key : String) {e : Expr} (h : Agree (reads e) env env') :
    Alike Eq (Static.resolve scope env key e) (Static.resolve scope' env' key e) := by
  unfold Static.resolve Static.evalIn
  rw [Static.eval_congr [1] e h]
  split
  · exact alike_refl _
  · exact alike_complain _ _ _ _
  · exact alike_refl _

theorem alike_resolveEntries (options : Fields Value) (items : List DictItem)
    (h : Agree (readsEntries items) env env') :
    Alike Eq (Static.resolveEntries scope env options items)
      (Static.resolveEntries scope' env' options items) := by
  fun_induction Static.resolveEntries scope env options items with
  | case1 options => exact alike_ok rfl
  | case2 options value rest => exact alike_complain _ _ _ _
  | case3 options x key y value rest ih =>
    simp only [readsEntries, agree_append] at h
    rw [Static.resolveEntries]
    exact (alike_resolve scope scope' key h.2.1).bind_eq fun v => ih v h.2.2
  | case4 options key value rest _ => exact alike_complain _ _ _ _

theorem alike_resolveOptions {e : Option Expr} (h : Agree (e.toList.flatMap reads) env env') :
    Alike Eq (Static.resolveOptions scope env e) (Static.resolveOptions scope' env' e) := by
  unfold Static.resolveOptions
  split
  · exact alike_ok rfl
  · exact alike_resolveEntries scope scope' [] _ (by simpa [reads] using h)
  · exact alike_complain _ _ _ _

theorem alike_resolveKeywordsInto (options : Fields Value) (keywords : List Keyword)
    (h : Agree (readsKeywords keywords) env env') :
    Alike Eq (Static.resolveKeywordsInto scope env options keywords)
      (Static.resolveKeywordsInto scope' env' options keywords) := by
  fun_induction Static.resolveKeywordsInto scope env options keywords with
  | case1 options => exact alike_ok rfl
  | case2 options value rest => exact alike_complain _ _ _ _
  | case3 options name value rest ih =>
    rw [readsKeywords, agree_append] at h
    rw [Static.resolveKeywordsInto]
    exact (alike_resolve scope scope' name h.1).bind_eq fun v => ih v h.2

theorem alike_resolveKeywords (keywords : List Keyword)
    (h : Agree (readsKeywords keywords) env env') :
    Alike Eq (Static.resolveKeywords scope env keywords)
      (Static.resolveKeywords scope' env' keywords) :=
  alike_resolveKeywordsInto scope scope' [] keywords h

theorem alike_displayText (method : String) (decorator : Expr) {argument : Option Expr}
    (options : Fields Value) (h : Agree (argument.toList.flatMap reads) env env') :
    Alike Eq (displayText scope env method decorator argument options)
      (displayText scope' env' method decorator argument options) := by
  unfold displayText
  cases argument
  case' none => refine (alike_refl _).bind_eq fun v => ?_
  case' some e => refine (alike_resolve scope scope' _ (by simpa using h)).bind_eq fun v => ?_
  all_goals
    dsimp only
    split
    · exact alike_refl _
    · exact alike_refl _
    · exact alike_complain _ _ _ _

/-- The arguments of a marker are those it is split into. -/
theorem splitArguments?_reads {args : List Expr} {text options : Option Expr}
    (h : splitArguments? args = some (text, options)) :
    text.toList.flatMap reads ⊆ readsAll args ∧ options.toList.flatMap reads ⊆ readsAll args := by
  unfold splitArguments? at h
  split at h <;> cases h <;> simp [readsAll]

theorem alike_markerArguments (method : String) (marker : MethodMarker) {decorator : Expr}
    (h : Agree (argumentReads decorator) env env') :
    Alike Eq (markerArguments scope env method marker decorator)
      (markerArguments scope' env' method marker decorator) := by
  unfold markerArguments
  split
  · next x callee args keywords =>
    rw [argumentReads, agree_append] at h
    split
    · exact alike_complain _ _ _ _
    · split
      · exact alike_complain _ _ _ _
      · next text options hsplit =>
        obtain ⟨htext, hoptions⟩ := splitArguments?_reads hsplit
        refine (alike_resolveOptions scope scope' (h.1.mono hoptions)).bind_eq fun given => ?_
        refine (alike_resolveKeywords scope scope' keywords h.2).bind_eq fun named => ?_
        refine (alike_displayText scope scope' method _ _ (h.1.mono htext)).bind_eq fun text => ?_
        exact alike_refl _
  · exact alike_refl _

/-! ## Parameters -/

theorem alike_paramOptions (param : String) {marker : Option Expr}
    (h : Agree (marker.toList.flatMap argumentReads) env env') :
    Alike Eq (paramOptions scope env param marker) (paramOptions scope' env' param marker) := by
  unfold paramOptions
  split
  · next x callee args keywords =>
    rw [Option.toList_some, List.flatMap_singleton, argumentReads, agree_append] at h
    split
    · simpa using alike_resolveKeywords scope scope' keywords h.2
    · next y items =>
      have hitems : Agree ((some (Expr.dict y items)).toList.flatMap reads) env env' := by
        simpa [readsAll] using h.1
      refine (alike_resolveOptions scope scope' hitems).bind_eq fun options => ?_
      exact (alike_resolveKeywords scope scope' keywords h.2).bind_eq fun named => alike_refl _
    · exact alike_complain _ _ _ _
  · exact alike_refl _

theorem alike_initialValue {default : Option Expr} (options : Fields Value)
    (h : Agree (default.toList.flatMap reads) env env') :
    Alike Eq (initialValue scope env default options)
      (initialValue scope' env' default options) := by
  unfold initialValue
  split
  · exact alike_refl _
  · next e =>
    exact (alike_resolve scope scope' _ (by simpa using h)).bind_eq fun v => alike_refl _

theorem alike_paramId (param : Script.Param) (options : Fields Value) :
    Alike Eq (paramId scope param options) (paramId scope' param options) := by
  unfold paramId
  split
  · exact alike_refl _
  · split
    · exact alike_complain _ _ _ _
    · exact alike_refl _
  · exact alike_complain _ _ _ _

theorem alike_paramItems (param : Script.Param) (items : Option Value) :
    Alike Eq (paramItems scope param items) (paramItems scope' param items) := by
  unfold paramItems
  split
  · exact alike_refl _
  · exact alike_refl _
  · split
    · exact alike_refl _
    · exact alike_complain _ _ _ _
  · exact alike_complain _ _ _ _

theorem alike_category (method : String) (options : Fields Value) :
    Alike Eq (category scope method options) (category scope' method options) := by
  unfold category
  split
  · exact alike_refl _
  · split
    · split
      · exact alike_refl _
      · exact alike_complain _ _ _ _
    · exact alike_refl _

end Options

/-- Two scripts in which the markers have the same names. -/
theorem markerOf_congr {r r' : Reading} (h : r.names = r'.names) (e : Expr) :
    r.markerOf e = r'.markerOf e := by
  rw [Reading.markerOf, Reading.markerOf, h]

theorem alike_paramMarkers {r r' : Reading} (h : r.names = r'.names) (place : Nat)
    (es : List Expr) :
    Alike (fun found found' => found = found' ∧ ∀ m ∈ found, m.2 ∈ es) (paramMarkers r place es)
      (paramMarkers r' place es) := by
  induction es generalizing place with
  | nil => exact alike_ok ⟨rfl, by simp⟩
  | cons e rest ih =>
    rw [paramMarkers, paramMarkers, markerOf_congr h]
    refine (alike_refl _).bind_eq fun marker => (ih (place + 1)).bind ?_
    rintro others _ ⟨rfl, hothers⟩
    refine alike_ok ⟨rfl, ?_⟩
    split <;> grind

/-- What the arguments of a marker mention, its annotation mentions. -/
theorem argumentReads_subset_noteReads (note : Expr) : argumentReads note ⊆ noteReads note := by
  unfold noteReads
  split
  · next items hitems =>
    unfold annotatedItems? at hitems
    split at hitems <;> simp [argumentReads] at hitems ⊢
  · exact List.Subset.refl _

theorem argumentReads_subset_of_item {note e : Expr} {items : List Expr}
    (hitems : annotatedItems? note = some items) (he : e ∈ items.tail) :
    argumentReads e ⊆ noteReads note := by
  intro id hid
  rw [noteReads, hitems]
  exact List.mem_flatMap.mpr ⟨e, he, hid⟩

section Readings

variable (scope scope' : Scope) {r r' : Reading} (hnames : r.names = r'.names)
include hnames

/-- An annotation says the same in both. Only the spans to cut out may differ. -/
theorem alike_readNote (param : Script.Param) :
    Alike (fun n n' => n.type = n'.type ∧ n.marker = n'.marker ∧
        n.marker.toList.flatMap argumentReads ⊆ annotationReads param)
      (readNote scope r param) (readNote scope' r' param) := by
  unfold readNote
  split
  · exact alike_ok ⟨rfl, rfl, by simp⟩
  · next x name note =>
    rw [markerOf_congr hnames]
    refine (alike_refl _).bind_eq fun marker => ?_
    split
    · refine (alike_any _ _).bind fun _ _ _ => alike_ok ⟨rfl, rfl, ?_⟩
      simpa [annotationReads] using argumentReads_subset_noteReads note
    · split
      · exact alike_ok ⟨rfl, rfl, by simp⟩
      · next items hitems =>
        refine (alike_paramMarkers hnames 1 items.tail).bind ?_
        rintro found _ ⟨rfl, hfound⟩
        split
        · exact alike_ok ⟨rfl, rfl, by simp⟩
        · next place marker =>
          refine (alike_any _ _).bind fun _ _ _ => alike_ok ⟨rfl, rfl, ?_⟩
          simpa [annotationReads] using argumentReads_subset_of_item hitems
            (hfound _ List.mem_cons_self)
        · exact alike_complain _ _ _ _

variable {scope scope'}

theorem alike_readParam {param : Script.Param} {default : Option Expr}
    (h : Agree (paramReads (param, default)) r.env r'.env) :
    Alike (fun q q' => q.1 = q'.1) (readParam scope r param default)
      (readParam scope' r' param default) := by
  obtain ⟨hnote, hdefault⟩ := agree_append.mp h
  refine (alike_readNote scope scope' hnames param).bind ?_
  rintro ⟨type, marker, spans⟩ ⟨_, _, spans'⟩ ⟨rfl, rfl, hreads⟩
  refine (alike_paramOptions scope scope' _ (hnote.mono hreads)).bind_eq fun options => ?_
  refine (alike_paramId scope scope' param options).bind_eq fun id => ?_
  refine (alike_initialValue scope scope' options hdefault).bind_eq fun initial => ?_
  refine (alike_refl _).bind_eq fun type => ?_
  refine (alike_paramItems scope scope' param _).bind_eq fun items => ?_
  exact alike_ok rfl

theorem alike_readParams {params : List (Script.Param × Option Expr)}
    (h : Agree (params.flatMap paramReads) r.env r'.env) :
    Alike (fun q q' => q.1 = q'.1) (readParams scope r params) (readParams scope' r' params) := by
  induction params with
  | nil => exact alike_ok rfl
  | cons p rest ih =>
    rw [List.flatMap_cons, agree_append] at h
    refine (alike_readParam hnames h.1).bind ?_
    rintro ⟨q, spans⟩ ⟨_, spans'⟩ rfl
    refine (ih h.2).bind ?_
    rintro ⟨others, more⟩ ⟨_, more'⟩ rfl
    exact alike_ok rfl

/-- **A method in two scripts.** Its record is the same if the constants that it mentions are. -/
theorem alike_readMarked {x : Export} (h : Agree x.constants r.env r'.env) :
    Alike (fun read read' => read.1 = read'.1) (readMarked scope r x.method x.decorator x.marker)
      (readMarked scope' r' x.method x.decorator x.marker) := by
  obtain ⟨harguments, hparams⟩ := agree_append.mp h
  refine (alike_any _ _).bind fun _ _ _ => ?_
  refine (alike_markerArguments scope scope' _ _ harguments).bind_eq fun ⟨given, options⟩ => ?_
  dsimp only
  split
  · exact alike_complain _ _ _ _
  · refine (alike_readParams hnames hparams).bind ?_
    rintro ⟨params, spans⟩ ⟨_, spans'⟩ rfl
    refine (alike_category scope scope' _ options).bind_eq fun category => ?_
    refine (alike_refl _).bind_eq fun returns => ?_
    exact alike_ok rfl

end Readings

/-! ## Statements behind a class -/

/-- A statement from which names of markers or of their module are taken up. -/
def importsMarkers : Stmt → Bool
  | .importFrom _ (some source) imported _ =>
    if source = markersModule then imported.any fun a => (Marker.ofName? a.name).isSome
    else if source = packageName then imported.any fun a => a.name = markersName
    else false
  | .importNames _ imported => imported.any fun a => a.name = markersModule && a.asName.isSome
  | _ => false

/-- A statement that leaves some constants and the names of markers alone. -/
structure Leaves (constants : List String) (t : Stmt) : Prop where
  binds : ∀ id ∈ Static.rebinds t, id ∉ constants
  imports : importsMarkers t = false

namespace MarkerNames

theorem addMarkers_of_none (names : MarkerNames) {imported : List Alias}
    (h : ∀ a ∈ imported, Marker.ofName? a.name = none) : names.addMarkers imported = names := by
  unfold addMarkers
  induction imported with
  | nil => rfl
  | cons a rest ih =>
    rw [List.foldl_cons, h a List.mem_cons_self]
    exact ih fun b hb => h b (List.mem_cons_of_mem a hb)

theorem addFromPackage_of_ne (names : MarkerNames) {imported : List Alias}
    (h : ∀ a ∈ imported, a.name ≠ markersName) : names.addFromPackage imported = names := by
  have hnone : (imported.filterMap fun a =>
      if a.name = markersName then some (a.asName.getD a.name) else none) = [] :=
    List.filterMap_eq_nil_iff.mpr fun a ha => if_neg (h a ha)
  rw [addFromPackage, hnone, List.append_nil]

theorem addModules_of_none (names : MarkerNames) {imported : List Alias}
    (h : ∀ a ∈ imported, a.name = markersModule → a.asName = none) :
    names.addModules imported = names := by
  have hnone : (imported.filterMap fun a =>
      if a.name = markersModule then a.asName else none) = [] := by
    refine List.filterMap_eq_nil_iff.mpr fun a ha => ?_
    split
    · next hname => exact h a ha hname
    · rfl
  rw [addModules, hnone, List.append_nil]

theorem addStmt_of_not_importsMarkers (names : MarkerNames) {t : Stmt}
    (h : importsMarkers t = false) :
    names.addStmt t = names := by
  unfold addStmt
  split
  · next x source imported level =>
    rw [importsMarkers] at h
    split at h
    · next hsource =>
      rw [if_pos hsource]
      exact names.addMarkers_of_none (by simpa using h)
    · next hsource =>
      rw [if_neg hsource]
      split at h
      · next hpackage =>
        rw [if_pos hpackage]
        exact names.addFromPackage_of_ne (by simpa using h)
      · next hpackage => rw [if_neg hpackage]
  · next x imported =>
    exact names.addModules_of_none (by simpa [importsMarkers] using h)
  · rfl

theorem foldl_addStmt (names : MarkerNames) {stmts : List Stmt}
    (h : ∀ t ∈ stmts, importsMarkers t = false) : stmts.foldl addStmt names = names := by
  induction stmts with
  | nil => rfl
  | cons t rest ih =>
    rw [List.foldl_cons, names.addStmt_of_not_importsMarkers (h t List.mem_cons_self)]
    exact ih fun u hu => h u (List.mem_cons_of_mem t hu)

/-- Two scripts with the same beginning call the markers the same if nothing else imports any. -/
theorem ofModule_congr {m m' : Module} {beginning rest rest' : List Stmt}
    (hbody : m.body = beginning ++ rest) (hbody' : m'.body = beginning ++ rest')
    (h : ∀ t ∈ rest ++ rest', importsMarkers t = false) : ofModule m = ofModule m' := by
  rw [ofModule, ofModule, hbody, hbody', List.foldl_append, List.foldl_append,
    foldl_addStmt _ fun t ht => h t (List.mem_append_left _ ht),
    foldl_addStmt _ fun t ht => h t (List.mem_append_right _ ht)]

end MarkerNames

/-- The constants that the exported methods of a class mention. -/
def constantsOf (names : MarkerNames) (s : Stmt) : List String :=
  (names.classExports s).flatMap Export.constants

/-- The records of a script that are those of the exports of a statement, given the
statements before it. -/
def recordsOf (names : MarkerNames) (before : List Stmt) (s : Stmt) (e : Extracted) :
    List Ace.Record :=
  (e.records.drop (names.exports before).length).take (names.classExports s).length

/-- The record is what an export of a script is read as. -/
def IsRead (r : Reading) (x : Export) (record : Ace.Record) : Prop :=
  ∃ scope spans, readMarked scope r x.method x.decorator x.marker = .ok (record, spans)

theorem IsRead.congr {r r' : Reading} {x : Export} {record record' : Ace.Record}
    (hnames : r.names = r'.names) (henv : Agree x.constants r.env r'.env) (h : IsRead r x record)
    (h' : IsRead r' x record') : record = record' := by
  obtain ⟨scope, spans, h⟩ := h
  obtain ⟨scope', spans', h'⟩ := h'
  exact alike_readMarked hnames henv _ _ h h'

/-- The records of a statement are read of its exports in turn. -/
theorem forall₂_recordsOf {registry : Ace.Registry} {source name : String} {m : Module}
    {before rest : List Stmt} {s : Stmt} {e : Extracted} (hm : parseModule source = .ok m)
    (hbody : m.body = before ++ s :: rest) (he : (extract registry source name).result = .ok e) :
    ∃ r, reading source.toList m = .ok r ∧
      List.Forall₂ (IsRead r) ((MarkerNames.ofModule m).classExports s)
        (recordsOf (MarkerNames.ofModule m) before s e) := by
  obtain ⟨m', r, -, hm', hr, -, -⟩ := extract_result_eq_ok he
  obtain rfl : m = m' := Except.ok.inj (hm.symm.trans hm')
  refine ⟨r, hr, ?_⟩
  obtain ⟨h, -, hends, hrecords, read, -, hgives, hall⟩ := exists_harvest source name
  have hmodule := ((hends registry e).mp he).2
  rw [hall e hmodule] at hgives
  have hread : List.Forall₂ (IsRead r) (exportsIn source) e.records := by
    rw [hrecords e hmodule, List.forall₂_map_right_iff]
    refine hgives.imp fun x call ⟨m', r', hm', hr', hx⟩ => ?_
    obtain rfl : m = m' := Except.ok.inj (hm.symm.trans hm')
    obtain rfl : r = r' := Except.ok.inj (hr.symm.trans hr')
    obtain ⟨spans, hspans⟩ := hx.read
    exact ⟨_, spans, hspans⟩
  have hexports : exportsIn source = (MarkerNames.ofModule m).exports before ++
      ((MarkerNames.ofModule m).classExports s ++ (MarkerNames.ofModule m).exports rest) := by
    simp only [exportsIn, hm, hbody, MarkerNames.exports, List.flatMap_append, List.flatMap_cons]
  rw [hexports] at hread
  have := List.forall₂_take ((MarkerNames.ofModule m).classExports s).length
    (List.forall₂_drop ((MarkerNames.ofModule m).exports before).length hread)
  rwa [List.drop_left, List.take_left] at this

theorem eq_of_forall₂ {α β : Type} {R S : α → β → Prop} {xs : List α} {ys zs : List β}
    (hR : List.Forall₂ R xs ys) (hS : List.Forall₂ S xs zs)
    (h : ∀ x ∈ xs, ∀ y z, R x y → S x z → y = z) : ys = zs := by
  induction hR generalizing zs with
  | nil =>
    cases hS
    rfl
  | cons hxy _ ih =>
    obtain _ | ⟨hxz, hS⟩ := hS
    rw [h _ List.mem_cons_self _ _ hxy hxz, ih hS fun x hx => h x (List.mem_cons_of_mem _ hx)]

/-- **Statements behind a class.** Two scripts share their statements up to a class, and both are
read to their ends. If the statements behind the class bind none of the constants that its exported
methods mention and import no markers, the records of the class are the same in both. -/
theorem records_ignore_later_statements {registry₁ registry₂ : Ace.Registry}
    {source₁ source₂ name₁ name₂ : String} {m₁ m₂ : Module} {before rest₁ rest₂ : List Stmt}
    {s : Stmt}
    {e₁ e₂ : Extracted} (hm₁ : parseModule source₁ = .ok m₁) (hm₂ : parseModule source₂ = .ok m₂)
    (hbody₁ : m₁.body = before ++ s :: rest₁) (hbody₂ : m₂.body = before ++ s :: rest₂)
    (he₁ : (extract registry₁ source₁ name₁).result = .ok e₁)
    (he₂ : (extract registry₂ source₂ name₂).result = .ok e₂)
    (hleaves : ∀ t ∈ rest₁ ++ rest₂, Leaves (constantsOf (MarkerNames.ofModule m₁) s) t) :
    recordsOf (MarkerNames.ofModule m₁) before s e₁ =
      recordsOf (MarkerNames.ofModule m₂) before s e₂ := by
  obtain ⟨r₁, hr₁, hread₁⟩ := forall₂_recordsOf hm₁ hbody₁ he₁
  obtain ⟨r₂, hr₂, hread₂⟩ := forall₂_recordsOf hm₂ hbody₂ he₂
  rw [List.append_cons] at hbody₁ hbody₂
  have hnames : MarkerNames.ofModule m₁ = MarkerNames.ofModule m₂ :=
    MarkerNames.ofModule_congr hbody₁ hbody₂ fun t ht => (hleaves t ht).imports
  have henv : Agree (constantsOf (MarkerNames.ofModule m₁) s) r₁.env r₂.env :=
    Static.agree_environment hbody₁ hbody₂ (reading_eq_ok hr₁).2.2 (reading_eq_ok hr₂).2.2
      fun t ht =>
      (hleaves t ht).binds
  have hreadings : r₁.names = r₂.names := by
    rw [(reading_eq_ok hr₁).2.1, (reading_eq_ok hr₂).2.1, hnames]
  rw [← hnames] at hread₂
  rw [← hnames]
  refine eq_of_forall₂ hread₁ hread₂ fun x hx record record' hrecord hrecord' => ?_
  have hx' : x.constants ⊆ constantsOf (MarkerNames.ofModule m₁) s :=
    fun id hid => List.mem_flatMap.mpr ⟨x, hx, hid⟩
  exact hrecord.congr hreadings (henv.mono hx') hrecord'

/-! ### A default that is a constant -/

/-- A class with a method whose parameter has a constant as its default. -/
def constantDefault : String :=
  "X=1\n@AceClass\nclass A:\n @Action\n def f(s,a=X):0\n"

/-- Another constant is bound behind the class. -/
def otherBound : String :=
  "X=1\n@AceClass\nclass A:\n @Action\n def f(s,a=X):0\nY=2\n"

/-- The same constant is bound once more behind the class. -/
def sameBound : String :=
  "X=1\n@AceClass\nclass A:\n @Action\n def f(s,a=X):0\nX=2\n"

/-- The tokens of a line on which an integer is bound to a name. -/
def bindingTokens (line : Nat) (name : String) (n : Nat) : List Token :=
  [tokenAt line 0 1 (.name name true), tokenAt line 1 1 (.op "="),
    tokenAt line 2 1 (.number (.int n)), tokenAt line 3 0 .newline]

/-- The tokens that the three scripts share. -/
def sharedTokens : List Token :=
  bindingTokens 1 "X" 1 ++ classTokens 2 5 "A" (actionTokens 5 14 "f"
    [tokenAt 5 8 1 (.op ","), tokenAt 5 9 1 (.name "a" true), tokenAt 5 10 1 (.op "="),
      tokenAt 5 11 1 (.name "X" true)])

/-- The statement of a line on which an integer is bound to a name. -/
def bindingStmt (line : Nat) (name : String) (n : Nat) : Stmt :=
  .assign ⟨⟨line, 0⟩, ⟨line, 3⟩⟩ [.name ⟨⟨line, 0⟩, ⟨line, 1⟩⟩ name]
    (.constant ⟨⟨line, 2⟩, ⟨line, 3⟩⟩ (.int n))

/-- The class that the three scripts share. -/
def sharedClass : Stmt :=
  classStmt 2 ⟨5, 15⟩ "A"
    [actionStmt 5 14 "f" [⟨⟨⟨5, 9⟩, ⟨5, 10⟩⟩, "a", none⟩] [.name ⟨⟨5, 11⟩, ⟨5, 12⟩⟩ "X"]]

/-- The tokens of the three scripts. -/
theorem isTokenized_scripts :
    IsTokenized constantDefault (sharedTokens ++ [tokenAt 6 0 0 .finish]) ∧
      IsTokenized otherBound (sharedTokens ++ (bindingTokens 6 "Y" 2 ++ [tokenAt 7 0 0 .finish])) ∧
      IsTokenized sameBound (sharedTokens ++
        (bindingTokens 6 "X" 2 ++ [tokenAt 7 0 0 .finish])) := by
  decide +kernel

theorem parseModule_constantDefault :
    parseModule constantDefault = .ok ⟨[bindingStmt 1 "X" 1, sharedClass]⟩ :=
  parseModule_of_tokens _ isTokenized_scripts.1 (by rfl)

theorem parseModule_otherBound :
    parseModule otherBound = .ok ⟨[bindingStmt 1 "X" 1, sharedClass, bindingStmt 6 "Y" 2]⟩ :=
  parseModule_of_tokens _ isTokenized_scripts.2.1 (by rfl)

theorem parseModule_sameBound :
    parseModule sameBound = .ok ⟨[bindingStmt 1 "X" 1, sharedClass, bindingStmt 6 "X" 2]⟩ :=
  parseModule_of_tokens _ isTokenized_scripts.2.2 (by rfl)

/-- The initial values of the parameters of the shared class. -/
def sharedInitials (m : Module) (e : Extracted) : List (List (Option Value)) :=
  (recordsOf (MarkerNames.ofModule m) [bindingStmt 1 "X" 1] sharedClass e).map fun record =>
    record.params.map (·.initialValue)

set_option maxRecDepth 100000 in
theorem exists_extract_constantDefault :
    ∃ e, (extract {} constantDefault).result = .ok e ∧
      sharedInitials ⟨[bindingStmt 1 "X" 1, sharedClass]⟩ e = [[some (.int 1)]] := by
  apply exists_of_toOption_map
  rw [extract_of_prepared parseModule_constantDefault rfl]
  cbv

set_option maxRecDepth 100000 in
theorem exists_extract_otherBound : ∃ e, (extract {} otherBound).result = .ok e := by
  have hrun : ((extract {} otherBound).result.map fun _ => ()).toOption = some () := by
    rw [extract_of_prepared parseModule_otherBound rfl]
    cbv
  obtain ⟨e, he, -⟩ := exists_of_toOption_map hrun
  exact ⟨e, he⟩

set_option maxRecDepth 100000 in
theorem exists_extract_sameBound :
    ∃ e, (extract {} sameBound).result = .ok e ∧
      sharedInitials ⟨[bindingStmt 1 "X" 1, sharedClass, bindingStmt 6 "X" 2]⟩ e =
        [[some (.int 2)]] := by
  apply exists_of_toOption_map
  rw [extract_of_prepared parseModule_sameBound rfl]
  cbv

theorem constantsOf_sharedClass :
    constantsOf (MarkerNames.ofModule ⟨[bindingStmt 1 "X" 1, sharedClass]⟩) sharedClass =
      ["X"] := by
  cbv

/-- A constant that the class does not mention can be bound behind it. -/
theorem records_ignore_later_statements_otherBound :
    ∃ e₁ e₂, (extract {} constantDefault).result = .ok e₁ ∧
    (extract {} otherBound).result = .ok e₂ ∧
      Leaves ["X"] (bindingStmt 6 "Y" 2) ∧
      sharedInitials ⟨[bindingStmt 1 "X" 1, sharedClass]⟩ e₁ = [[some (.int 1)]] ∧
      recordsOf (MarkerNames.ofModule ⟨[bindingStmt 1 "X" 1, sharedClass]⟩) [bindingStmt 1 "X" 1]
          sharedClass e₁ =
        recordsOf (MarkerNames.ofModule ⟨[bindingStmt 1 "X" 1, sharedClass, bindingStmt 6 "Y" 2]⟩)
          [bindingStmt 1 "X" 1] sharedClass e₂ := by
  obtain ⟨e₁, he₁, hinitials⟩ := exists_extract_constantDefault
  obtain ⟨e₂, he₂⟩ := exists_extract_otherBound
  have hleaves : Leaves ["X"] (bindingStmt 6 "Y" 2) := ⟨by decide, rfl⟩
  have hbody₁ : [bindingStmt 1 "X" 1, sharedClass] = [bindingStmt 1 "X" 1] ++ sharedClass :: [] :=
    rfl
  have hbody₂ : [bindingStmt 1 "X" 1, sharedClass, bindingStmt 6 "Y" 2] =
      [bindingStmt 1 "X" 1] ++ sharedClass :: [bindingStmt 6 "Y" 2] := rfl
  refine ⟨e₁, e₂, he₁, he₂, hleaves, hinitials, ?_⟩
  refine records_ignore_later_statements parseModule_constantDefault parseModule_otherBound
    hbody₁ hbody₂
    he₁ he₂ ?_
  rw [constantsOf_sharedClass]
  simpa using hleaves

/-- A class sees what is bound behind it: two scripts that differ only there give its method
different initial values. -/
theorem later_assignment_matters :
    ∃ m₁ m₂ before s rest e₁ e₂, parseModule constantDefault = .ok m₁ ∧
    parseModule sameBound = .ok m₂ ∧
      m₁.body = before ++ [s] ∧ m₂.body = before ++ s :: rest ∧
      (extract {} constantDefault).result = .ok e₁ ∧ (extract {} sameBound).result = .ok e₂ ∧
      recordsOf (MarkerNames.ofModule m₁) before s e₁ ≠
        recordsOf (MarkerNames.ofModule m₂) before s e₂ := by
  obtain ⟨e₁, he₁, hinitials₁⟩ := exists_extract_constantDefault
  obtain ⟨e₂, he₂, hinitials₂⟩ := exists_extract_sameBound
  refine ⟨_, _, [bindingStmt 1 "X" 1], sharedClass, [bindingStmt 6 "X" 2], e₁, e₂,
    parseModule_constantDefault, parseModule_sameBound, rfl, rfl, he₁, he₂, fun heq => ?_⟩
  unfold sharedInitials at hinitials₁ hinitials₂
  rw [heq, hinitials₂] at hinitials₁
  cases hinitials₁

end Addon.Annotated
