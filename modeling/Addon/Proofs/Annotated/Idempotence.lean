import Addon.Proofs.Annotated.Exports
import Addon.Proofs.Annotated.Walk
import Addon.Proofs.Source.Location
import Addon.Proofs.Static.Shape

/-!
# Idempotence — a script without its markers is left as it is

What an extraction cuts out are markers, and nothing that is left looks like one where the next
extraction looks. Say that the text that is left parses to the tree without the markers, extents
apart. Then reading it again registers nothing and cuts nothing out. A class whose markers are gone
is now one of those that are only warned about, but its methods have no markers any more, so the
warnings are as many as before.

## The architecture

* **`MarkerNames.unmarked`** — the tree of a script without the markers that an extraction cuts out.
* **`classDecorators`**, **`methodDecorators`** — what the walk over a script looks at first.
  `Legible` says that the walk knows for each of them which marker it is, `unclaimed` are
  those that it warns about.
* **`readClasses_eq_ok`** — the first walk: decorators are legible, and there is one
  warning for each unclaimed one.
* **`quotable_methodDecorators`** — the places of decorators can be quoted, so warnings
  about them can be given.
* **`readClasses_of_unmarked`** — the second walk, by induction over the statements: without
  container markers there are only warnings.
-/

namespace Addon.Annotated

open Script Source Text Cursor

variable {s : Stmt} {es : List Expr} {e : Expr} {p q : Progress} {stmts : List Stmt}

/-! ## Scripts without markers -/

namespace MarkerNames

/-- The marker that an expression is. -/
def marker? (names : MarkerNames) (e : Expr) : Option Marker :=
  match names.resolve e with
  | .ok marker => marker
  | .error _ => none

def isContainer (names : MarkerNames) (e : Expr) : Bool :=
  names.marker? e = some .container

def isParam (names : MarkerNames) (e : Expr) : Bool :=
  names.marker? e = some .param

def isMethod (names : MarkerNames) (e : Expr) : Bool :=
  match names.marker? e with
  | some (.method _) => true
  | _ => false

/-- What is left of an annotation without parameter markers. Without other metadata
only the type is left. -/
def unmarkNote (names : MarkerNames) (note : Expr) : Option Expr :=
  if names.isParam note then none
  else match note, annotatedItems? note with
    | .subscript x head (.tuple y _), some (type :: data) =>
      match data.filter fun e => !names.isParam e with
      | [] => some type
      | rest => some (.subscript x head (.tuple y (type :: rest)))
    | _, _ => some note

def unmarkParam (names : MarkerNames) (p : Script.Param) : Script.Param :=
  { p with annotation := p.annotation.bind names.unmarkNote }

/-- Parameters without markers, but for the first ones. -/
def unmarkBehind (names : MarkerNames) (count : Nat) (ps : List Script.Param) : List Script.Param :=
  ps.take count ++ (ps.drop count).map names.unmarkParam

/-- The positional parameters without markers, but for the first ones, which no caller fills. -/
def unmarkParams (names : MarkerNames) (count : Nat) (params : Parameters) : Parameters :=
  { params with
    positionalOnly := names.unmarkBehind count params.positionalOnly
    ordinary := names.unmarkBehind (count - params.positionalOnly.length) params.ordinary }

/-- A marked method without its marker and those of its parameters. -/
def unmarkMethod (names : MarkerNames) : Stmt → Stmt
  | .functionDef x isAsync name params body decorators returns =>
    if decorators.any names.isMethod then
      .functionDef x isAsync name
        (names.unmarkParams (if decorators.any isStaticMark then 0 else 1) params) body
        (decorators.filter fun e => !names.isMethod e) returns
    else .functionDef x isAsync name params body decorators returns
  | s => s

/-- A marked class without its markers and those of its methods. -/
def unmarkClass (names : MarkerNames) : Stmt → Stmt
  | .classDef x name bases keywords body decorators =>
    if decorators.any names.isContainer then
      .classDef x name bases keywords (body.map names.unmarkMethod) (decorators.filter fun e =>
        !names.isContainer e)
    else .classDef x name bases keywords body decorators
  | s => s

/-- A script without the markers that an extraction cuts out. -/
def unmarked (names : MarkerNames) (m : Module) : Module :=
  ⟨m.body.map names.unmarkClass⟩

end MarkerNames

/-! ## Decorators -/

/-- The decorators of a function. -/
def decoratorsOf (s : Stmt) : List Expr :=
  match Method.ofStmt? s with
  | some m => m.decorators
  | none => []

/-- The decorators of a class. -/
def classDecorators : Stmt → List Expr
  | .classDef _ _ _ _ _ decorators => decorators
  | _ => []

/-- The decorators of the methods of a class. -/
def methodDecorators : Stmt → List Expr
  | .classDef _ _ _ _ body _ => body.flatMap decoratorsOf
  | _ => []

namespace MarkerNames

/-- It is known of an expression which marker it is, if any. -/
def Knows (names : MarkerNames) (e : Expr) : Prop :=
  ∃ marker, names.resolve e = .ok marker

/-- All decorators of a class and of its methods are known. -/
def Legible (names : MarkerNames) (s : Stmt) : Prop :=
  ∀ e ∈ classDecorators s ++ methodDecorators s, names.Knows e

/-- The markers of methods in a class that is not marked. -/
def unclaimed (names : MarkerNames) (s : Stmt) : List Expr :=
  if (classDecorators s).any names.isContainer then []
  else (methodDecorators s).filter names.isMethod

end MarkerNames

theorem filter_eq_of_not_any {α : Type} {p : α → Bool} {as : List α} (h : ¬ as.any p = true) :
    as.filter (fun a => !p a) = as := by
  rw [List.filter_eq_self]
  intro a ha
  simpa using fun hp => h (List.any_eq_true.mpr ⟨a, ha, hp⟩)

theorem decoratorsOf_unmarkMethod (names : MarkerNames) (s : Stmt) :
    decoratorsOf (names.unmarkMethod s) = (decoratorsOf s).filter fun e => !names.isMethod e := by
  cases s with
  | functionDef x isAsync name params body decorators returns =>
    rw [MarkerNames.unmarkMethod]
    split
    · rfl
    · next hnone => exact (filter_eq_of_not_any hnone).symm
  -- other statements have no decorators
  | _ => rfl

theorem classDecorators_unmarkClass (names : MarkerNames) (s : Stmt) :
    classDecorators (names.unmarkClass s) = (classDecorators s).filter fun e =>
      !names.isContainer e := by
  cases s with
  | classDef x name bases keywords body decorators =>
    rw [MarkerNames.unmarkClass]
    split
    · rfl
    · next hnone => exact (filter_eq_of_not_any hnone).symm
  | _ => rfl

theorem methodDecorators_unmarkClass (names : MarkerNames) (s : Stmt) :
    methodDecorators (names.unmarkClass s) =
      if (classDecorators s).any names.isContainer then (methodDecorators s).filter fun e =>
        !names.isMethod e
      else methodDecorators s := by
  cases s with
  | classDef x name bases keywords body decorators =>
    rw [MarkerNames.unmarkClass, classDecorators]
    split
    · show (body.map names.unmarkMethod).flatMap decoratorsOf = (body.flatMap decoratorsOf).filter _
      rw [List.flatMap_map, List.filter_flatMap]
      simp only [decoratorsOf_unmarkMethod]
    · rfl
  | _ => rfl

/-- No class is marked any more. -/
theorem not_isContainer_unmarkClass (names : MarkerNames) (s : Stmt) :
    (classDecorators (names.unmarkClass s)).any names.isContainer = false := by
  rw [classDecorators_unmarkClass]
  simp

/-- The unclaimed markers stay, and there are no new ones. -/
theorem unclaimed_unmarkClass (names : MarkerNames) (s : Stmt) :
    names.unclaimed (names.unmarkClass s) = names.unclaimed s := by
  unfold MarkerNames.unclaimed
  rw [not_isContainer_unmarkClass, methodDecorators_unmarkClass]
  by_cases hmarked : (classDecorators s).any names.isContainer = true
  · rw [if_pos hmarked, if_pos hmarked, List.filter_filter]
    simp
  · rw [if_neg hmarked, if_neg hmarked]
    rfl

theorem legible_unmarkClass {names : MarkerNames} (h : names.Legible s) :
    names.Legible (names.unmarkClass s) := by
  intro e he
  refine h e ?_
  rw [classDecorators_unmarkClass, methodDecorators_unmarkClass] at he
  rcases List.mem_append.mp he with he | he
  · exact List.mem_append_left _ (List.mem_of_mem_filter he)
  · refine List.mem_append_right _ ?_
    split at he
    · exact List.mem_of_mem_filter he
    · exact he

/-! ## Shapes -/

theorem target_bare (names : MarkerNames) (e : Expr) : names.target e.bare = names.target e := by
  -- only attributes are printed
  cases e
  all_goals first
    | rfl
    | rw [Expr.bare, MarkerNames.target, MarkerNames.target, print_bare]

theorem resolve_bare (names : MarkerNames) (e : Expr) : names.resolve e.bare = names.resolve e := by
  have htarget := target_bare names e
  cases e with
  | call x callee args keywords => exact target_bare names callee
  | _ => exact htarget

theorem marker?_bare (names : MarkerNames) (e : Expr) : names.marker? e.bare = names.marker? e := by
  rw [MarkerNames.marker?, MarkerNames.marker?, resolve_bare]

theorem isContainer_bare (names : MarkerNames) (e : Expr) :
    names.isContainer e.bare = names.isContainer e := by
  rw [MarkerNames.isContainer, MarkerNames.isContainer, marker?_bare]

theorem isMethod_bare (names : MarkerNames) (e : Expr) :
    names.isMethod e.bare = names.isMethod e := by
  rw [MarkerNames.isMethod, MarkerNames.isMethod, marker?_bare]

theorem classDecorators_bare (s : Stmt) :
    classDecorators s.bare = (classDecorators s).map Expr.bare := by
  cases s with
  | classDef x name bases keywords body decorators => exact bareExprs_eq_map decorators
  | _ => rfl

theorem decoratorsOf_bare (s : Stmt) : decoratorsOf s.bare = (decoratorsOf s).map Expr.bare := by
  cases s with
  | functionDef x isAsync name params body decorators returns => exact bareExprs_eq_map decorators
  | _ => rfl

theorem methodDecorators_bare (s : Stmt) :
    methodDecorators s.bare = (methodDecorators s).map Expr.bare := by
  cases s with
  | classDef x name bases keywords body decorators =>
    show (bareStmts body).flatMap decoratorsOf = (body.flatMap decoratorsOf).map Expr.bare
    rw [bareStmts_eq_map, List.flatMap_map, List.map_flatMap]
    simp only [decoratorsOf_bare]
  | _ => rfl

/-- How many unclaimed markers there are does not depend on extents. -/
theorem length_unclaimed_bare (names : MarkerNames) (s : Stmt) :
    (names.unclaimed s.bare).length = (names.unclaimed s).length := by
  have hmethod : names.isMethod ∘ Expr.bare = names.isMethod := funext (isMethod_bare names)
  have hcontainer : names.isContainer ∘ Expr.bare = names.isContainer :=
    funext (isContainer_bare names)
  unfold MarkerNames.unclaimed
  rw [classDecorators_bare, methodDecorators_bare, List.any_map, List.filter_map, hmethod,
    hcontainer]
  split
  · rfl
  · rw [List.length_map]

theorem any_isContainer_bare (names : MarkerNames) (s : Stmt) :
    (classDecorators s.bare).any names.isContainer = (classDecorators s).any names.isContainer := by
  have hcontainer : names.isContainer ∘ Expr.bare = names.isContainer :=
    funext (isContainer_bare names)
  rw [classDecorators_bare, List.any_map, hcontainer]

theorem legible_bare {names : MarkerNames} : names.Legible s.bare ↔ names.Legible s := by
  unfold MarkerNames.Legible MarkerNames.Knows
  rw [classDecorators_bare, methodDecorators_bare, ← List.map_append]
  simp only [List.forall_mem_map, resolve_bare]

/-! ## Names and constants -/

theorem addStmt_bare (names : MarkerNames) (s : Stmt) : names.addStmt s.bare = names.addStmt s := by
  cases s with
  | importFrom x source imported level =>
    cases source with
    | none => rfl
    | some path => rfl
  | _ => rfl

theorem addStmt_unmarkClass (names given : MarkerNames) (s : Stmt) :
    names.addStmt (given.unmarkClass s) = names.addStmt s := by
  cases s with
  | classDef x name bases keywords body decorators =>
    rw [MarkerNames.unmarkClass]
    split
    · rfl
    · rfl
  | _ => rfl

theorem ofModule_bare (m : Module) : MarkerNames.ofModule m.bare = MarkerNames.ofModule m := by
  rw [MarkerNames.ofModule, MarkerNames.ofModule, Module.bare, bareStmts_eq_map, List.foldl_map]
  simp only [addStmt_bare]

theorem ofModule_unmarked (names : MarkerNames) (m : Module) :
    MarkerNames.ofModule (names.unmarked m) = MarkerNames.ofModule m := by
  rw [MarkerNames.ofModule, MarkerNames.ofModule, MarkerNames.unmarked, List.foldl_map]
  simp only [addStmt_unmarkClass]

theorem update_unmarkClass (names : MarkerNames) (env : Static.Env) (statement : Nat) (s : Stmt) :
    Static.update env statement (names.unmarkClass s) = Static.update env statement s := by
  cases s with
  | classDef x name bases keywords body decorators =>
    -- the name of a class is no constant, marked or not
    rw [MarkerNames.unmarkClass]
    split
    · rfl
    · rfl
  | _ => rfl

theorem updateAll_unmarkClass (names : MarkerNames) (env : Static.Env) (statement : Nat)
    (stmts : List Stmt) :
    Static.updateAll env statement (stmts.map names.unmarkClass) =
      Static.updateAll env statement stmts := by
  induction stmts generalizing env statement with
  | nil => rfl
  | cons s rest ih =>
    rw [List.map_cons, Static.updateAll, Static.updateAll, update_unmarkClass]
    simp only [ih]

/-- Scripts of the same shape but for the markers have the same names for markers
and the same constants. -/
theorem same_of_bare_eq {names : MarkerNames} {m m' : Module}
    (h : m'.bare = (names.unmarked m).bare) :
    MarkerNames.ofModule m' = MarkerNames.ofModule m ∧
    Static.environment m' = Static.environment m := by
  constructor
  · rw [← ofModule_bare m', h, ofModule_bare, ofModule_unmarked]
  · rw [← Static.environment_bare m', h, Static.environment_bare]
    exact updateAll_unmarkClass names [] 0 m.body

/-! ## The first walk -/

section FirstWalk

variable {scope : Scope} {r : Reading} {moduleName className : String}

/-- The markers among decorators are found exactly if every decorator can be read. -/
theorem exists_markedDecorators_iff :
    (∃ marked, markedDecorators r es = .ok marked) ↔ ∀ e ∈ es, r.names.Knows e := by
  induction es with
  | nil => simp [markedDecorators]
  | cons e rest ih =>
    rw [List.forall_mem_cons, ← ih]
    simp only [markedDecorators, bind_eq_ok]
    constructor
    · rintro ⟨_, marker, hmarker, others, hothers, -⟩
      exact ⟨⟨marker, markerOf_eq_ok.mp hmarker⟩, others, hothers⟩
    · rintro ⟨⟨marker, hmarker⟩, others, hothers⟩
      exact ⟨_, marker, markerOf_eq_ok.mpr hmarker, others, hothers, rfl⟩

theorem knows_of_containerMarkers {containers : List Expr}
    (h : containerMarkers r es = .ok containers) : ∀ e ∈ es, r.names.Knows e := by
  obtain ⟨marked, hmarked, -⟩ := bind_eq_ok.mp h
  exact exists_markedDecorators_iff.mp ⟨marked, hmarked⟩

theorem marker?_of_resolve {names : MarkerNames} {marker : Option Marker}
    (h : names.resolve e = .ok marker) : names.marker? e = marker := by
  rw [MarkerNames.marker?, h]

theorem mem_marks_iff {names : MarkerNames} {x : Expr × Marker} :
    x ∈ names.marks es ↔ x.1 ∈ es ∧ names.marker? x.1 = some x.2 := by
  rw [MarkerNames.marks, List.mem_filterMap]
  constructor
  · rintro ⟨e, he, hx⟩
    split at hx
    · next marker hmarker =>
      obtain rfl := Option.some.inj hx
      exact ⟨he, marker?_of_resolve hmarker⟩
    · cases hx
  · rintro ⟨hmem, hx⟩
    refine ⟨x.1, hmem, ?_⟩
    rw [MarkerNames.marker?] at hx
    split at hx
    · next marker hmarker => rw [hmarker, hx]
    · cases hx

/-- The class is marked exactly when it has a container marker. -/
theorem any_isContainer_iff {containers : List Expr} (h : containerMarkers r es = .ok containers) :
    es.any r.names.isContainer = true ↔ containers ≠ [] := by
  rw [containerMarkers_eq_ok h, ne_eq, List.map_eq_nil_iff, List.filter_eq_nil_iff]
  simp [MarkerNames.isContainer, mem_marks_iff]

/-- There is a warning about a decorator exactly when it is the marker of a method. -/
theorem unclaimedWarning_eq_ok {method : String} {text : Option String}
    (h : unclaimedWarning scope r className method e = .ok text) :
    r.names.Knows e ∧ r.names.isMethod e = text.isSome := by
  obtain ⟨marker, hmarker, htext⟩ := bind_eq_ok.mp h
  rw [markerOf_eq_ok] at hmarker
  refine ⟨⟨marker, hmarker⟩, ?_⟩
  rw [MarkerNames.isMethod, marker?_of_resolve hmarker]
  split at htext
  · split at htext
    · obtain rfl := Except.ok.inj htext
      rfl
    · cases htext
  · obtain rfl := Except.ok.inj htext
    simp

/-- One warning is added for each marker of a method, and all decorators are looked at. -/
theorem warnDecorators_eq_ok {method : String}
    (h : warnDecorators scope r className method es p = (q, .ok ())) :
    (∀ e ∈ es, r.names.Knows e) ∧
      q.warnings.length = p.warnings.length + es.countP r.names.isMethod := by
  induction es generalizing p with
  | nil =>
    obtain ⟨rfl, -⟩ := Prod.mk.inj h
    simp
  | cons e rest ih =>
    rw [warnDecorators] at h
    split at h
    · next text htext =>
      obtain ⟨hlegible, hmethod⟩ := unclaimedWarning_eq_ok htext
      obtain ⟨hrest, hcount⟩ := ih h
      refine ⟨List.forall_mem_cons.mpr ⟨hlegible, hrest⟩, ?_⟩
      rw [hcount, List.countP_cons_of_pos hmethod, List.length_append, List.length_singleton]
      omega
    · next htext =>
      obtain ⟨hlegible, hmethod⟩ := unclaimedWarning_eq_ok htext
      obtain ⟨hrest, hcount⟩ := ih h
      refine ⟨List.forall_mem_cons.mpr ⟨hlegible, hrest⟩, ?_⟩
      rw [hcount, List.countP_cons_of_neg (by rw [hmethod]; exact Bool.false_ne_true)]
    · cases (Prod.mk.inj h).2

theorem decoratorsOf_eq {m : Method} (h : Method.ofStmt? s = some m) :
    decoratorsOf s = m.decorators := by
  rw [decoratorsOf, h]

theorem decoratorsOf_eq_nil (h : Method.ofStmt? s = none) : decoratorsOf s = [] := by
  rw [decoratorsOf, h]

theorem warnMembers_eq_ok (h : warnMembers scope r className stmts p = (q, .ok ())) :
    (∀ e ∈ stmts.flatMap decoratorsOf, r.names.Knows e) ∧
      q.warnings.length =
        p.warnings.length + (stmts.flatMap decoratorsOf).countP r.names.isMethod := by
  induction stmts generalizing p with
  | nil =>
    obtain ⟨rfl, -⟩ := Prod.mk.inj h
    simp
  | cons s rest ih =>
    rw [warnMembers] at h
    rw [List.flatMap_cons]
    split at h
    · next m hm =>
      obtain ⟨p', hfirst, hrest⟩ := next_eq_ok h
      obtain ⟨hlegible, hcount⟩ := warnDecorators_eq_ok hfirst
      obtain ⟨hlegible', hcount'⟩ := ih hrest
      rw [decoratorsOf_eq hm]
      refine ⟨List.forall_mem_append.mpr ⟨hlegible, hlegible'⟩, ?_⟩
      rw [hcount', hcount, List.countP_append]
      omega
    · next hm =>
      rw [decoratorsOf_eq_nil hm]
      exact ih h

/-- A method of a marked class is looked at and not warned about. -/
theorem readMember_eq_ok {m : Method}
    (h : readMember scope r moduleName className m p = (q, .ok ())) :
    (∀ e ∈ m.decorators, r.names.Knows e) ∧ q.warnings = p.warnings := by
  unfold readMember at h
  dsimp only at h
  split at h
  · next hread =>
    obtain ⟨marked, hmarked, -⟩ := bind_eq_ok.mp hread
    obtain ⟨rfl, -⟩ := Prod.mk.inj h
    exact ⟨exists_markedDecorators_iff.mp ⟨_, hmarked⟩, rfl⟩
  · next record spans hread =>
    obtain ⟨marked, hmarked, -⟩ := bind_eq_ok.mp hread
    unfold registerMethod at h
    split at h
    · obtain ⟨rfl, -⟩ := Prod.mk.inj h
      exact ⟨exists_markedDecorators_iff.mp ⟨_, hmarked⟩, rfl⟩
    -- an id that is taken is a problem
    · exact absurd (Prod.mk.inj h).2 complain_ne_ok
  · cases (Prod.mk.inj h).2

theorem readMembers_eq_ok (h : readMembers scope r moduleName className stmts p = (q, .ok ())) :
    (∀ e ∈ stmts.flatMap decoratorsOf, r.names.Knows e) ∧ q.warnings = p.warnings := by
  induction stmts generalizing p with
  | nil =>
    obtain ⟨rfl, -⟩ := Prod.mk.inj h
    simp
  | cons s rest ih =>
    rw [readMembers] at h
    rw [List.flatMap_cons]
    split at h
    · next m hm =>
      obtain ⟨p', hfirst, hrest⟩ := next_eq_ok h
      obtain ⟨hknows, hwarnings⟩ := readMember_eq_ok hfirst
      obtain ⟨hknows', hwarnings'⟩ := ih hrest
      rw [decoratorsOf_eq hm]
      exact ⟨List.forall_mem_append.mpr ⟨hknows, hknows'⟩, hwarnings'.trans hwarnings⟩
    · next hm =>
      rw [decoratorsOf_eq_nil hm]
      exact ih h

/-- A class that was read is legible, and there is one warning for each unclaimed marker in it. -/
theorem readClass_eq_ok (x : Extent) (bases : List Expr) (keywords : List Keyword)
    {body : List Stmt} {decorators : List Expr}
    (h : readClass scope r moduleName className body decorators p = (q, .ok ())) :
    r.names.Legible (.classDef x className bases keywords body decorators) ∧
      q.warnings.length = p.warnings.length +
        (r.names.unclaimed (.classDef x className bases keywords body decorators)).length := by
  unfold readClass at h
  unfold MarkerNames.Legible MarkerNames.unclaimed
  rw [classDecorators, methodDecorators]
  split at h
  · cases (Prod.mk.inj h).2
  · next hcontainers =>
    have hunmarked : ¬ decorators.any r.names.isContainer = true := by
      rw [any_isContainer_iff hcontainers]
      simp
    obtain ⟨hlegible, hcount⟩ := warnMembers_eq_ok h
    refine ⟨List.forall_mem_append.mpr ⟨knows_of_containerMarkers hcontainers, hlegible⟩, ?_⟩
    rw [if_neg hunmarked, hcount, List.countP_eq_length_filter]
  · next containers hne hcontainers =>
    have hmarked : decorators.any r.names.isContainer = true := by
      rw [any_isContainer_iff hcontainers]
      exact hne
    split at h
    · cases (Prod.mk.inj h).2
    · obtain ⟨hlegible, hwarnings⟩ := readMembers_eq_ok h
      refine ⟨List.forall_mem_append.mpr ⟨knows_of_containerMarkers hcontainers, hlegible⟩, ?_⟩
      rw [if_pos hmarked, hwarnings]
      rfl

/-- **The first walk.** All decorators are legible, and there is one warning for
each unclaimed marker. -/
theorem readClasses_eq_ok (h : readClasses scope r moduleName stmts p = (q, .ok ())) :
    (∀ s ∈ stmts, r.names.Legible s) ∧
      q.warnings.length = p.warnings.length + (stmts.flatMap r.names.unclaimed).length := by
  induction stmts generalizing p with
  | nil =>
    obtain ⟨rfl, -⟩ := Prod.mk.inj h
    simp
  | cons s rest ih =>
    rw [List.flatMap_cons, List.length_append]
    cases s with
    | classDef x name bases keywords body decorators =>
      rw [readClasses] at h
      obtain ⟨p', hfirst, hrest⟩ := next_eq_ok h
      obtain ⟨hlegible, hcount⟩ := readClass_eq_ok x bases keywords hfirst
      obtain ⟨hlegible', hcount'⟩ := ih hrest
      refine ⟨List.forall_mem_cons.mpr ⟨hlegible, hlegible'⟩, ?_⟩
      rw [hcount', hcount]
      omega
    -- other statements are passed over
    | _ =>
      obtain ⟨hlegible', hcount'⟩ := ih h
      refine ⟨List.forall_mem_cons.mpr ⟨List.forall_mem_nil _, hlegible'⟩, ?_⟩
      rw [hcount']
      exact congrArg _ (Nat.zero_add _).symm

end FirstWalk

/-! ## Places of decorators -/

section Places

variable {source : List Char} {c d k z : Cursor}

/-- A warning can quote the code of an expression. -/
def Quotable (scope : Scope) (e : Expr) : Prop :=
  ∃ location, scope.locate (some (.ofExtent e.extent)) = .ok location

/-- Something stands in the source behind the last token, if not only layout is to come. -/
theorem lt_length_of_past {n : Nat} (hc : c.Within (readText source)) (hcd : c.Past d)
    (hn : Marks source c.last n) :
    n < source.length := by
  obtain ⟨a, t, b, hca, ht, hsolid, -⟩ := hcd.exists_takes
  have ha := hc.of_advances hca
  obtain ⟨m, hm⟩ := (ha.of_takes ht).marks_last
  obtain ⟨front, gap, w, rest, -, -, -, -, hw, hpos, hlast, -⟩ := ha.exists_token ht
  have hlater : ¬ b.last ≤ c.last := by
    intro hle
    have hback : b.last ≤ a.pos :=
      Position.le_trans hle (Position.le_trans (hc.last_le_last hca) ha.last_le_pos)
    rw [hlast hsolid, hpos, placeAfter, placeAfter, Position.after_append _ (front ++ gap)] at hback
    exact Position.not_after_le _ (hw.solid hsolid).ne_nil hback
  rw [hm.le_iff hn] at hlater
  have := hm.le_length
  omega

/-- An expression with more behind it can be quoted. -/
theorem quotable_parsed (hc : c.Within (readText source)) (he : Parsed c e d) (hdz : d.Past z) :
    Quotable (scopeOf source) e := by
  obtain ⟨a, b, hca, hab, hbd, hextent, -⟩ := he
  have ha := hc.of_advances hca.advances
  have hb := ha.of_advances hab.advances
  obtain ⟨n, hn⟩ := ha.marks_pos hab
  obtain ⟨m, hm⟩ := hb.marks_last
  have hle : n ≤ m := (hn.le_iff hm).mp (ha.pos_le_last hab)
  have hlt : m < source.length := lt_length_of_past hb (hbd.past hdz) hm
  rw [Quotable, hextent]
  exact locate_of_marks hn hm (Nat.lt_of_le_of_lt hle hlt) hlt

theorem quotable_decorated (hc : c.Within (readText source)) (hes : Decorated c es k)
    (hkz : k.Past z) :
    ∀ e ∈ es, Quotable (scopeOf source) e := by
  induction hes with
  | nil c => simp
  | @cons c d f g k t e rest ht hsign he hline hrest ih =>
    have hd := hc.of_takes ht
    have hg := (hd.of_advances he.advances).of_advances hline.advances
    have hfz : f.Past z := (hline.advances.trans hrest.lines.advances).past hkz
    exact List.forall_mem_cons.mpr ⟨quotable_parsed hd he hfz, ih hg hkz⟩

/-- Behind the line of a function the cursor is still in the text. -/
theorem within_of_functionDef {text : List Char} {a b : Cursor} {ps : List Script.Param}
    (hc : c.Within text) (hdecorators : Decorated c es k) (hka : k.Past a)
    (hps : Parser.Chain ParamParsed a ps b) (hline : b.EndsLine d) : d.Within text := by
  have hab : a.Advances b := hps.advances fun _ _ _ hp => hp.advances
  have hkd : k.Advances d := hka.advances.trans (hab.trans hline.advances)
  exact hc.of_advances (hdecorators.lines.advances.trans hkd)

theorem quotable_decoratorsOf (hc : c.Within (readText source)) (h : StmtsRead c stmts d) :
    ∀ e ∈ stmts.flatMap decoratorsOf, Quotable (scopeOf source) e := by
  induction h with
  | nil c => simp
  | skip hlines _ ih => exact ih (hc.of_advances hlines.advances)
  | plain hs _ ih =>
    rw [List.flatMap_cons, decoratorsOf_eq_nil (ofStmt?_of_isPlain hs)]
    exact ih hc
  | functionDef hdecorators hka hps hline _ ih =>
    have hd := within_of_functionDef hc hdecorators hka hps.1 hline
    rw [List.flatMap_cons]
    exact List.forall_mem_append.mpr ⟨quotable_decorated hc hdecorators hka, ih hd⟩
  | classDef hdecorators _ hline hbody _ _ _ ih =>
    have hd :=
      ((hc.of_advances hdecorators.lines.advances).of_advances hline.advances).of_advances
        hbody.lines.advances
    exact ih hd

/-- The decorators of methods can be quoted in warnings. -/
theorem quotable_methodDecorators (hc : c.Within (readText source)) (h : StmtsRead c stmts d) :
    ∀ s ∈ stmts, ∀ e ∈ methodDecorators s, Quotable (scopeOf source) e := by
  induction h with
  | nil c => simp
  | skip hlines _ ih => exact ih (hc.of_advances hlines.advances)
  | @plain c e s rest hs _ ih =>
    have hnone : methodDecorators s = [] := by
      cases s <;> first | rfl | cases hs
    refine List.forall_mem_cons.mpr ⟨?_, ih hc⟩
    rw [hnone]
    simp
  | functionDef hdecorators hka hps hline _ ih =>
    have hd := within_of_functionDef hc hdecorators hka hps.1 hline
    exact List.forall_mem_cons.mpr ⟨by simp [methodDecorators], ih hd⟩
  | classDef hdecorators _ hline hbody _ _ _ ih =>
    have hb := (hc.of_advances hdecorators.lines.advances).of_advances hline.advances
    exact List.forall_mem_cons.mpr ⟨quotable_decoratorsOf hb hbody,
      ih (hb.of_advances hbody.lines.advances)⟩

end Places

/-! ## The second walk -/

section SecondWalk

variable {scope : Scope} {r : Reading}

/-- The progress with further warnings. -/
def Progress.warned (p : Progress) (texts : List String) : Progress :=
  { p with warnings := p.warnings ++ texts }

theorem Progress.warned_nil (p : Progress) : p.warned [] = p := by
  rw [Progress.warned, List.append_nil]

theorem Progress.warned_warned (p : Progress) (texts others : List String) :
    (p.warned texts).warned others = p.warned (texts ++ others) := by
  simp only [Progress.warned, List.append_assoc]

theorem unclaimedWarning_of_legible (className method : String) (hlegible : r.names.Knows e)
    (hquotable : Quotable scope e) :
    ∃ text, unclaimedWarning scope r className method e = .ok text := by
  obtain ⟨marker, hmarker⟩ := hlegible
  obtain ⟨location, hlocation⟩ := hquotable
  rw [unclaimedWarning, markerOf_eq_ok.mpr hmarker, hlocation]
  rcases marker with _ | marker
  · exact ⟨_, rfl⟩
  · cases marker <;> exact ⟨_, rfl⟩

theorem warnDecorators_of_legible (className method : String) (hlegible : ∀ e ∈ es, r.names.Knows e)
    (hquotable : ∀ e ∈ es, Quotable scope e) (p : Progress) :
    ∃ texts, warnDecorators scope r className method es p = (p.warned texts, .ok ()) := by
  induction es generalizing p with
  | nil => exact ⟨[], by rw [p.warned_nil]; rfl⟩
  | cons e rest ih =>
    rw [List.forall_mem_cons] at hlegible hquotable
    have hrest := ih hlegible.2 hquotable.2
    obtain ⟨text, htext⟩ := unclaimedWarning_of_legible className method hlegible.1 hquotable.1
    rw [warnDecorators, htext]
    cases text with
    | none => exact hrest p
    | some text =>
      obtain ⟨texts, htexts⟩ := hrest (p.warned [text])
      exact ⟨[text] ++ texts, p.warned_warned [text] texts ▸ htexts⟩

theorem warnMembers_of_legible (className : String)
    (hlegible : ∀ e ∈ stmts.flatMap decoratorsOf, r.names.Knows e)
    (hquotable : ∀ e ∈ stmts.flatMap decoratorsOf, Quotable scope e)
    (p : Progress) : ∃ texts, warnMembers scope r className stmts p = (p.warned texts, .ok ()) := by
  induction stmts generalizing p with
  | nil => exact ⟨[], by rw [p.warned_nil]; rfl⟩
  | cons s rest ih =>
    rw [List.flatMap_cons, List.forall_mem_append] at hlegible hquotable
    rw [warnMembers]
    split
    · next m hm =>
      rw [decoratorsOf_eq hm] at hlegible hquotable
      obtain ⟨texts, htexts⟩ := warnDecorators_of_legible className m.name hlegible.1 hquotable.1 p
      obtain ⟨others, hothers⟩ := ih hlegible.2 hquotable.2 (p.warned texts)
      refine ⟨texts ++ others, ?_⟩
      rw [htexts, ← p.warned_warned]
      exact hothers
    · exact ih hlegible.2 hquotable.2 p

theorem containerMarkers_of_unmarked (hlegible : ∀ e ∈ es, r.names.Knows e)
    (hunmarked : es.any r.names.isContainer = false) : containerMarkers r es = .ok [] := by
  obtain ⟨marked, hmarked⟩ := exists_markedDecorators_iff.mpr hlegible
  obtain ⟨containers, h⟩ : ∃ containers, containerMarkers r es = .ok containers :=
    ⟨_, by rw [containerMarkers, hmarked]; rfl⟩
  have hnone : ¬ containers ≠ [] := by simp [← any_isContainer_iff h, hunmarked]
  rw [h, not_not.mp hnone]

/-- **The second walk.** Where no class is marked and decorators can be read and quoted,
there are only warnings. -/
theorem readClasses_of_unmarked (moduleName : String) (hlegible : ∀ s ∈ stmts, r.names.Legible s)
    (hunmarked : ∀ s ∈ stmts, (classDecorators s).any r.names.isContainer = false)
    (hquotable : ∀ s ∈ stmts, ∀ e ∈ methodDecorators s, Quotable scope e) (p : Progress) :
    ∃ texts, readClasses scope r moduleName stmts p = (p.warned texts, .ok ()) := by
  induction stmts generalizing p with
  | nil => exact ⟨[], by rw [p.warned_nil]; rfl⟩
  | cons s rest ih =>
    rw [List.forall_mem_cons] at hlegible hunmarked hquotable
    have hrest := ih hlegible.2 hunmarked.2 hquotable.2
    cases s with
    | classDef x name bases keywords body decorators =>
      obtain ⟨hclass, hmethods⟩ := List.forall_mem_append.mp hlegible.1
      obtain ⟨texts, htexts⟩ := warnMembers_of_legible name hmethods hquotable.1 p
      obtain ⟨others, hothers⟩ := hrest (p.warned texts)
      refine ⟨texts ++ others, ?_⟩
      have hcontainers : containerMarkers r decorators = .ok [] :=
        containerMarkers_of_unmarked hclass hunmarked.1
      rw [readClasses, readClass, hcontainers, ← p.warned_warned]
      simp only [htexts]
      exact hothers
    -- other statements are passed over
    | _ => exact hrest p

end SecondWalk

/-! ## Extracting twice -/

section Twice

variable {names : MarkerNames} {m m' : Module}

/-- A script of the shape of one without its markers has legible decorators, no marked class and as
many unclaimed markers as that one. -/
theorem unmarked_of_bare_eq (h : m'.bare = (names.unmarked m).bare)
    (hlegible : ∀ s ∈ m.body, names.Legible s) : (∀ s ∈ m'.body, names.Legible s) ∧
    (∀ s ∈ m'.body, (classDecorators s).any names.isContainer = false) ∧
      (m'.body.flatMap names.unclaimed).length = (m.body.flatMap names.unclaimed).length := by
  have hbody : m'.body.map Stmt.bare = m.body.map fun s => (names.unmarkClass s).bare := by
    have := Module.mk.inj h
    rw [bareStmts_eq_map, bareStmts_eq_map, MarkerNames.unmarked, List.map_map] at this
    exact this
  have hpair : ∀ s ∈ m'.body, ∃ t ∈ m.body, (names.unmarkClass t).bare = s.bare := by
    intro s hs
    have hmem : s.bare ∈ m'.body.map Stmt.bare := List.mem_map_of_mem hs
    rw [hbody] at hmem
    exact List.mem_map.mp hmem
  refine ⟨?_, ?_, ?_⟩
  · intro s hs
    obtain ⟨t, ht, hst⟩ := hpair s hs
    rw [← legible_bare, ← hst, legible_bare]
    exact legible_unmarkClass (hlegible t ht)
  · intro s hs
    obtain ⟨t, -, hst⟩ := hpair s hs
    rw [← any_isContainer_bare, ← hst, any_isContainer_bare]
    exact not_isContainer_unmarkClass names t
  · calc (m'.body.flatMap names.unclaimed).length
        = ((m'.body.map Stmt.bare).flatMap names.unclaimed).length := by
          simp only [List.length_flatMap, List.map_map, Function.comp_def, length_unclaimed_bare]
      _ = ((m.body.map fun s => (names.unmarkClass s).bare).flatMap
        names.unclaimed).length := by rw [hbody]
      _ = (m.body.flatMap names.unclaimed).length := by
          simp only [List.length_flatMap, List.map_map, Function.comp_def, length_unclaimed_bare,
            unclaimed_unmarkClass]

end Twice

/-- A script in which there was nothing to cut out. -/
def untouched (name : String) (source : List Char) : Extracted :=
  { name := name, source := source, stripped := source, spans := [], records := [] }

theorem finish_warned (source : List Char) (name : String) (registry : Ace.Registry)
    (texts : List String) :
    finish source name ((beginning registry).warned texts) = .ok (untouched name source) := by
  have hcut : applyRemovals source [] = .ok source := by
    rw [applyRemovals, ordered, List.mergeSort_nil]
    rfl
  have hspans : ((beginning registry).warned texts).spans = [] := rfl
  rw [finish, hspans, hcut, List.mergeSort_nil]
  rfl

/-- **Extraction is idempotent.** When what is left of a script parses to its tree without the
markers, then reading it into a fresh context succeeds. There are no records and nothing more is cut
out, and as many unclaimed markers are warned about as before. -/
theorem extraction_idempotent {c : Context} {source name : String} {e : Extracted} {m m' : Module}
    (hextract : (c.extract source name).2.result = .ok e) (hm : parseModule source = .ok m)
    (hm' : parseModule (String.ofList e.stripped) = .ok m')
    (hshape : m'.bare = ((MarkerNames.ofModule m).unmarked m).bare) (again : String) :
    ∃ left warnings, Context.extract {} (String.ofList e.stripped) again =
        ({ modules := [left] }, { registry := {}, warnings := warnings, result := .ok left }) ∧
      left = untouched again e.stripped ∧
      warnings.length = (c.extract source name).2.warnings.length := by
  -- the first walk
  obtain ⟨m₁, r, p, hm₁, hr, hwalk, -⟩ := extract_result_eq_ok hextract
  obtain rfl : m₁ = m := Except.ok.inj (hm₁.symm.trans hm)
  obtain ⟨-, hnames, henv⟩ := reading_eq_ok hr
  rw [← hnames] at hshape
  obtain ⟨hlegible, hcount⟩ := readClasses_eq_ok hwalk
  -- what is fixed for the script that is left
  obtain ⟨hlegible', hunmarked, hsame⟩ := unmarked_of_bare_eq hshape hlegible
  obtain ⟨hnames', henv'⟩ := same_of_bare_eq hshape
  let r' : Reading := ⟨Index.ofSource e.stripped, r.env, r.names⟩
  have hr' : reading (String.ofList e.stripped).toList m' = .ok r' := by
    rw [reading, henv', henv, hnames', ← hnames, String.toList_ofList]
    rfl
  -- the second walk
  obtain ⟨c₀, d₀, hwithin, -, hstmts⟩ := stmtsRead_parseModule hm'
  rw [String.toList_ofList] at hwithin
  have hquotable := quotable_methodDecorators hwithin hstmts
  obtain ⟨texts, htexts⟩ :=
    readClasses_of_unmarked (r := r') again hlegible' hunmarked hquotable (beginning {})
  have hcount' := (readClasses_eq_ok htexts).2
  refine ⟨_, texts, ?_, rfl, ?_⟩
  · have hextract' : extract {} (String.ofList e.stripped) again =
      ⟨{}, texts, .ok (untouched again e.stripped)⟩ := by
      rw [extract_of_prepared hm' hr', String.toList_ofList]
      simp only [htexts, finish_warned]
      rfl
    rw [Context.extract, hextract']
    rfl
  · have hwarnings : (c.extract source name).2.warnings = p.warnings := by
      rw [Context.extract, extract_of_prepared hm₁ hr, hwalk]
    have htexts' : ((beginning {}).warned texts).warnings = texts := List.nil_append texts
    rw [hwarnings, hcount, ← htexts', hcount', ← hsame]
    rfl

/-! ### A marked class and one that is not -/

/-- A marked class with a marked parameter, and a marked method in a class that is not marked. -/
def halfMarked : String :=
  "@AceClass\nclass A:\n @Action\n def f(s,x:Annotated[int,Param]):0\n" ++
    "class B:\n @Action\n def g(s):0\n"

/-- What is left of it. -/
def halfUnmarked : String :=
  "class A:\n def f(s,x:int):0\nclass B:\n @Action\n def g(s):0\n"

/-- The tokens of a class without a marker, up to the line of its last method. -/
def plainClassTokens (line last : Nat) (name : String) (members : List Token) : List Token :=
  [tokenAt line 0 5 (.reserved "class"), tokenAt line 6 1 (.name name true),
    tokenAt line 7 1 (.op ":"),
    tokenAt line 8 0 .newline, tokenAt (line + 1) 1 0 .indent] ++ members ++
      [tokenAt (last + 1) 0 0 .dedent]

/-- The tokens of the marked parameter. -/
def annotatedTokens : List Token :=
  [tokenAt 4 8 1 (.op ","), tokenAt 4 9 1 (.name "x" true), tokenAt 4 10 1 (.op ":"),
    tokenAt 4 11 9 (.name "Annotated" true), tokenAt 4 20 1 (.op "["),
    tokenAt 4 21 3 (.name "int" true),
    tokenAt 4 24 1 (.op ","), tokenAt 4 25 5 (.name "Param" true), tokenAt 4 30 1 (.op "]")]

/-- The marked parameter. -/
def annotatedParam : Script.Param :=
  ⟨⟨⟨4, 9⟩, ⟨4, 31⟩⟩, "x",
    some (.subscript ⟨⟨4, 11⟩, ⟨4, 31⟩⟩ (.name ⟨⟨4, 11⟩, ⟨4, 20⟩⟩ "Annotated")
    (.tuple ⟨⟨4, 21⟩, ⟨4, 30⟩⟩ [.name ⟨⟨4, 21⟩, ⟨4, 24⟩⟩ "int", .name ⟨⟨4, 25⟩, ⟨4, 30⟩⟩ "Param"]))⟩

def halfMarkedModule : Module :=
  ⟨[classStmt 1 ⟨4, 34⟩ "A" [actionStmt 4 33 "f" [annotatedParam] []],
    .classDef ⟨⟨5, 0⟩, ⟨7, 11⟩⟩ "B" [] [] [actionStmt 7 10 "g" [] []] []]⟩

set_option maxRecDepth 10000 in
theorem parseModule_halfMarked : parseModule halfMarked = .ok halfMarkedModule :=
  parseModule_of_tokens
    (classTokens 1 4 "A" (actionTokens 4 33 "f" annotatedTokens) ++
      plainClassTokens 5 7 "B" (actionTokens 7 10 "g" []) ++ [tokenAt 8 0 0 .finish])
    (by decide +kernel) (by rfl)

/-- The first class without its markers. -/
def unmarkedClass : Stmt :=
  .classDef ⟨⟨1, 0⟩, ⟨2, 17⟩⟩ "A" [] []
    [.functionDef ⟨⟨2, 1⟩, ⟨2, 17⟩⟩ false "f"
      { positionalOnly := []
        ordinary := [⟨⟨⟨2, 7⟩, ⟨2, 8⟩⟩, "s", none⟩,
          ⟨⟨⟨2, 9⟩, ⟨2, 14⟩⟩, "x", some (.name ⟨⟨2, 11⟩, ⟨2, 14⟩⟩ "int")⟩]
        defaults := []
        variadic := none
        keywordOnly := []
        keywords := none }
      [.expr ⟨⟨2, 16⟩, ⟨2, 17⟩⟩ (.constant ⟨⟨2, 16⟩, ⟨2, 17⟩⟩ (.int 0))] [] none]
    []

def halfUnmarkedModule : Module :=
  ⟨[unmarkedClass, .classDef ⟨⟨3, 0⟩, ⟨5, 11⟩⟩ "B" [] [] [actionStmt 5 10 "g" [] []] []]⟩

set_option maxRecDepth 10000 in
theorem parseModule_halfUnmarked : parseModule halfUnmarked = .ok halfUnmarkedModule :=
  parseModule_of_tokens
    -- a method without its marker has the tokens behind the line of the marker
    (plainClassTokens 1 2 "A"
        ((actionTokens 2 16 "f" [tokenAt 2 8 1 (.op ","), tokenAt 2 9 1 (.name "x" true),
          tokenAt 2 10 1 (.op ":"), tokenAt 2 11 3 (.name "int" true)]).drop 3) ++
      plainClassTokens 3 5 "B" (actionTokens 5 10 "g" []) ++ [tokenAt 6 0 0 .finish])
    (by decide +kernel) (by rfl)

theorem bare_halfUnmarked : halfUnmarkedModule.bare =
    ((MarkerNames.ofModule halfMarkedModule).unmarked halfMarkedModule).bare := by
  cbv

/-- What a reading leaves, how many records it registers, and how many warnings it gives. -/
def tally (read : Context × Extraction) : Option (String × Nat) × Nat :=
  ((read.2.result.map fun e => (String.ofList e.stripped, e.records.length)).toOption,
    read.2.warnings.length)

set_option maxRecDepth 100000 in
theorem tally_halfMarked : tally (Context.extract {} halfMarked) = (some (halfUnmarked, 1), 1) := by
  rw [Context.extract, extract_of_prepared parseModule_halfMarked rfl]
  cbv

/-- The first class is exported once and then left alone, the second one is
warned about each time. -/
theorem extraction_idempotent_halfMarked :
    tally (Context.extract {} halfMarked) = (some (halfUnmarked, 1), 1) ∧
    tally (Context.extract {} halfUnmarked) = (some (halfUnmarked, 0), 1) := by
  refine ⟨tally_halfMarked, ?_⟩
  obtain ⟨hresult, hwarnings⟩ := Prod.mk.inj tally_halfMarked
  obtain ⟨e, he, hleft⟩ := exists_of_toOption_map hresult
  replace hleft : String.ofList e.stripped = halfUnmarked := (Prod.mk.inj hleft).1
  obtain ⟨left, warnings, hagain, rfl, hcount⟩ :=
    extraction_idempotent he parseModule_halfMarked (hleft ▸ parseModule_halfUnmarked)
      bare_halfUnmarked
      defaultModuleName
  rw [hleft] at hagain
  rw [hagain, ← hwarnings, ← hcount, ← hleft]
  rfl

end Addon.Annotated
